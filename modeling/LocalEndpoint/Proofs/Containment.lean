import LocalEndpoint.Proofs.Desertion
import LocalEndpoint.Proofs.Grant
import LocalEndpoint.Proofs.Streaming

/-! What has been answered and not received yet is in the channel, or is the one thing that the loop
    has in hand. `Contained` says so of an endpoint, and that the channel has room for what has been
    sent, with the place in it that a loop about to send has reserved; every move keeps it
    (`Change.contained`), hence every run (`contained_after`). While the loop has something in hand
    no accept begins (`Occupied`, `occupied_after`). -/
namespace LocalEndpoint

namespace Station

variable {C : Type}

/-- The event that the loop has in hand: that of an outcome that it has not taken note of, or the
    one that it is to send. -/
@[simp] def held? [Located C] (ipc : Bool) : Station C → Option (Event C)
  | .settling outcome => some (.reporting ipc outcome)
  | .offering event _ | .reserving event _ | .admitting event _ => some event
  | _ => none

/-- What was answered is what was sent and what is in hand; a loop that stops may have dropped
    that. -/
@[simp] def Holds [Located C] (ipc : Bool) (answered sent : List (Event C)) : Station C → Prop
  | .stopping | .stopped => answered = sent ∨ ∃ event, answered = sent ++ [event]
  | s => answered = sent ++ (s.held? ipc).toList

variable [Located C] {ipc : Bool} {answered sent : List (Event C)} {s : Station C}

theorem holds_of_not_ends (h : s.ends = false) :
    s.Holds ipc answered sent ↔ answered = sent ++ (s.held? ipc).toList := by
  cases s with
  | stopping | stopped => cases h
  | _ => exact Iff.rfl

theorem Holds.eq_or_concat (h : s.Holds ipc answered sent) :
    answered = sent ∨ ∃ event, answered = sent ++ [event] := by
  cases s with
  | stopping | stopped => exact h
  | settling | offering | reserving | admitting => exact .inr ⟨_, h⟩
  | _ => exact .inl (by simpa using h)

theorem holds_afterSending (retries : Bool) (h : answered = sent) :
    (afterSending retries : Station C).Holds ipc answered sent := by
  cases retries <;> simpa [afterSending] using h

omit [Located C] in
theorem isAdmitting_afterSending (retries : Bool) :
    (afterSending retries : Station C).isAdmitting = false := by
  cases retries <;> rfl

end Station

namespace Endpoint

variable {C : Type} {e f : Endpoint C} {answered sent received settled : List (Event C)}

/-- What the loop has in hand. -/
def held? [Located C] (e : Endpoint C) : Option (Event C) :=
  e.loop.bind (·.station.held? e.ipc)

/-- What has been sent and waits to be received, oldest first. -/
def queued (e : Endpoint C) : List (Event C) := e.channel.elim [] (·.buffer.toList)

/-- The loop has something in hand, or nothing more to do: it begins no accept before it has
    sent. -/
def Occupied (e : Endpoint C) : Prop := ∃ l, e.loop = some l ∧ l.station.stepsAhead ≤ 1

/-- How the events of the accepts that were answered, those sent and those received agree with the
    loop and with the room in the channel. -/
structure Contained [Located C] (e : Endpoint C) (answered sent received : List (Event C)) :
    Prop where
  fresh : e.loop = none → answered = [] ∧ sent = []
  inHand : ∀ l ∈ e.loop, l.station.Holds e.ipc answered sent
  /-- A loop that is about to send has its place. -/
  inChannel : ∀ ch ∈ e.channel,
    sent.length + e.isAdmitting.toNat ≤ received.length + ch.capacity

theorem receiverGone_onChannel {g : Channel (Event C) → Channel (Event C)}
    (hg : ∀ ch, (g ch).custody = ch.custody) : (e.onChannel g).receiverGone = e.receiverGone := by
  cases hch : e.channel <;> simp [receiverGone, onChannel, hch, Channel.abandoned, hg]

/-- Who can still be received from keeps the receiving end. -/
theorem exists_channel_of_not_gone (h : e.receiverGone = false) :
    ∃ ch, e.channel = some ch ∧ ch.custody ≠ .dropped := by
  cases hch : e.channel with
  | none => simp [receiverGone, hch] at h
  | some ch => exact ⟨ch, rfl, by simpa [receiverGone, hch, Channel.abandoned] using h⟩

/-- Where the loop waits for room it has an event to offer, and the channel is full. -/
theorem exists_of_waitsForRoom (h : e.waitsForRoom = true) :
    ∃ b event retries ch, e.loop = some ⟨b, .offering event retries⟩ ∧ e.isClosed = false ∧
      e.channel = some ch ∧ ch.custody ≠ .dropped ∧ ch.capacity ≤ ch.buffer.size := by
  rw [waitsForRoom] at h
  split at h
  · next b event retries hl =>
    simp only [Bool.and_eq_true, Bool.not_eq_true'] at h
    obtain ⟨⟨hc, hg⟩, hr⟩ := h
    obtain ⟨ch, hch, hcustody⟩ := exists_channel_of_not_gone hg
    refine ⟨b, event, retries, ch, hl, hc, hch, hcustody, ?_⟩
    simpa [hasRoom, hch, Channel.hasRoom] using hr
  · cases h

variable [Located C]

namespace Contained

/-- Loop and capacity stay as they are; more may have been received. -/
theorem keep (h : e.Contained answered sent received) (hl : f.loop = e.loop) (hi : f.ipc = e.ipc)
    (hch : f.channel.map (·.capacity) = e.channel.map (·.capacity)) (news : List (Event C)) :
    f.Contained answered sent (received ++ news) := by
  refine ⟨hl ▸ h.fresh, ?_, ?_⟩
  · intro l hm
    rw [hi]
    exact h.inHand l (hl ▸ hm)
  · intro ch' hch'
    obtain ⟨ch, hc, hsame⟩ : ∃ ch, e.channel = some ch ∧ ch.capacity = ch'.capacity := by
      rw [Option.mem_def.mp hch', Option.map_some] at hch
      exact Option.map_eq_some_iff.mp hch.symm
    have hle := h.inChannel ch hc
    rw [isAdmitting, hl, List.length_append, ← hsame]
    rw [isAdmitting] at hle
    omega

/-- The loop goes on and leaves the channel alone; if it is about to send, it has its place. -/
theorem goOn {answered' : List (Event C)} {m : AcceptLoop C}
    (h : e.Contained answered sent received) (hm : f.loop = some m) (hch : f.channel = e.channel)
    (hs : m.station.Holds f.ipc answered' sent)
    (hroom : m.station.isAdmitting = true →
      ∀ ch ∈ e.channel, sent.length < received.length + ch.capacity) :
    f.Contained answered' sent received := by
  refine ⟨?_, ?_, ?_⟩
  · intro hn
    rw [hm] at hn; cases hn
  · intro l hl
    rw [hm] at hl; cases hl
    exact hs
  · intro ch hc
    rw [hch] at hc
    have hle := h.inChannel ch hc
    rw [isAdmitting, hm, Option.any_some]
    cases hadm : m.station.isAdmitting with
    | false => exact Nat.le_trans (Nat.le_add_right ..) hle
    | true => exact hroom hadm ch hc

/-- The loop goes on to something else than sending, and leaves the channel alone. -/
theorem pass {answered' : List (Event C)} {m : AcceptLoop C}
    (h : e.Contained answered sent received) (hm : f.loop = some m) (hch : f.channel = e.channel)
    (hs : m.station.Holds f.ipc answered' sent) (hnot : m.station.isAdmitting = false) :
    f.Contained answered' sent received := by
  refine h.goOn hm hch hs ?_
  intro hadm
  rw [hnot] at hadm
  cases hadm

/-- The event in hand enters the channel, in the place reserved for it. -/
theorem send {event : Event C} {m : AcceptLoop C} (h : e.Contained answered sent received)
    (hadm : e.isAdmitting = true) (hm : f.loop = some m)
    (hch : f.channel = e.channel.map (·.send event)) (hnot : m.station.isAdmitting = false)
    (hs : m.station.Holds f.ipc answered (sent ++ [event])) :
    f.Contained answered (sent ++ [event]) received := by
  refine ⟨?_, ?_, ?_⟩
  · intro hn
    rw [hm] at hn; cases hn
  · intro l hl
    rw [hm] at hl; cases hl
    exact hs
  · intro ch' hch'
    rw [hch] at hch'
    obtain ⟨ch, hc, rfl⟩ := Option.map_eq_some_iff.mp hch'
    have hle := h.inChannel ch hc
    rw [hadm] at hle
    rw [isAdmitting, hm, Option.any_some, hnot, List.length_append]
    exact hle

omit [Located C] in
/-- Who finds room and a receiver finds fewer events in the channel than it has places. -/
theorem lt_of_hasRoom (hd : e.Delivered settled sent received) (hg : e.receiverGone = false)
    (hr : e.hasRoom = true) : ∀ ch ∈ e.channel, sent.length < received.length + ch.capacity := by
  intro ch hch
  obtain ⟨ch', hch', hcustody⟩ := exists_channel_of_not_gone hg
  cases hch.symm.trans hch'
  have hsent := congrArg List.length (hd.inChannel ch hch hcustody)
  have hroom : ch.buffer.size < ch.capacity := by
    simpa [hasRoom, hch', Channel.hasRoom] using hr
  rw [List.length_append, ← Fifo.size_eq_length] at hsent
  omega

/-- The loop does a piece of its work. -/
theorem piece (h : e.Contained answered sent received) (hd : e.Delivered settled sent received)
    {l : AcceptLoop C} (hl : e.loop = some l) {s : Station C} (hs : l.station = s)
    {os : List (Occurrence C)} (hp : Piece e l s f os) :
    f.Contained answered (sent ++ os.filterMap Occurrence.sent?) received := by
  have ha : s.Holds e.ipc answered sent := hs ▸ h.inHand l hl
  have hadm : e.isAdmitting = s.isAdmitting := by rw [isAdmitting, hl, Option.any_some, hs]
  cases hp with
  | enter | send =>
    exact h.send hadm rfl rfl (Station.isAdmitting_afterSending _)
      (Station.holds_afterSending _ ha)
  | leave | discard | forsake =>
    simp only [List.filterMap_nil, List.filterMap_cons, Occurrence.sent?, List.append_nil]
    exact h.pass rfl rfl ha.eq_or_concat rfl
  | reserve hg hr =>
    rw [List.filterMap_nil, List.append_nil]
    exact h.goOn rfl rfl ha fun _ => lt_of_hasRoom hd hg hr
  | await | rest =>
    rw [List.filterMap_nil, List.append_nil]
    exact h
  | stop =>
    rw [List.filterMap_cons_none rfl, List.filterMap_nil, List.append_nil]
    have hmoved : (e.moveTo l .stopped).Contained answered sent received :=
      h.pass rfl rfl ha rfl
    have hsame := hmoved.keep (f := (e.onChannel (·.hangUp)).moveTo l .stopped) rfl rfl
      (by simp [moveTo, onChannel, Function.comp_def, Channel.hangUp]) []
    rwa [List.append_nil] at hsame
  | _ =>
    simp only [List.filterMap_nil, List.filterMap_cons, Occurrence.sent?, List.append_nil]
    exact h.pass rfl rfl ha rfl

end Contained

variable {m : Move C} {os : List (Occurrence C)}

omit [Located C] in
theorem answers_of_accepting {l : AcceptLoop C} {outcome : Except Failure C}
    (hl : e.loop = some l) (hs : l.station = .accepting) :
    e.answers (e.moveTo l (.settling outcome)) (.acceptEnds outcome) = [outcome] := by
  obtain ⟨b, s⟩ := l
  cases hs
  simp [answers, awaitsAccept, hl, moveTo]

/-- Every move keeps the account. -/
theorem Change.contained (hc : Change e m f os) (hs : e.Sound)
    (hd : e.Delivered settled sent received) (h : e.Contained answered sent received) :
    f.Contained (answered ++ (e.answers f m).map (Event.reporting e.ipc))
      (sent ++ os.filterMap Occurrence.sent?) (received ++ os.filterMap Occurrence.received?) := by
  have hquiet (hans : e.answers f m = []) (ho : os.filterMap Occurrence.sent? = [])
      (hl : f.loop = e.loop) (hi : f.ipc = e.ipc)
      (hch : f.channel.map (·.capacity) = e.channel.map (·.capacity)) :
      f.Contained (answered ++ (e.answers f m).map (Event.reporting e.ipc))
        (sent ++ os.filterMap Occurrence.sent?)
        (received ++ os.filterMap Occurrence.received?) := by
    rw [hans, ho, List.map_nil, List.append_nil, List.append_nil]
    exact h.keep hl hi hch _
  have hnone (ho : ∀ o ∈ os, o.onAcceptPath = false) :=
    Scene.filterMap_eq_nil_of_not_onAcceptPath ho
  cases hc with
  | aside hm hb ho =>
    have hcapacity := congrArg (Option.map Channel.capacity) hb.channel
    exact hquiet (answers_of_not_onLoop (.inl hm)).1 (hnone ho).1 hb.loop hb.ipc hcapacity
  | receiving hm ho _ hr =>
    exact hquiet (answers_of_not_onLoop (.inr hm)).1 (Occurrence.filterMap_sent?_eq_nil ho) rfl rfl
      hr.capacity
  | refusal _ ho => exact hquiet rfl (hnone ho).1 rfl rfl rfl
  | closing _ ho =>
    refine hquiet rfl (hnone ho).1 rfl rfl ?_
    rw [shut, Option.map_map]
    congr 1
    funext ch
    simp only [Function.comp_apply]
    split <;> rfl
  | opening _ hopen hl ho =>
    have hn : e.loop = none := by simpa [hl] using hs.loop hopen
    obtain ⟨rfl, rfl⟩ := h.fresh hn
    obtain rfl := List.prefix_nil.mp hd.inOrder
    rw [(hnone ho).1, (hnone ho).2]
    refine ⟨?_, ?_, ?_⟩
    · intro hn'
      cases hn'
    · intro l hl
      cases hl
      rfl
    · intro ch hch
      cases hch
      exact Nat.zero_le _
  | piece hl hst hp =>
    have hr : os.filterMap Occurrence.received? = [] :=
      List.filterMap_eq_nil_iff.mpr fun o ho => Occurrence.received?_of_byLoop (hp.byLoop o ho)
    rw [hr, List.append_nil]
    change f.Contained (answered ++ []) _ _
    rw [List.append_nil]
    exact h.piece hd hl hst hp
  | @answered l outcome hl hst =>
    have hwas := h.inHand l hl
    rw [hst] at hwas
    obtain rfl : answered = sent := by simpa using hwas
    rw [answers_of_accepting hl hst, List.map_singleton, List.filterMap_nil, List.filterMap_nil,
      List.append_nil, List.append_nil]
    exact h.pass rfl rfl rfl rfl
  | @rung l delay rung hl hst =>
    have hwas := h.inHand l hl
    rw [hst] at hwas
    change Contained _ (answered ++ []) (sent ++ []) (received ++ [])
    rw [List.append_nil, List.append_nil, List.append_nil]
    exact h.pass rfl rfl hwas rfl
  | unawaited => exact hquiet (by simp [answers]) rfl rfl rfl rfl
  | _ => exact hquiet rfl rfl rfl rfl rfl

theorem Piece.occupied {l : AcceptLoop C} {s : Station C} (hp : Piece e l s f os)
    (hl : e.loop = some l) (hs : l.station = s) (h : s.stepsAhead ≤ 1)
    (hsent : os.filterMap Occurrence.sent? = []) :
    f.Occupied ∧ os.countP Occurrence.isAcceptCall = 0 := by
  cases hp with
  | enter | send => cases hsent
  | rest => exact ⟨⟨l, hl, hs ▸ h⟩, rfl⟩
  | leave | discard | succeed | fail | offer | forsake | reserve | block | stop =>
    exact ⟨⟨_, rfl, Nat.zero_le _⟩, rfl⟩
  | _ => simp at h

/-- The loop's own work closes nothing and leaves the receiving end where it is. -/
theorem Change.work_keeps_open (hc : Change e .work f os) :
    f.isClosed = e.isClosed ∧ f.receiverGone = e.receiverGone := by
  cases hc with
  | aside hm | receiving hm => cases hm
  | noLoop => exact ⟨rfl, rfl⟩
  | piece _ _ hp =>
    refine ⟨hp.isClosed_eq, ?_⟩
    cases hp with
    | enter | send | stop => exact receiverGone_onChannel fun _ => rfl
    | _ => rfl

/-- A loop that has something in hand begins no accept, and none is pending, until it has sent. -/
theorem Change.occupied (hc : Change e m f os) (hs : e.Sound) (h : e.Occupied)
    (hsent : os.filterMap Occurrence.sent? = []) :
    f.Occupied ∧ os.countP Occurrence.isAcceptCall = 0 ∧ e.answers f m = [] := by
  obtain ⟨l, hl, hahead⟩ := h
  have hkeep (hloop : f.loop = e.loop) : f.Occupied := ⟨l, hloop.trans hl, hahead⟩
  have hcalls (ho : ∀ o ∈ os, o.byLoop = false) := Occurrence.countP_isAcceptCall_eq_zero ho
  cases hc with
  | aside hm hb ho =>
    exact ⟨hkeep hb.loop, hcalls (Occurrence.byLoop_of_not_onAcceptPath ho),
      (answers_of_not_onLoop (.inl hm)).1⟩
  | receiving hm ho => exact ⟨hkeep rfl, hcalls ho, (answers_of_not_onLoop (.inr hm)).1⟩
  | refusal _ ho | closing _ ho =>
    exact ⟨hkeep rfl, hcalls (Occurrence.byLoop_of_not_onAcceptPath ho), rfl⟩
  | opening _ hopen hnot =>
    have hloop := hs.loop hopen
    rw [hl, hnot] at hloop
    cases hloop
  | noLoop hn => rw [hl] at hn; cases hn
  | answered hl' hst | rung hl' hst =>
    cases hl.symm.trans hl'
    rw [hst] at hahead
    simp at hahead
  | unawaited => exact ⟨hkeep rfl, rfl, by simp [answers]⟩
  | piece hl' hst hp =>
    cases hl.symm.trans hl'
    rw [hst] at hahead
    obtain ⟨hoccupied, hnone⟩ := hp.occupied hl hst hahead hsent
    exact ⟨hoccupied, hnone, rfl⟩
  | _ => exact ⟨hkeep rfl, rfl, rfl⟩

omit [Located C] in
theorem Occupied.awaitsAccept (h : e.Occupied) : e.awaitsAccept = false := by
  obtain ⟨⟨b, s⟩, hl, hahead⟩ := h
  cases s with
  | accepting => simp at hahead
  | _ => simp [Endpoint.awaitsAccept, hl]

theorem occupied_of_held? {event : Event C} (h : e.held? = some event) : e.Occupied := by
  cases hl : e.loop with
  | none => simp [held?, hl] at h
  | some l =>
    refine ⟨l, hl, ?_⟩
    cases hst : l.station with
    | settling | offering | reserving | admitting => simp
    | _ => simp [held?, hl, hst] at h

omit [Located C] in
/-- What keeps an occupied loop that is not about to end waiting is a full channel. -/
theorem Occupied.waitsForRoom (h : e.Occupied) (hw : e.waits = true) (hend : e.ending = false) :
    e.waitsForRoom = true := by
  obtain ⟨⟨b, s⟩, hl, hahead⟩ := h
  rw [ending_of_loop hl] at hend
  simp only [waits, Endpoint.awaitsAccept, napDelay?, loopEnded, hl] at hw
  cases s with
  | offering => simpa using hw
  | stopping | stopped => cases hend
  | settling | reserving | admitting => simp [Endpoint.waitsForRoom, hl] at hw
  | _ => simp at hahead

/-- Nothing is lost while the endpoint is open and somebody can receive. -/
theorem Contained.answered_eq (h : e.Contained answered sent received)
    (hd : e.Delivered settled sent received) (hsupplied : e.Supplied) (ho : e.isClosed = false)
    (hg : e.receiverGone = false) : answered = received ++ e.queued ++ e.held?.toList := by
  obtain ⟨ch, hch, hcustody⟩ := exists_channel_of_not_gone hg
  obtain ⟨-, hend⟩ := hsupplied ho ch hch hcustody
  have hsent : sent = received ++ e.queued := by
    rw [queued, hch]
    exact hd.inChannel ch hch hcustody
  cases hl : e.loop with
  | none =>
    obtain ⟨hans, hnone⟩ := h.fresh hl
    rw [held?, hl, ← hsent, hans, hnone]
    rfl
  | some l =>
    rw [ending_of_loop hl] at hend
    have hhand := (Station.holds_of_not_ends hend).mp (h.inHand l hl)
    rw [hhand, hsent, held?, hl]
    rfl

theorem Contained.inOrder (h : e.Contained answered sent received) : sent <+: answered := by
  cases hl : e.loop with
  | none =>
    obtain ⟨rfl, rfl⟩ := h.fresh hl
    exact List.prefix_rfl
  | some l =>
    rcases (h.inHand l hl).eq_or_concat with heq | ⟨event, heq⟩
    · exact heq ▸ List.prefix_rfl
    · exact heq ▸ List.prefix_append ..

theorem Contained.length_le (h : e.Contained answered sent received) :
    answered.length ≤ sent.length + 1 := by
  cases hl : e.loop with
  | none =>
    obtain ⟨rfl, rfl⟩ := h.fresh hl
    exact Nat.zero_le _
  | some l =>
    rcases (h.inHand l hl).eq_or_concat with heq | ⟨event, heq⟩
    · rw [heq]
      exact Nat.le_succ _
    · rw [heq, List.length_append]
      exact Nat.le_refl _

end Endpoint

namespace Scene

variable {C : Type} [Located C]

theorem sent_append (s : Scene C) (ms ns : List (Move C)) :
    s.sent (ms ++ ns) = s.sent ms ++ (s.after ms).sent ns := by
  rw [sent, history, gather_append after, List.filterMap_append]
  rfl

theorem received_append (s : Scene C) (ms ns : List (Move C)) :
    s.received (ms ++ ns) = s.received ms ++ (s.after ms).received ns := by
  rw [received, history, gather_append after, List.filterMap_append]
  rfl

theorem answers_append (s : Scene C) (ms ns : List (Move C)) :
    s.answers (ms ++ ns) = s.answers ms ++ (s.after ms).answers ns := gather_append after ..

theorem sent_cons (s : Scene C) (m : Move C) (ms : List (Move C)) :
    s.sent (m :: ms) = (s.step m).2.filterMap Occurrence.sent? ++ (s.next m).sent ms := by
  rw [sent, history, gather, List.filterMap_append]
  rfl

theorem received_cons (s : Scene C) (m : Move C) (ms : List (Move C)) :
    s.received (m :: ms) =
      (s.step m).2.filterMap Occurrence.received? ++ (s.next m).received ms := by
  rw [received, history, gather, List.filterMap_append]
  rfl

/-- After every run of a fresh endpoint what was answered, sent and received agrees with the loop
    and with the room in the channel. -/
theorem contained_after (role : Role) (ipc : Bool) (config : Config) (ms : List (Move C)) :
    ((start role ipc config).after ms).endpoint.Contained
      (((start role ipc config).answers ms).map (Event.reporting ipc))
      ((start role ipc config).sent ms) ((start role ipc config).received ms) := by
  induction ms using List.reverseRecOn with
  | nil =>
    refine ⟨fun _ => ⟨rfl, rfl⟩, ?_, ?_⟩
    · intro l hl
      cases hl
    · intro ch hch
      cases hch
  | append_singleton ms m ih =>
    have hstep := (((start role ipc config).after ms).change_step m).contained
      (sound_after role ipc config ms) (delivered_after role ipc config ms) ih
    have hipc : (start role ipc config : Scene C).endpoint.ipc = ipc := rfl
    rw [ipc_after, hipc] at hstep
    simpa only [Runs.concat after, answers, sent, received, history_concat, gather_concat after,
      List.map_append, List.filterMap_append] using hstep

/-- Until it has sent what it has in hand, a loop begins no accept, whatever else is done. -/
theorem occupied_after (s : Scene C) (ns : List (Move C)) (hs : s.endpoint.Sound)
    (h : s.endpoint.Occupied) (hsent : s.sent ns = []) :
    (s.after ns).endpoint.Occupied ∧ (s.history ns).countP Occurrence.isAcceptCall = 0 ∧
      s.answers ns = [] := by
  induction ns generalizing s with
  | nil => exact ⟨h, rfl, rfl⟩
  | cons m ns ih =>
    rw [sent_cons] at hsent
    obtain ⟨hquiet, hlater⟩ := List.append_eq_nil_iff.mp hsent
    obtain ⟨hnext, hcalls, hanswers⟩ := (s.change_step m).occupied hs h hquiet
    obtain ⟨hafter, hcalls', hanswers'⟩ := ih (s.next m) (s.sound_next m hs) hnext hlater
    refine ⟨hafter, ?_, ?_⟩
    · rw [history, gather, List.countP_append, hcalls, Nat.zero_add]
      exact hcalls'
    · rw [answers, gather, hanswers]
      exact hanswers'

end Scene

end LocalEndpoint
