import LocalEndpoint.Proofs.Conservation

/-! A lost receiver stops the loop without a trace. Once the receiving end has been dropped, nothing
    finds room in the channel any more (`Deserted`), so the next event that the loop has to report
    ends it. On its way there it can begin an accept, have it answered and take note of its outcome,
    each once; how much of that is still ahead can be read off the station (`Station.ahead`) and is
    used up as it happens (`Waning`). -/

namespace LocalEndpoint

/-- How many steps an accept has still to make where a loop stands, before there is an event to
    report: to begin, to be answered, and to be taken note of. -/
@[simp] def Station.stepsAhead {C : Type} : Station C → Nat
  | .accepting => 2
  | .settling _ => 1
  | .offering _ _ | .reserving _ _ | .admitting _ _ | .stopping | .stopped => 0
  | _ => 3

/-- How far from its event an accept is that makes this step. -/
@[simp] def Leak.stepsAhead : Leak → Nat
  | .call => 3
  | .answer => 2
  | .outcome => 1
  | .pause => 4

/-- How much of a leak is still ahead where a loop stands. -/
@[simp] def Station.ahead {C : Type} (k : Leak) (s : Station C) : Nat :=
  if k.stepsAhead ≤ s.stepsAhead then 1 else 0

theorem Station.ahead_le_one {C : Type} (k : Leak) (s : Station C) : s.ahead k ≤ 1 := by
  rw [ahead]
  split <;> decide

theorem Station.countP_holding?_add_ahead_le {C : Type} (s : Station C) :
    s.holding?.toList.countP Holding.isAccept + s.ahead .call ≤ 1 := by
  cases s with
  | offering event | reserving event | admitting event => cases h : event.isOk <;> simp [h]
  | _ => simp

/-- Whether a loop has a place in the channel and sends its event without another look for a
    receiver. -/
def Station.isAdmitting {C : Type} : Station C → Bool
  | .admitting _ _ => true
  | _ => false

namespace Endpoint

variable {C : Type}

/-- Whether the loop is about to send, between two awaits. -/
def isAdmitting (e : Endpoint C) : Bool := e.loop.any (·.station.isAdmitting)

/-- Nobody can receive, and the loop does not believe otherwise. -/
structure Deserted (e : Endpoint C) : Prop where
  loop : e.loop.isSome = true
  station : ∀ l ∈ e.loop, l.station.isAdmitting = false
  gone : ∀ ch ∈ e.channel, ch.custody = .dropped

/-- How much of a leak is still ahead. -/
def ahead (e : Endpoint C) (k : Leak) : Nat := e.loop.elim 0 (·.station.ahead k)

theorem ahead_of_loop {e : Endpoint C} {l : AcceptLoop C} (hl : e.loop = some l) (k : Leak) :
    e.ahead k = l.station.ahead k := by rw [ahead, hl]; rfl

theorem Deserted.receiverGone {e : Endpoint C} (h : e.Deserted) : e.receiverGone = true := by
  rw [Endpoint.receiverGone]
  cases hch : e.channel with
  | none => rfl
  | some ch => simp [Channel.abandoned, h.gone ch hch]

theorem ahead_le_one (e : Endpoint C) (k : Leak) : e.ahead k ≤ 1 := by
  cases hl : e.loop with
  | none => rw [ahead, hl]; exact Nat.zero_le _
  | some l => rw [ahead_of_loop hl]; exact l.station.ahead_le_one k

/-- A loop that can still begin an accept has none in hand. -/
theorem countP_holding?_add_ahead_le (e : Endpoint C) :
    e.holding?.toList.countP Holding.isAccept + e.ahead .call ≤ 1 := by
  cases hl : e.loop with
  | none => rw [holding?, ahead, hl]; exact Nat.zero_le _
  | some l =>
    rw [holding?_of_loop hl, ahead_of_loop hl]
    exact l.station.countP_holding?_add_ahead_le

theorem ahead_of_awaitsAccept {e : Endpoint C} (h : e.awaitsAccept = true) : e.ahead .call = 0 := by
  rw [awaitsAccept] at h
  split at h
  · next hl => rw [ahead_of_loop hl]; rfl
  · cases h

/-- An event that waits for room is all that the loop still has to do. -/
theorem ahead_of_waitsForRoom {e : Endpoint C} (h : e.waitsForRoom = true) :
    e.ahead .call = 0 ∧ e.ahead .answer = 0 := by
  rw [waitsForRoom] at h
  split at h
  · next hl => rw [ahead_of_loop hl, ahead_of_loop hl]; exact ⟨rfl, rfl⟩
  · cases h

theorem ahead_of_outcome {e : Endpoint C}
    (h : (e.loop.bind (·.station.outcome?)).isSome = true) : e.ahead .answer = 0 := by
  cases hl : e.loop with
  | none => rw [ahead, hl]; rfl
  | some l =>
    rw [hl] at h
    rw [ahead_of_loop hl]
    cases hs : l.station with
    | settling => rfl
    | _ => simp [hs, Station.outcome?] at h

/-- Dropping the receiving end deserts the endpoint. -/
theorem deserted_dropReceiver {e : Endpoint C} (hs : e.Sound) (ht : e.receiverTaken = true)
    (hnot : e.isAdmitting = false) : e.dropReceiver.Deserted := by
  constructor
  case loop =>
    rw [receiverTaken] at ht
    cases hch : e.channel with
    | none => rw [hch] at ht; cases ht
    | some ch =>
      have hchannel := hs.channel
      rw [hch] at hchannel
      exact hchannel.symm
  case station =>
    intro l hl
    have hloop : e.loop = some l := hl
    rw [isAdmitting, hloop] at hnot
    exact hnot
  case gone =>
    intro ch hch
    obtain ⟨ch', -, rfl⟩ := Option.map_eq_some_iff.mp hch
    rfl

/-- What can happen while a deserted endpoint `e` becomes `f`, and its loop does `os`, has these
    answers and takes note of these outcomes. Only delays can still follow one another, as long as
    there are more connections than the backlog. -/
structure Waning (e f : Endpoint C) (os : List (Occurrence C))
    (answers outcomes : List (Except Failure C)) : Prop where
  deserted : f.Deserted
  sent : os.filterMap Occurrence.sent? = []
  count : f.count.toNat ≤ e.count.toNat
  leaks : ∀ k : Leak, k ≠ .pause → k.count os answers outcomes + f.ahead k ≤ e.ahead k

namespace Waning

variable {e f g : Endpoint C} {os os' : List (Occurrence C)}
  {as as' outs outs' : List (Except Failure C)}

theorem refl (h : e.Deserted) : Waning e e [] [] [] where
  deserted := h
  sent := rfl
  count := Nat.le_refl _
  leaks k _ := by cases k <;> simp [Leak.count]

theorem trans (h : Waning e f os as outs) (h' : Waning f g os' as' outs') :
    Waning e g (os ++ os') (as ++ as') (outs ++ outs') where
  deserted := h'.deserted
  sent := by rw [List.filterMap_append, h.sent, h'.sent]; rfl
  count := Nat.le_trans h'.count h.count
  leaks := by
    intro k hk
    have hfirst := h.leaks k hk
    have hthen := h'.leaks k hk
    rw [Leak.count_append]
    omega

/-- What has happened was ahead. -/
theorem count_le (h : Waning e f os as outs) {k : Leak} (hk : k ≠ .pause) :
    k.count os as outs ≤ e.ahead k :=
  Nat.le_of_add_right_le (h.leaks k hk)

/-- The loop does nothing. -/
theorem keep (hf : f.Deserted) (hl : f.loop = e.loop) (hos : ∀ o ∈ os, o.byLoop = false)
    (hc : f.count.toNat ≤ e.count.toNat) : Waning e f os [] [] where
  deserted := hf
  sent := Occurrence.filterMap_sent?_eq_nil hos
  count := hc
  leaks := by
    intro k hk
    have hcalls : os.countP Occurrence.isAcceptCall = 0 :=
      Occurrence.countP_isAcceptCall_eq_zero hos
    rw [ahead, ahead, hl]
    cases k with
    | pause => exact absurd rfl hk
    | call | answer | outcome => simp [Leak.count, hcalls]

/-- The loop goes on to another station. -/
theorem goOn {l : AcceptLoop C} {s s' : Station C} (hl : e.loop = some l)
    (hs : l.station = s) (hf : f.loop = some { l with station := s' })
    (hadmitting : s'.isAdmitting = false) (hgone : ∀ ch ∈ f.channel, ch.custody = .dropped)
    (hc : f.count.toNat ≤ e.count.toNat)
    (hsent : os.filterMap Occurrence.sent? = [])
    (hahead : os.countP Occurrence.isAcceptCall + s'.ahead .call ≤ s.ahead .call ∧
      as.length + s'.ahead .answer ≤ s.ahead .answer ∧
      outs.length + s'.ahead .outcome ≤ s.ahead .outcome) :
    Waning e f os as outs where
  deserted := by
    refine ⟨by rw [hf]; rfl, ?_, hgone⟩
    intro m hm
    rw [hf] at hm
    cases hm
    exact hadmitting
  sent := hsent
  count := hc
  leaks := by
    intro k hk
    obtain ⟨hcall, hanswer, houtcome⟩ := hahead
    rw [ahead_of_loop hf, ahead_of_loop hl, hs]
    cases k with
    | pause => exact absurd rfl hk
    | call => exact hcall
    | answer => exact hanswer
    | outcome => exact houtcome

end Waning

section Moves

variable [Located C] {e f : Endpoint C} {m : Move C} {os : List (Occurrence C)}

/-- Nobody gives a receiving end back, and no other channel is made. -/
theorem Change.gone (h : Change e m f os) (hs : e.Sound) (he : e.Deserted) :
    ∀ ch ∈ f.channel, ch.custody = .dropped := by
  intro ch' hch'
  rcases h.custody ch' hch' with ⟨hc, inRuntime, requested, answer, -, hok⟩ | ⟨ch, hch, hcustody⟩
  · obtain ⟨-, hn, -⟩ := listen_of_ok hok
    have hloop := he.loop
    rw [hs.loop hc, hn] at hloop
    cases hloop
  · have hgone := he.gone ch hch
    rcases hcustody with hsame | hdropped | ⟨hstored, -⟩
    · rw [hsame, hgone]
    · exact hdropped
    · rw [hgone] at hstored
      cases hstored

/-- A deserted loop gets no further than to the event that it has to report. -/
theorem Piece.waning {l : AcceptLoop C} {s : Station C} (hp : Piece e l s f os)
    (hl : e.loop = some l) (hs : l.station = s) (he : e.Deserted)
    (hgone : ∀ ch ∈ f.channel, ch.custody = .dropped) :
    Waning e f os [] s.outcome?.toList := by
  have hadmitting := he.station l hl
  rw [hs] at hadmitting
  cases hp with
  | await | rest => exact .refl he
  | reserve hg => rw [he.receiverGone] at hg; cases hg
  | enter | send => cases hadmitting
  | leave hleaves =>
    refine .goOn hl hs rfl rfl hgone (Nat.le_refl _) rfl ?_
    cases s with
    | cycling | offering | receding | napping | waking => simp [Station.outcome?]
    | _ => cases hleaves
  | discard hdiscards =>
    refine .goOn hl hs rfl rfl hgone (Nat.le_refl _) rfl ?_
    cases s with
    | settling => simp [Station.outcome?]
    | admitting => cases hadmitting
    | _ => cases hdiscards
  | _ =>
    refine .goOn hl hs rfl rfl hgone (Nat.le_refl _) rfl ?_
    simp [Station.outcome?]

/-- No move brings a deserted loop any further. -/
theorem Change.waning (h : Change e m f os) (hs : e.Sound) (he : e.Deserted) :
    Waning e f os (e.answers f m) (e.outcomes m) := by
  have hgone : ∀ ch ∈ f.channel, ch.custody = .dropped := h.gone hs he
  have hkeep (hos : ∀ o ∈ os, o.byLoop = false) (hl : f.loop = e.loop)
      (hcount : f.count.toNat ≤ e.count.toNat) (hm : e.answers f m = [] ∧ e.outcomes m = []) :
      Waning e f os (e.answers f m) (e.outcomes m) := by
    have hf : f.Deserted := ⟨by rw [hl]; exact he.loop, by rw [hl]; exact he.station, hgone⟩
    rw [hm.1, hm.2]
    exact .keep hf hl hos hcount
  cases h with
  | aside hm hb hos =>
    have hcount : f.count = e.count := by rw [count, hb.occupancy, count]
    exact hkeep (Occurrence.byLoop_of_not_onAcceptPath hos) hb.loop
      (Nat.le_of_eq (congrArg _ hcount)) (answers_of_not_onLoop (.inl hm))
  | receiving hm hos => exact hkeep hos rfl (Nat.le_refl _) (answers_of_not_onLoop (.inr hm))
  | refusal _ hos =>
    exact hkeep (Occurrence.byLoop_of_not_onAcceptPath hos) rfl (Nat.le_refl _) ⟨rfl, rfl⟩
  | opening _ hc hn =>
    have hloop := he.loop
    rw [hs.loop hc, hn] at hloop
    cases hloop
  | release =>
    refine hkeep (List.forall_mem_nil _) rfl ?_ ⟨rfl, rfl⟩
    change (Size.down e.count).toNat ≤ _
    rw [Size.toNat_down]
    exact Nat.sub_le ..
  | closing _ hos =>
    exact hkeep (Occurrence.byLoop_of_not_onAcceptPath hos) rfl (Nat.zero_le _) ⟨rfl, rfl⟩
  | piece hl hst hp =>
    have houts : e.outcomes .work = _ := outcomes_of_loop hl hst
    rw [houts]
    exact hp.waning hl hst he hgone
  | noLoop hl =>
    have hloop := he.loop
    rw [hl] at hloop
    cases hloop
  | @answered l outcome hl hst =>
    have hans : e.answers (e.moveTo l (.settling outcome)) (.acceptEnds outcome) = [outcome] := by
      obtain ⟨b, s⟩ := l
      cases hst
      simp [answers, awaitsAccept, hl, moveTo]
    rw [hans]
    refine .goOn hl hst rfl rfl hgone (Nat.le_refl _) rfl ?_
    simp [outcomes, Scene.takes]
  | rung hl hst =>
    refine .goOn hl hst rfl rfl hgone (Nat.le_refl _) rfl ?_
    simp [answers, outcomes, Scene.takes]
  | unawaited => exact hkeep (List.forall_mem_nil _) rfl (Nat.le_refl _) ⟨by simp [answers], rfl⟩
  | _ => exact hkeep (List.forall_mem_nil _) rfl (Nat.le_refl _) ⟨rfl, rfl⟩

end Moves

/-- A failure is that of an accept that was in hand or still ahead, and there is one of these. -/
theorem increments_acceptFailures_le_one {e f : Endpoint C} {os : List (Occurrence C)}
    {answers outcomes : List (Except Failure C)} {ws : List (Holding C)}
    (hb : Books e f os ws) (hw : Waning e f os answers outcomes) :
    Counter.acceptFailures.increments os ≤ 1 := by
  have haccepts := hb.accepts
  have hcalls : os.countP Occurrence.isAcceptCall ≤ e.ahead .call :=
    hw.count_le (k := .call) (by decide)
  have hone := e.countP_holding?_add_ahead_le
  omega

/-- A deserted loop that has its event, or nothing more to do, can only wait for its end. -/
theorem Deserted.loopEnded {e : Endpoint C} (h : e.Deserted) (hahead : e.ahead .answer = 0)
    (hw : e.waits = true) : e.loopEnded = true := by
  obtain ⟨⟨b, s⟩, hl⟩ := Option.isSome_iff_exists.mp h.loop
  rw [ahead_of_loop hl] at hahead
  simp only [waits, awaitsAccept, waitsForRoom, napDelay?, Endpoint.loopEnded, hl,
    h.receiverGone] at hw ⊢
  cases s with
  | stopped => rfl
  | accepting | napping => simp at hahead
  | _ => simp at hw

end Endpoint

namespace Scene

variable {C : Type} [Located C]

open Endpoint (Deserted Waning)

/-- The answers that the accepts of a run have had. -/
def answers (s : Scene C) (ms : List (Move C)) : List (Except Failure C) :=
  gather next (fun s m => s.endpoint.answers (s.next m).endpoint m) s ms

omit [Located C] in
theorem outcomes_eq_takes (s : Scene C) (m : Move C) : s.endpoint.outcomes m = s.takes m := by
  cases m <;> rfl

/-- From where an endpoint is deserted, its loop only wanes, whatever a run does. -/
theorem waning_after (s : Scene C) (ms : List (Move C)) (hs : s.endpoint.Sound)
    (hd : s.endpoint.Deserted) :
    Waning s.endpoint (s.after ms).endpoint (s.history ms) (s.answers ms)
      (gather next takes s ms) := by
  induction ms generalizing s with
  | nil => exact .refl hd
  | cons m ms ih =>
    have hm := (s.change_step m).waning hs hd
    rw [outcomes_eq_takes] at hm
    exact hm.trans (ih (s.next m) (s.sound_next m hs) hm.deserted)

/-- So it does in every run that begins where the consumer drops the receiving end. -/
theorem waning_after_dropReceiver (s : Scene C) (ms : List (Move C)) (hs : s.endpoint.Sound)
    (ht : s.endpoint.receiverTaken = true) (hnot : s.endpoint.isAdmitting = false) :
    Waning s.endpoint (s.after (.dropReceiver :: ms)).endpoint
      (s.history (.dropReceiver :: ms)) (s.answers (.dropReceiver :: ms))
      (gather next takes s (.dropReceiver :: ms)) := by
  have hd : s.endpoint.dropReceiver.Deserted := Endpoint.deserted_dropReceiver hs ht hnot
  have hnext : (s.next .dropReceiver).endpoint = s.endpoint.dropReceiver := by
    rw [next, step, put, if_pos ht]
  have hdrop : Waning s.endpoint (s.next .dropReceiver).endpoint [] [] [] := by
    rw [hnext]
    exact .keep hd rfl (List.forall_mem_nil _) (Nat.le_refl _)
  exact hdrop.trans ((s.next .dropReceiver).waning_after ms (s.sound_next _ hs) hdrop.deserted)

/-- Once the loop waits again, the answers it has had in the meantime are no longer ahead. -/
theorem length_answers_add_ahead_run_le (s : Scene C) (ms : List (Move C))
    (hs : s.endpoint.Sound) (ht : s.endpoint.receiverTaken = true)
    (hnot : s.endpoint.isAdmitting = false) :
    let drop := Move.dropReceiver :: ms
    let f := (s.after drop).endpoint
    f.run.1.Deserted ∧ f.run.1.waits = true ∧
      (s.answers drop).length + f.run.1.ahead .answer ≤ s.endpoint.ahead .answer := by
  intro drop f
  obtain ⟨n, hrun, -, hwaits⟩ := (s.after drop).exists_after_eq_run
  have hwaning := s.waning_after_dropReceiver (ms ++ List.replicate n .work) hs ht hnot
  rw [← List.cons_append, Runs.append after, hrun] at hwaning
  refine ⟨hwaning.deserted, hwaits, ?_⟩
  have hall : (s.answers (drop ++ List.replicate n .work)).length + f.run.1.ahead .answer ≤
      s.endpoint.ahead .answer := hwaning.leaks .answer (by decide)
  rw [answers, gather_append after, List.length_append] at hall
  exact Nat.le_trans (Nat.add_le_add_right (Nat.le_add_right ..) _) hall

/-- An ended loop has ended for good. -/
theorem loopEnded_after (s : Scene C) (ms : List (Move C)) (hs : s.endpoint.Sound)
    (h : s.endpoint.loopEnded = true) : (s.after ms).endpoint.loopEnded = true := by
  induction ms generalizing s with
  | nil => exact h
  | cons m ms ih =>
    have hnext := ((s.change_step m).loopEnded_iff hs).mpr (.inl h)
    exact ih (s.next m) (s.sound_next m hs) hnext

/-- A lost receiver stops the loop without a trace. Let the consumer drop the receiving end that it
    has taken, wherever the loop stands, if only it is not, between two awaits, about to send. From
    then on, no event is sent, the counter of accepts stays as it is and the count of connections
    does not grow. At most one accept begins, and none if one was pending or an event waited for
    room; at most one outcome is taken note of and at most one failure is counted. Once an accept
    has been answered, or at once if an event waited for room or an answer had not been taken note
    of, the loop ends as soon as it has run, and it has ended for good. -/
theorem lost_receiver_leaves_no_trace (role : Role) (ipc : Bool) (config : Config)
    (before after : List (Move C)) :
    let s := (start role ipc config).after before
    let drop := Move.dropReceiver :: after
    let e := s.endpoint
    let f := (s.after drop).endpoint
    e.receiverTaken = true → e.isAdmitting = false →
      s.sent drop = [] ∧ f.tally.get .accepted = e.tally.get .accepted ∧
      f.count ≤ e.count ∧ (∀ m, (s.after (drop ++ [m])).endpoint.count ≤ f.count) ∧
      (s.history drop).countP Occurrence.isAcceptCall ≤
        (if e.awaitsAccept || e.waitsForRoom then 0 else 1) ∧
      (gather next takes s drop).length ≤ 1 ∧
      (f.tally.get .acceptFailures = e.tally.get .acceptFailures ∨
        f.tally.get .acceptFailures = e.tally.get .acceptFailures + 1) ∧
      (e.waitsForRoom = true ∨ (e.loop.bind (·.station.outcome?)).isSome = true ∨
        s.answers drop ≠ [] → f.run.1.loopEnded = true) ∧
      (f.loopEnded = true → ∀ ms, (s.after (drop ++ ms)).endpoint.loopEnded = true) := by
  intro s drop e f ht hnot
  have hs : e.Sound := sound_after role ipc config before
  have hf : f.Sound := by
    have hsound := sound_after role ipc config (before ++ drop)
    rwa [Runs.append Scene.after] at hsound
  have hwaning : Waning e f (s.history drop) (s.answers drop) (gather next takes s drop) :=
    s.waning_after_dropReceiver after hs ht hnot
  have hbooks : Endpoint.Books e f (s.history drop) (s.wasted drop) :=
    s.books_after drop hs (matched_after role ipc config before)
  refine ⟨?sent, ?accepted, ?count, ?later, ?calls, ?takes, ?failures, ?ended, ?forGood⟩
  case sent => exact hwaning.sent
  case accepted =>
    rw [hbooks.tally .accepted (by decide) (by decide), hbooks.sent, hwaning.sent]
    exact UInt64.add_zero _
  case count => exact UInt64.le_iff_toNat_le.mpr hwaning.count
  case later =>
    intro m
    rw [Runs.concat Scene.after]
    have hm := ((s.after drop).change_step m).waning hf hwaning.deserted
    exact UInt64.le_iff_toNat_le.mpr hm.count
  case calls =>
    have hcalls : (s.history drop).countP Occurrence.isAcceptCall ≤ e.ahead .call :=
      hwaning.count_le (k := .call) (by decide)
    refine Nat.le_trans hcalls ?_
    split
    · next hbusy =>
      rcases Bool.or_eq_true_iff.mp hbusy with hawaits | hroom
      · exact Nat.le_of_eq (Endpoint.ahead_of_awaitsAccept hawaits)
      · exact Nat.le_of_eq (Endpoint.ahead_of_waitsForRoom hroom).1
    · exact e.ahead_le_one .call
  case takes =>
    have htakes : (gather next takes s drop).length ≤ e.ahead .outcome :=
      hwaning.count_le (k := .outcome) (by decide)
    exact Nat.le_trans htakes (e.ahead_le_one .outcome)
  case failures =>
    have hle := Endpoint.increments_acceptFailures_le_one hbooks hwaning
    rw [hbooks.tally .acceptFailures (by decide) (by decide)]
    rcases Nat.le_one_iff_eq_zero_or_eq_one.mp hle with h | h
    · rw [h]
      exact .inl (UInt64.add_zero _)
    · rw [h]
      exact .inr rfl
  case ended =>
    intro hhand
    obtain ⟨hdeserted, hwaits, hanswers⟩ : f.run.1.Deserted ∧ f.run.1.waits = true ∧
        (s.answers drop).length + f.run.1.ahead .answer ≤ e.ahead .answer :=
      s.length_answers_add_ahead_run_le after hs ht hnot
    have hnone : f.run.1.ahead .answer = 0 := by
      rcases hhand with hroom | houtcome | hanswered
      · have hbefore : e.ahead .answer = 0 := (Endpoint.ahead_of_waitsForRoom hroom).2
        omega
      · have hbefore : e.ahead .answer = 0 := Endpoint.ahead_of_outcome houtcome
        omega
      · have hbefore : e.ahead .answer ≤ 1 := e.ahead_le_one .answer
        have hsome : 0 < (s.answers drop).length := List.length_pos_iff.mpr hanswered
        omega
    exact hdeserted.loopEnded hnone hwaits
  case forGood =>
    intro hended ms
    rw [Runs.append Scene.after]
    exact (s.after drop).loopEnded_after ms hf hended

/-- An accept fails, and the loop waits out the delay. -/
def upToNap : List (Move Link) :=
  [.bind "a", .listen true 1 (.ok "a"), .takeReceiver, .work, .work, .work,
    .acceptEnds (.error (.io ⟨.addrInUse, "in use"⟩)), .work, .work, .work, .work, .work, .work]

/-- The delay ends, and the next accept brings a connection. -/
def pastNap : List (Move Link) :=
  [.delayEnds, .work, .work, .work, .work, .work, .acceptEnds (.ok ⟨0, none⟩)]

theorem lost_receiver_leaves_no_trace_of_upToNap :
    let s : Scene Link := (start .server false fixedBacklog).after upToNap
    s.endpoint.receiverTaken = true ∧ s.endpoint.isAdmitting = false ∧
      s.endpoint.napDelay?.isSome = true ∧
      (s.history (.dropReceiver :: pastNap)).countP Occurrence.isAcceptCall = 1 ∧
      s.sent (.dropReceiver :: pastNap) = [] ∧
      (s.after (.dropReceiver :: pastNap)).endpoint.run.1.loopEnded = true := by
  dsimp only
  have hlaw := lost_receiver_leaves_no_trace .server false fixedBacklog upToNap pastNap
    (by decide) (by decide)
  obtain ⟨hsent, -, -, -, -, -, -, hended, -⟩ := hlaw
  refine ⟨by decide, by decide, by decide, by decide, hsent, ?_⟩
  exact hended (.inr (.inr (by decide)))

end Scene

end LocalEndpoint
