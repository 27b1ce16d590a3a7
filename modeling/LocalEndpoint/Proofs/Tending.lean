import LocalEndpoint.Proofs.Containment
import LocalEndpoint.Proofs.Pace
import LocalEndpoint.Proofs.Scene.Dispatched

/-! Tending the receiving end. A dispatcher has it to itself until its task ends
    (`Change.custody?_eq`), so what it receives is the channel's content in order, whatever others
    do before, between and after its steps (`Tended.after`). -/

namespace LocalEndpoint

namespace Dispatched

variable {C : Type} [Located C]

/-- The events sent and received in a run. -/
def sent (timer : Timer) (d : Dispatched C) (acts : List (Act C)) : List (Event C) :=
  (d.history timer acts).filterMap Occurrence.sent?

def received (timer : Timer) (d : Dispatched C) (acts : List (Act C)) : List (Event C) :=
  (d.history timer acts).filterMap Occurrence.received?

theorem sent_cons (timer : Timer) (d : Dispatched C) (a : Act C) (acts : List (Act C)) :
    d.sent timer (a :: acts) =
      (d.occurs timer a).filterMap Occurrence.sent? ++ (d.next timer a).sent timer acts :=
  List.filterMap_append

theorem received_cons (timer : Timer) (d : Dispatched C) (a : Act C) (acts : List (Act C)) :
    d.received timer (a :: acts) =
      (d.occurs timer a).filterMap Occurrence.received? ++ (d.next timer a).received timer acts :=
  List.filterMap_append

end Dispatched

theorem Move.eq_takeReceiver {C : Type} (m : Move C) (hr : m.receives = true)
    (hm : m.consumes = false) : m = .takeReceiver := by
  cases m with
  | takeReceiver => rfl
  | poll | dropReceiver => cases hm
  | _ => cases hr

/-! ### What others do -/

namespace Endpoint

variable {C : Type} {e : Endpoint C}

theorem custody?_eq_some_iff {custody : Custody} :
    e.custody? = some custody ↔ ∃ ch, e.channel = some ch ∧ ch.custody = custody :=
  Option.map_eq_some_iff

theorem receiverGone_of_custody? (h : e.custody? = some .dropped) : e.receiverGone = true := by
  obtain ⟨ch, hch, hdropped⟩ := custody?_eq_some_iff.mp h
  simp [receiverGone, hch, Channel.abandoned, hdropped]

theorem custody?_onChannel (e : Endpoint C) {g : Channel (Event C) → Channel (Event C)}
    (hg : ∀ ch, (g ch).custody = ch.custody) : (e.onChannel g).custody? = e.custody? := by
  simp [custody?, onChannel, Function.comp_def, hg]

variable [Located C] {f : Endpoint C} {m : Move C} {os : List (Occurrence C)}

/-- Nobody else takes the receiving end away from who has it, and nobody brings it back. -/
theorem Change.custody?_eq (h : Change e m f os) (hs : e.Sound) (hm : m.consumes = false)
    {custody : Custody} (ht : e.custody? = some custody) (hout : custody ≠ .stored) :
    f.custody? = some custody := by
  rcases custody?_eq_some_iff.mp ht with ⟨ch, hch, hcustody⟩
  have hnot : ch.custody ≠ .stored := hcustody ▸ hout
  cases h with
  | aside _ hb => rwa [custody?, hb.channel]
  | receiving hr _ _ hchannel =>
    cases hchannel with
    | asked =>
      have hsame : e.takeReceiver = (e, false) := by simp [takeReceiver, hch, hnot]
      rw [hsame]
      exact ht
    | looked => cases hm
    | untouched => exact ht
    | dropped hne => exact absurd (m.eq_takeReceiver hr hm) hne
  | opening _ hc hl =>
    have hloop := hs.channel.trans ((hs.loop hc).trans hl)
    rw [hch] at hloop
    cases hloop
  | closing =>
    have hkept : e.shut.channel = some ch := by simp [shut, hch, hnot]
    exact custody?_eq_some_iff.mpr ⟨ch, hkept, hcustody⟩
  | piece _ _ hp =>
    cases hp with
    | enter | send | stop =>
      rw [← ht]
      exact custody?_onChannel e fun _ => rfl
    | _ => exact ht
  | _ => exact ht

end Endpoint

namespace Scene

variable {C : Type} [Located C]

/-- Nothing reaches a consumer who does not look. -/
theorem reachesConsumer_step (s : Scene C) {m : Move C} (hm : m.consumes = false) :
    ∀ o ∈ (s.step m).2, o.reachesConsumer = false := by
  intro o ho
  have hc := s.change_step m
  generalize (s.next m).endpoint = f, hos : (s.step m).2 = os at hc ho
  cases hc with
  | aside _ _ hq | refusal _ hq | opening _ _ _ hq | closing _ hq =>
    exact (Occurrence.not_onAcceptPath (hq o ho)).2
  | receiving hr =>
    cases m with
    | takeReceiver =>
      rw [← hos] at ho
      cases ho
    | poll | dropReceiver => cases hm
    | _ => cases hr
  | piece _ _ hp =>
    have hloop := hp.byLoop o ho
    cases o <;> first | rfl | cases hloop
  | _ => cases ho

end Scene

namespace Clocked

variable {C : Type} [Located C]

/-- In a tick the scene makes a move, or none. -/
theorem tick_cases (timer : Timer) (c : Clocked C) (k : Tick C) :
    ((c.next timer k).scene = c.scene ∧ c.occurs k = []) ∨
      ∃ m, k = .move m ∧ (c.next timer k).scene = c.scene.next m ∧
        c.occurs k = (c.scene.step m).2 := by
  cases k with
  | move m =>
    rw [next, step, occurs]
    split
    · exact .inr ⟨m, rfl, rfl, rfl⟩
    · exact .inl ⟨rfl, rfl⟩
  | pass span =>
    rw [next, step]
    split <;> exact .inl ⟨rfl, rfl⟩

end Clocked

/-! ### What the dispatcher does -/

namespace Endpoint

variable {C : Type} {e : Endpoint C}

theorem custody?_dropReceiver (h : e.custody?.isSome = true) :
    e.dropReceiver.custody? = some .dropped := by
  obtain ⟨custody, hcustody⟩ := Option.isSome_iff_exists.mp h
  obtain ⟨ch, hch, -⟩ := custody?_eq_some_iff.mp hcustody
  simp [custody?, dropReceiver, onChannel, hch, Channel.abandon]

theorem Supplied.poll [Located C] (h : e.Supplied) : e.poll.2.Supplied := by
  have hc : Change e (.poll .direct) { e with channel := e.poll.2.channel } [] :=
    .receiving rfl (List.forall_mem_nil _) (fun _ => List.forall_mem_nil _) .looked
  rw [Errand.poll_snd]
  exact hc.supplied h

/-- What a look finds is the oldest event sent and not received. -/
theorem Delivered.poll {settled sent received : List (Event C)} {event : Event C}
    (h : e.Delivered settled sent received) (ht : e.receiverTaken = true)
    (hfound : e.poll.1 = .item event) :
    e.poll.2.Delivered settled sent (received ++ [event]) := by
  rcases receiverTaken_iff.mp ht with ⟨ch, hch, htaken⟩
  have hfound' : ch.receive.1 = .item event := by simpa [Endpoint.poll, hch] using hfound
  obtain ⟨hlist, -⟩ := Channel.toList_of_receive (Prod.ext hfound' rfl)
  have hsent := h.inChannel ch hch (by simp [htaken])
  rw [hlist, List.append_cons] at hsent
  rw [Endpoint.poll, hch]
  refine ⟨h.fresh, h.inHand, ⟨_, hsent.symm⟩, ?_⟩
  intro ch' hch' _
  cases hch'
  exact hsent

theorem poll_snd_of_ne_item (h : ∀ event, e.poll.1 ≠ .item event) : e.poll.2 = e := by
  rw [poll] at h ⊢
  split
  · next ch hch =>
    have hsame : ch.receive.2 = ch := by
      refine Channel.receive_eq_self ?_
      intro event
      simpa [hch] using h event
    rw [hsame, ← hch]
  · rfl

end Endpoint

/-- What holds of a dispatched scene at every moment: it is sound, the dispatcher has the receiving
    end until its task ends, receiving has not ended before the close, and what was sent and what
    was received agree with the channel. -/
structure Dispatched.Tended {C : Type} (d : Dispatched C) (sent received : List (Event C)) :
    Prop where
  sound : d.endpoint.Sound
  supplied : d.endpoint.Supplied
  delivered : ∃ settled, d.endpoint.Delivered settled sent received
  custody : d.endpoint.custody? = some (if d.dispatcher.hasEnded then .dropped else .taken)
  closed : d.dispatcher.leaves = true → d.endpoint.isClosed = true

namespace Dispatched

variable {C : Type} [Located C] {d : Dispatched C} {sent received : List (Event C)}

namespace Tended

/-- Nobody else disturbs the dispatcher. -/
theorem tick (timer : Timer) (h : d.Tended sent received) {k : Tick C} (hk : k.consumes = false) :
    ({ d with clocked := d.clocked.next timer k } : Dispatched C).Tended
      (sent ++ (d.clocked.occurs k).filterMap Occurrence.sent?) received := by
  rcases d.clocked.tick_cases timer k with ⟨hscene, hos⟩ | ⟨m, rfl, hscene, hos⟩
  · rw [hos, List.filterMap_nil, List.append_nil]
    obtain ⟨hs, hsupplied, hd, hcustody, hc⟩ := h
    rw [endpoint, ← hscene] at *
    exact ⟨hs, hsupplied, hd, hcustody, hc⟩
  · have hchange := d.clocked.scene.change_step m
    obtain ⟨settled, hdelivered⟩ := h.delivered
    have hnone : (d.clocked.scene.step m).2.filterMap Occurrence.received? = [] :=
      Occurrence.filterMap_received?_eq_nil (d.clocked.scene.reachesConsumer_step hk)
    have hd := Scene.delivered_next h.sound hdelivered m
    rw [hnone, List.append_nil] at hd
    rw [hos]
    refine ⟨?_, ?_, ?_, ?_, ?_⟩
    · rw [endpoint, hscene]
      exact d.clocked.scene.sound_next m h.sound
    · rw [endpoint, hscene]
      exact hchange.supplied h.supplied
    · rw [endpoint, hscene]
      exact ⟨_, hd⟩
    · rw [endpoint, hscene]
      refine hchange.custody?_eq h.sound hk h.custody ?_
      cases d.dispatcher.hasEnded <;> decide
    · intro hleaves
      rw [endpoint, hscene]
      exact hchange.isClosed (h.closed hleaves)

omit [Located C] in
/-- Until its task ends, the dispatcher has the receiving end. -/
theorem taken (h : d.Tended sent received) (hstill : d.dispatcher.hasEnded = false) :
    d.endpoint.custody? = some .taken := by
  rw [h.custody, hstill]
  rfl

omit [Located C] in
/-- The dispatcher goes on and leaves the endpoint alone. -/
theorem goOn (h : d.Tended sent received) (hstill : d.dispatcher.hasEnded = false)
    {point : Dispatcher C} (hgoes : point.hasEnded = false)
    (hclosed : point.leaves = true → d.endpoint.isClosed = true) :
    (⟨d.put d.endpoint, point⟩ : Dispatched C).Tended sent received where
  sound := h.sound
  supplied := h.supplied
  delivered := h.delivered
  custody := by
    rw [hgoes]
    exact h.taken hstill
  closed := hclosed

/-- The dispatcher finds an event. -/
theorem poll (h : d.Tended sent received) (ht : d.endpoint.custody? = some .taken)
    {event : Event C} (hfound : d.endpoint.poll.1 = .item event) :
    (⟨d.put d.endpoint.poll.2, .holding event⟩ : Dispatched C).Tended sent
      (received ++ [event]) := by
  obtain ⟨settled, hdelivered⟩ := h.delivered
  have htaken := Endpoint.receiverTaken_iff_custody?.mpr ht
  refine ⟨h.sound.poll, h.supplied.poll, ⟨settled, hdelivered.poll htaken hfound⟩, ?_, ?_⟩
  · exact d.endpoint.custody?_poll.trans ht
  · intro hleaves
    cases hleaves

omit [Located C] in
/-- The task lets go of the receiving end and has ended. -/
theorem letGo (h : d.Tended sent received) {point : Dispatcher C} (hends : point.hasEnded = true)
    (hclosed : point.leaves = true → d.endpoint.isClosed = true) :
    (⟨d.put d.endpoint.dropReceiver, point⟩ : Dispatched C).Tended sent received := by
  obtain ⟨settled, hdelivered⟩ := h.delivered
  have hgone : d.endpoint.dropReceiver.custody? = some .dropped := by
    refine Endpoint.custody?_dropReceiver ?_
    rw [h.custody]
    rfl
  refine ⟨h.sound.dropReceiver, ?_, ⟨settled, hdelivered.dropReceiver⟩, ?_, hclosed⟩
  · intro _ ch hch hnot
    obtain ⟨ch', hch', hdropped⟩ := Endpoint.custody?_eq_some_iff.mp hgone
    have hsame : ch' = ch := Option.some.inj (hch'.symm.trans hch)
    exact absurd (hsame ▸ hdropped) hnot
  · rw [hends]
    exact hgone

/-- The dispatcher takes a step. -/
theorem dispatch (h : d.Tended sent received) (panics : Option Panic) :
    (⟨d.put (d.dispatcher.step d.endpoint panics).1,
        (d.dispatcher.step d.endpoint panics).2.1⟩ : Dispatched C).Tended sent
      (received ++
        (d.dispatcher.step d.endpoint panics).2.2.filterMap Occurrence.received?) := by
  cases hat : d.dispatcher with
  | receiving | looking =>
    have hstill : d.dispatcher.hasEnded = false := by rw [hat]; rfl
    simp only [Dispatcher.step, List.filterMap_nil, List.append_nil]
    cases hc : d.endpoint.isClosed with
    | true => exact h.goOn hstill rfl fun _ => hc
    | false => exact h.goOn hstill rfl (by simp [Dispatcher.leaves])
  | polling =>
    have hstill : d.dispatcher.hasEnded = false := by rw [hat]; rfl
    have ht := h.taken hstill
    simp only [Dispatcher.step]
    cases hfound : d.endpoint.poll.1 with
    | item event => exact h.poll ht hfound
    | pending =>
      have hsame := Endpoint.poll_snd_of_ne_item (e := d.endpoint) (by simp [hfound])
      simp only [List.filterMap_nil, List.append_nil, hsame]
      exact h.goOn hstill rfl (by simp [Dispatcher.leaves])
    | ended =>
      have hsame := Endpoint.poll_snd_of_ne_item (e := d.endpoint) (by simp [hfound])
      simp only [List.filterMap_nil, List.append_nil, hsame]
      refine h.goOn hstill rfl ?_
      intro _
      cases hc : d.endpoint.isClosed with
      | true => rfl
      | false =>
        have htaken := Endpoint.receiverTaken_iff_custody?.mpr ht
        exact absurd hfound (h.supplied.poll_ne_ended hc htaken)
  | holding event =>
    have hstill : d.dispatcher.hasEnded = false := by rw [hat]; rfl
    simp only [Dispatcher.step, List.filterMap_cons, Occurrence.received?, List.filterMap_nil,
      List.append_nil]
    exact h.goOn hstill rfl (by simp [Dispatcher.leaves])
  | calling event =>
    have hstill : d.dispatcher.hasEnded = false := by rw [hat]; rfl
    simp only [Dispatcher.step]
    rw [Scene.filterMap_panicOf _ _ fun _ => rfl, List.append_nil]
    split <;> exact h.goOn hstill rfl (by simp [Dispatcher.leaves])
  | leaving =>
    simp only [Dispatcher.step, List.filterMap_cons, Occurrence.received?, List.filterMap_nil,
      List.append_nil]
    exact h.letGo rfl fun _ => h.closed (by rw [hat]; rfl)
  | unwinding =>
    simp only [Dispatcher.step, List.filterMap_nil, List.append_nil]
    exact h.letGo rfl (by simp [Dispatcher.leaves])
  | finished | failed =>
    simp only [Dispatcher.step, List.filterMap_nil, List.append_nil]
    obtain ⟨hs, hsupplied, hd, hcustody, hc⟩ := h
    rw [hat] at hcustody hc
    exact ⟨hs, hsupplied, hd, hcustody, hc⟩

end Tended

omit [Located C] in
/-- No step of the dispatcher sends an event. -/
theorem sent_dispatch (point : Dispatcher C) (e : Endpoint C) (panics : Option Panic) :
    (point.step e panics).2.2.filterMap Occurrence.sent? = [] := by
  cases point with
  | polling =>
    rw [Dispatcher.step]
    split <;> rfl
  | calling => exact Scene.filterMap_panicOf _ _ fun _ => rfl
  | _ => rfl

variable (timer : Timer)

/-! ### One act -/

theorem next_of_consumes {k : Tick C} (hk : k.consumes = true) :
    d.next timer (.tick k) = d ∧ d.occurs timer (.tick k) = [] := by
  rw [next, occurs, step, if_pos hk]
  exact ⟨rfl, rfl⟩

theorem next_of_not_consumes {k : Tick C} (hk : k.consumes = false) :
    d.next timer (.tick k) = { d with clocked := d.clocked.next timer k } ∧
      d.occurs timer (.tick k) = d.clocked.occurs k := by
  rw [next, occurs, step, if_neg (by simp [hk])]
  exact ⟨rfl, rfl⟩

/-- A tick leaves the dispatcher where it stands. -/
theorem dispatcher_tick (k : Tick C) : (d.next timer (.tick k)).dispatcher = d.dispatcher := by
  rw [next, step]
  split <;> rfl

/-- No tick gives anybody an event. -/
theorem reachesConsumer_tick (k : Tick C) :
    ∀ o ∈ d.occurs timer (.tick k), o.reachesConsumer = false := by
  cases hk : k.consumes with
  | true =>
    rw [(next_of_consumes timer hk).2]
    exact List.forall_mem_nil _
  | false =>
    rw [(next_of_not_consumes timer hk).2]
    rcases d.clocked.tick_cases timer k with ⟨-, hos⟩ | ⟨m, rfl, -, hos⟩
    · rw [hos]
      exact List.forall_mem_nil _
    · rw [hos]
      exact d.clocked.scene.reachesConsumer_step hk

theorem Tended.next (h : d.Tended sent received) (a : Act C) :
    (d.next timer a).Tended (sent ++ (d.occurs timer a).filterMap Occurrence.sent?)
      (received ++ (d.occurs timer a).filterMap Occurrence.received?) := by
  cases a with
  | tick k =>
    rw [Occurrence.filterMap_received?_eq_nil (d.reachesConsumer_tick timer k), List.append_nil]
    cases hk : k.consumes with
    | true =>
      obtain ⟨hsame, hnone⟩ := next_of_consumes timer hk (d := d)
      rwa [hsame, hnone, List.filterMap_nil, List.append_nil]
    | false =>
      obtain ⟨hnext, hos⟩ := next_of_not_consumes timer hk (d := d)
      rw [hnext, hos]
      exact h.tick timer hk
  | dispatch panics =>
    have hnext := h.dispatch panics
    rw [occurs, step, sent_dispatch, List.append_nil]
    exact hnext

/-! ### Runs -/

theorem Tended.after (h : d.Tended sent received) (acts : List (Act C)) :
    (d.after timer acts).Tended (sent ++ d.sent timer acts)
      (received ++ d.received timer acts) := by
  induction acts generalizing d sent received with
  | nil =>
    change d.Tended (sent ++ []) (received ++ [])
    rwa [List.append_nil, List.append_nil]
  | cons a acts ih =>
    rw [Runs.cons (after timer), sent_cons, received_cons, ← List.append_assoc,
      ← List.append_assoc]
    exact ih (h.next timer a)

/-- What holds at every moment holds when the dispatcher begins, whatever has happened before. -/
theorem tended_start (role : Role) (ipc : Bool) (config : Config) (before : List (Tick C))
    (ht : ((Clocked.start role ipc config : Clocked C).after timer
      before).scene.endpoint.receiverTaken = true) :
    ∃ sent received,
      (⟨(Clocked.start role ipc config).after timer before, .receiving⟩ : Dispatched C).Tended
        sent received := by
  have hsound := Clocked.sound_after timer role ipc config before
  obtain ⟨ms, hscene⟩ : ∃ ms, ((Clocked.start role ipc config).after timer before).scene =
      (Scene.start role ipc config : Scene C).after ms :=
    ⟨_, Clocked.scene_after timer _ before⟩
  have hdelivered := Scene.delivered_after (C := C) role ipc config ms
  have hsupplied := Scene.supplied_after (C := C) role ipc config ms
  rw [← hscene] at hdelivered hsupplied
  have hcustody := Endpoint.receiverTaken_iff_custody?.mp ht
  exact ⟨_, _, hsound, hsupplied, ⟨_, hdelivered⟩, hcustody, by simp [Dispatcher.leaves]⟩

omit [Located C] in
/-- As long as somebody has the receiving end, what was sent is what was received and what waits. -/
theorem Tended.sent_eq (h : d.Tended sent received) (ht : d.endpoint.receiverTaken = true) :
    sent = received ++ d.endpoint.queued := by
  obtain ⟨settled, hdelivered⟩ := h.delivered
  obtain ⟨ch, hch, htaken⟩ := Endpoint.receiverTaken_iff.mp ht
  have hsent := hdelivered.inChannel ch hch (by simp [htaken])
  rw [Endpoint.queued, hch]
  exact hsent

end Dispatched

end LocalEndpoint
