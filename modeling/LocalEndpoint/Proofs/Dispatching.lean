import LocalEndpoint.Proofs.Callbacks
import LocalEndpoint.Proofs.Tending

/-! Dispatching. The dispatcher receives the channel's content in order (`Tended`) and calls back
    for each event before it receives the next (`calledBack_after`). A panic whose payload is let go
    without another is the end of a callback like any other: the step that it ends does the same
    with and without it, but for what is logged (`Dispatcher.step_calm`), hence so does every run
    (`conduct_calm_iff`). Any other panic ends the task, and with it the receiving
    (`fails_after_iff`, `lost_after`). -/

namespace LocalEndpoint

namespace Endpoint

variable {C : Type} {e : Endpoint C}

theorem isClosed_poll (e : Endpoint C) : e.poll.2.isClosed = e.isClosed := by
  rw [Errand.poll_snd]
  rfl

/-- A look finds the oldest event that waits. -/
theorem poll_of_queued {oldest : Event C} {rest : List (Event C)} (h : e.queued = oldest :: rest) :
    e.poll.1 = .item oldest := by
  cases hch : e.channel with
  | none => simp [queued, hch] at h
  | some ch =>
    have hlist : ch.buffer.toList = oldest :: rest := by simpa [queued, hch] using h
    simp [poll, hch, Channel.receive_fst, hlist]

end Endpoint

/-! ### A step of the task -/

namespace Dispatcher

variable {C : Type} (e : Endpoint C) (panics : Option Panic) (point : Dispatcher C)

/-- The callback is called for each event received, before the next one is received. -/
theorem calledBack_step :
    point.inHand?.toList ++ (point.step e panics).2.2.filterMap Occurrence.received? =
      (point.step e panics).2.2.filterMap Occurrence.invoked? ++
        (point.step e panics).2.1.inHand?.toList := by
  cases point with
  | receiving | looking =>
    simp only [step]
    split <;> rfl
  | polling =>
    rw [step]
    split <;> rfl
  | calling =>
    simp only [step]
    split <;> cases panics <;> rfl
  | _ => rfl

/-- The task fails where letting go of a panic's payload panics. -/
theorem fails_step_iff :
    (point.step e panics).2.1.fails = true ↔
      point.fails = true ∨
        ∃ event p, point = .calling event ∧ panics = some p ∧ p.recurs = true := by
  cases point with
  | receiving | looking =>
    simp only [step]
    split <;> simp [fails]
  | polling =>
    rw [step]
    split <;> simp [fails]
  | calling event =>
    cases panics with
    | none => simp [step, fails]
    | some p => cases hp : p.recurs <;> simp [step, fails, hp]
  | _ => simp [step, fails]

/-- Unless the task fails, a callback's panic shows in the log only. -/
theorem step_calm (h : (point.step e panics).2.1.fails = false) :
    (point.step e none).1 = (point.step e panics).1 ∧
      (point.step e none).2.1 = (point.step e panics).2.1 ∧
      (point.step e none).2.2.filter (!·.isOutcry) =
        (point.step e panics).2.2.filter (!·.isOutcry) := by
  cases point with
  | calling event =>
    cases panics with
    | none => exact ⟨rfl, rfl, rfl⟩
    | some p =>
      have hquiet : p.recurs = false := by
        cases hp : p.recurs with
        | false => rfl
        | true => simp [step, fails, hp] at h
      exact ⟨rfl, by simp [step, hquiet], rfl⟩
  | _ => exact ⟨rfl, rfl, rfl⟩

/-- A task that has panicked has nothing left to do but to let go of the receiving end. -/
theorem step_of_fails (h : point.fails = true) :
    (point.step e panics).2.1 = .failed ∧ (point.step e panics).2.2 = [] := by
  cases point with
  | unwinding | failed => exact ⟨rfl, rfl⟩
  | _ => cases h

/-- On a closed endpoint each step brings the task nearer to its end, and uses up the callback that
    begins in it. -/
theorem step_of_isClosed (hc : e.isClosed = true) :
    (point.step e panics).2.1.stepsLeft ≤ point.stepsLeft - 1 ∧
      ((point.step e panics).2.2.filterMap Occurrence.invoked?).length +
        (point.step e panics).2.1.calls ≤ point.calls := by
  cases point with
  | receiving | looking => simp [step, hc, stepsLeft, calls]
  | polling =>
    rw [step]
    split <;> simp [stepsLeft, calls, Occurrence.invoked?]
  | calling =>
    simp only [step]
    rw [Scene.filterMap_panicOf _ _ fun _ => rfl]
    split <;> simp [stepsLeft, calls]
  | _ => simp [step, stepsLeft, calls, Occurrence.invoked?]

theorem stepsLeft_eq_zero_iff :
    point.stepsLeft = 0 ↔ point = .finished ∨ point = .failed := by
  cases point <;> simp [stepsLeft]

theorem inHand?_of_calls_eq_zero (h : point.calls = 0) : point.inHand? = none := by
  cases point with
  | holding => cases h
  | _ => rfl

end Dispatcher

namespace Dispatched

variable {C : Type} [Located C]

/-- The events called back for in a run. -/
def invoked (timer : Timer) (d : Dispatched C) (acts : List (Act C)) : List (Event C) :=
  (d.history timer acts).filterMap Occurrence.invoked?

theorem invoked_cons (timer : Timer) (d : Dispatched C) (a : Act C) (acts : List (Act C)) :
    d.invoked timer (a :: acts) =
      (d.occurs timer a).filterMap Occurrence.invoked? ++ (d.next timer a).invoked timer acts :=
  List.filterMap_append

variable {d : Dispatched C} (timer : Timer)

/-! ### One act -/

theorem calledBack_next (a : Act C) :
    d.dispatcher.inHand?.toList ++ (d.occurs timer a).filterMap Occurrence.received? =
      (d.occurs timer a).filterMap Occurrence.invoked? ++
        (d.next timer a).dispatcher.inHand?.toList := by
  cases a with
  | dispatch panics => exact Dispatcher.calledBack_step d.endpoint panics d.dispatcher
  | tick k =>
    have hnobody := d.reachesConsumer_tick timer k
    rw [Occurrence.filterMap_received?_eq_nil hnobody,
      Occurrence.filterMap_invoked?_eq_nil hnobody, dispatcher_tick, List.append_nil]
    rfl

/-- The dispatcher fails at the end of a callback, by a panic whose payload panics as well. -/
theorem fails_next_iff (a : Act C) :
    (d.next timer a).dispatcher.fails = true ↔
      d.dispatcher.fails = true ∨
        ∃ event p, d.dispatcher = .calling event ∧ a = .dispatch (some p) ∧ p.recurs = true := by
  cases a with
  | tick k => simp [dispatcher_tick]
  | dispatch panics =>
    simpa [next, step] using Dispatcher.fails_step_iff d.endpoint panics d.dispatcher

/-- Unless the dispatcher fails, an act bears on everything as if no callback panicked. -/
theorem bearing_calm {a : Act C} (h : (d.next timer a).dispatcher.fails = false) :
    d.bearing timer a.calm = d.bearing timer a := by
  cases a with
  | tick k => rfl
  | dispatch panics =>
    obtain ⟨hleft, hpoint, hshown⟩ := Dispatcher.step_calm d.endpoint panics d.dispatcher h
    have hnext : d.next timer (.dispatch none) = d.next timer (.dispatch panics) := by
      rw [next, next, step, step, hleft, hpoint]
    rw [Act.calm, bearing, bearing, hnext]
    exact congrArg (fun shown => (_, shown, _)) hshown

/-- No act gives a dispatcher that has failed an event, and its own step is its last. -/
theorem next_of_fails (h : d.dispatcher.fails = true) (a : Act C) :
    (d.next timer a).dispatcher = (if a.isDispatch then .failed else d.dispatcher) ∧
      ∀ o ∈ d.occurs timer a, o.reachesConsumer = false := by
  cases a with
  | tick k => exact ⟨d.dispatcher_tick timer k, d.reachesConsumer_tick timer k⟩
  | dispatch panics =>
    obtain ⟨hpoint, hnone⟩ := Dispatcher.step_of_fails d.endpoint panics d.dispatcher h
    refine ⟨hpoint, ?_⟩
    rw [occurs, step, hnone]
    exact List.forall_mem_nil _

theorem isClosed_next (hc : d.endpoint.isClosed = true) (a : Act C) :
    (d.next timer a).endpoint.isClosed = true := by
  cases a with
  | tick k =>
    cases hk : k.consumes with
    | true => rwa [(next_of_consumes timer hk).1]
    | false =>
      rw [(next_of_not_consumes timer hk).1]
      rcases d.clocked.tick_cases timer k with ⟨hscene, -⟩ | ⟨m, rfl, hscene, -⟩
      · rwa [endpoint, hscene]
      · rw [endpoint, hscene]
        exact (d.clocked.scene.change_step m).isClosed hc
  | dispatch panics =>
    change (d.dispatcher.step d.endpoint panics).1.isClosed = true
    cases d.dispatcher with
    | polling =>
      have hpoll := (Endpoint.isClosed_poll d.endpoint).trans hc
      rw [Dispatcher.step]
      split <;> exact hpoll
    | _ => exact hc

/-- On a closed endpoint an act brings the dispatcher nearer to its end if it is its step, and uses
    up the callback that begins in it. -/
theorem next_of_isClosed (hc : d.endpoint.isClosed = true) (a : Act C) :
    (d.next timer a).dispatcher.stepsLeft + (if a.isDispatch then 1 else 0) ≤
        max d.dispatcher.stepsLeft (if a.isDispatch then 1 else 0) ∧
      ((d.occurs timer a).filterMap Occurrence.invoked?).length +
        (d.next timer a).dispatcher.calls ≤ d.dispatcher.calls := by
  cases a with
  | tick k =>
    rw [dispatcher_tick, Occurrence.filterMap_invoked?_eq_nil (d.reachesConsumer_tick timer k)]
    simp [Act.isDispatch]
  | dispatch panics =>
    obtain ⟨hsteps, hcalls⟩ := Dispatcher.step_of_isClosed d.endpoint panics d.dispatcher hc
    refine ⟨?_, hcalls⟩
    change (d.dispatcher.step d.endpoint panics).2.1.stepsLeft + 1 ≤ max _ 1
    omega

/-! ### Runs -/

/-- The callback has been called for each event received, but for the one in hand. -/
theorem calledBack_after (d : Dispatched C) (acts : List (Act C)) :
    d.dispatcher.inHand?.toList ++ d.received timer acts =
      d.invoked timer acts ++ (d.after timer acts).dispatcher.inHand?.toList := by
  induction acts generalizing d with
  | nil => exact List.append_nil _
  | cons a acts ih =>
    have hfirst := d.calledBack_next timer a
    have hrest := ih (d.next timer a)
    rw [received_cons, invoked_cons, Runs.cons (after timer), ← List.append_assoc, hfirst,
      List.append_assoc, hrest, List.append_assoc]

/-- Once its callback has ended, an open endpoint's dispatcher calls back for the next event that
    waits, unless it has failed. -/
theorem invoked_of_queued (d : Dispatched C) {event later : Event C} {rest : List (Event C)}
    (hat : d.dispatcher = .calling event) (ho : d.endpoint.isClosed = false)
    (hq : d.endpoint.queued = later :: rest) (panics : Option Panic) :
    d.invoked timer (List.replicate 5 (.dispatch panics)) =
      if panics.any (·.recurs) then [] else [later] := by
  obtain ⟨c, point⟩ := d
  obtain rfl : point = .calling event := hat
  have hfound : c.scene.endpoint.poll.1 = .item later := Endpoint.poll_of_queued hq
  have hopen : c.scene.endpoint.isClosed = false := ho
  have hlogged := Scene.filterMap_panicOf (C := C) .onConnection (panics.map (·.payload))
    (g := Occurrence.invoked?) fun _ => rfl
  -- The callback ends; then the task asks for an event, looks, finds one and calls back, or fails.
  cases hrecurs : panics.any (·.recurs) <;>
    simp [invoked, history, gather, next, occurs, step, Dispatcher.step, put, endpoint, hopen,
      hfound, hlogged, hrecurs, List.filterMap_cons, Occurrence.invoked?]

/-! ### Failing -/

/-- A dispatcher that has failed receives nothing any more and calls back no more, and it has ended
    once it has taken another step. -/
theorem lost_after (d : Dispatched C) (acts : List (Act C)) (h : d.dispatcher.fails = true) :
    d.received timer acts = [] ∧ d.invoked timer acts = [] ∧
      (d.after timer acts).dispatcher =
        if acts.any Act.isDispatch then .failed else d.dispatcher := by
  induction acts generalizing d with
  | nil => exact ⟨rfl, rfl, rfl⟩
  | cons a acts ih =>
    obtain ⟨hpoint, hnobody⟩ := d.next_of_fails timer h a
    have hfails := (d.fails_next_iff timer a).mpr (.inl h)
    obtain ⟨hreceived, hinvoked, hend⟩ := ih (d.next timer a) hfails
    refine ⟨?_, ?_, ?_⟩
    · rw [received_cons, Occurrence.filterMap_received?_eq_nil hnobody, hreceived]
      rfl
    · rw [invoked_cons, Occurrence.filterMap_invoked?_eq_nil hnobody, hinvoked]
      rfl
    · rw [Runs.cons (after timer), hend, hpoint, List.any_cons]
      cases a.isDispatch <;> cases acts.any Act.isDispatch <;> rfl

/-- Who has failed has failed for good. -/
theorem fails_after (d : Dispatched C) (acts : List (Act C)) (h : d.dispatcher.fails = true) :
    (d.after timer acts).dispatcher.fails = true := by
  refine Runs.induction (after timer) (P := (·.dispatcher.fails = true)) h ?_ acts
  intro t a ht
  exact (t.fails_next_iff timer a).mpr (.inl ht)

/-- The dispatcher fails exactly if one of the callbacks ends by a panic whose payload panics as
    well. -/
theorem fails_after_iff (d : Dispatched C) (acts : List (Act C)) (h : d.dispatcher.fails = false) :
    (d.after timer acts).dispatcher.fails = true ↔
      ∃ part event p rest, acts = part ++ .dispatch (some p) :: rest ∧
        (d.after timer part).dispatcher = .calling event ∧ p.recurs = true := by
  constructor
  · intro hfails
    induction acts generalizing d with
    | nil => rw [Runs.nil (after timer), h] at hfails; cases hfails
    | cons a acts ih =>
      cases hnext : (d.next timer a).dispatcher.fails with
      | true =>
        rcases (d.fails_next_iff timer a).mp hnext with hbefore | ⟨event, p, hat, rfl, hp⟩
        · rw [h] at hbefore
          cases hbefore
        · exact ⟨[], event, p, acts, rfl, hat, hp⟩
      | false =>
        obtain ⟨part, event, p, rest, rfl, hat, hp⟩ := ih (d.next timer a) hnext hfails
        exact ⟨a :: part, event, p, rest, rfl, hat, hp⟩
  · rintro ⟨part, event, p, rest, rfl, hat, hp⟩
    rw [Runs.append (after timer), Runs.cons (after timer)]
    refine fails_after timer _ rest ?_
    exact ((d.after timer part).fails_next_iff timer _).mpr (.inr ⟨event, p, hat, rfl, hp⟩)

/-- A dispatcher whose callbacks do not panic does not fail. -/
theorem fails_after_calm (d : Dispatched C) (acts : List (Act C))
    (h : d.dispatcher.fails = false) :
    (d.after timer (acts.map Act.calm)).dispatcher.fails = false := by
  cases hfails : (d.after timer (acts.map Act.calm)).dispatcher.fails with
  | false => rfl
  | true =>
    obtain ⟨part, event, p, rest, hacts, -⟩ := (d.fails_after_iff timer _ h).mp hfails
    have hmem : Act.dispatch (some p) ∈ acts.map Act.calm := by simp [hacts]
    obtain ⟨a, -, ha⟩ := List.mem_map.mp hmem
    cases a <;> cases ha

/-- Runs that bear on everything alike lead to the same. -/
theorem after_of_conduct_eq (d : Dispatched C) {acts acts' : List (Act C)}
    (h : d.conduct timer acts = d.conduct timer acts') :
    d.after timer acts = d.after timer acts' := by
  induction acts generalizing d acts' with
  | nil =>
    cases acts' with
    | nil => rfl
    | cons => cases h
  | cons a acts ih =>
    cases acts' with
    | nil => cases h
    | cons b acts' =>
      obtain ⟨hfirst, hrest⟩ := List.cons.inj h
      have hnext : d.next timer a = d.next timer b := (Prod.mk.inj hfirst).1
      rw [Runs.cons (after timer), Runs.cons (after timer), hnext]
      refine ih (d.next timer b) ?_
      rw [← hnext] at hrest ⊢
      exact hrest

/-- Unless the dispatcher fails, which callbacks panic makes no difference but to the log; and it
    does if the dispatcher fails. -/
theorem conduct_calm_iff (d : Dispatched C) (acts : List (Act C))
    (h : d.dispatcher.fails = false) :
    (d.after timer acts).dispatcher.fails = false ↔
      d.conduct timer acts = d.conduct timer (acts.map Act.calm) := by
  constructor
  · intro hgood
    induction acts generalizing d with
    | nil => rfl
    | cons a acts ih =>
      have hnext : (d.next timer a).dispatcher.fails = false := by
        cases hfails : (d.next timer a).dispatcher.fails with
        | false => rfl
        | true =>
          rw [Runs.cons (after timer), fails_after timer _ acts hfails] at hgood
          cases hgood
      have hfirst := d.bearing_calm timer hnext
      have hsame : d.next timer a.calm = d.next timer a := (Prod.mk.inj hfirst).1
      rw [conduct, conduct, List.map_cons, gather, gather, hfirst, hsame]
      exact congrArg _ (ih (d.next timer a) hnext hgood)
  · intro hsame
    rw [d.after_of_conduct_eq timer hsame]
    exact d.fails_after_calm timer acts h

/-! ### After the close -/

/-- A closed endpoint's dispatcher comes to its end, and calls back no more than it was about to. -/
theorem ends_after_close (d : Dispatched C) (acts : List (Act C))
    (hc : d.endpoint.isClosed = true) :
    (d.after timer acts).dispatcher.stepsLeft ≤
        d.dispatcher.stepsLeft - acts.countP Act.isDispatch ∧
      (d.invoked timer acts).length + (d.after timer acts).dispatcher.calls ≤
        d.dispatcher.calls := by
  induction acts generalizing d with
  | nil => exact ⟨Nat.le_refl _, Nat.le_of_eq (Nat.zero_add _)⟩
  | cons a acts ih =>
    obtain ⟨hsteps, hcalls⟩ := d.next_of_isClosed timer hc a
    obtain ⟨hsteps', hcalls'⟩ := ih (d.next timer a) (d.isClosed_next timer hc a)
    rw [Runs.cons (after timer), invoked_cons, List.length_append, List.countP_cons]
    refine ⟨?_, by omega⟩
    split at hsteps
    · next hdispatch =>
      rw [if_pos hdispatch]
      omega
    · next hdispatch =>
      rw [if_neg hdispatch]
      omega

/-- On a closed endpoint, a dispatcher that is two steps from its end is past all callbacks, and
    does not fail any more. -/
theorem fails_after_close (d : Dispatched C) (acts : List (Act C))
    (hc : d.endpoint.isClosed = true) (hleft : d.dispatcher.stepsLeft ≤ 2)
    (hgood : d.dispatcher.fails = false) : (d.after timer acts).dispatcher.fails = false := by
  induction acts generalizing d with
  | nil => exact hgood
  | cons a acts ih =>
    obtain ⟨hsteps, -⟩ := d.next_of_isClosed timer hc a
    refine ih (d.next timer a) (d.isClosed_next timer hc a) ?_ ?_
    · split at hsteps <;> omega
    · cases hfails : (d.next timer a).dispatcher.fails with
      | false => rfl
      | true =>
        rcases (d.fails_next_iff timer a).mp hfails with hbefore | ⟨event, p, hcalling, -⟩
        · rw [hgood] at hbefore
          cases hbefore
        · simp [hcalling, Dispatcher.stepsLeft] at hleft

/-- A closed endpoint's dispatcher that neither looks at the channel nor has an event in hand
    receives nothing any more, and calls back no more. -/
theorem received_of_calls_eq_zero (d : Dispatched C) (acts : List (Act C))
    (hc : d.endpoint.isClosed = true) (hcalls : d.dispatcher.calls = 0) :
    d.received timer acts = [] ∧ d.invoked timer acts = [] := by
  obtain ⟨-, hfew⟩ := d.ends_after_close timer acts hc
  have hnone : d.invoked timer acts = [] := List.length_eq_zero_iff.mp (by omega)
  have hback := d.calledBack_after timer acts
  rw [d.dispatcher.inHand?_of_calls_eq_zero hcalls, hnone,
    (d.after timer acts).dispatcher.inHand?_of_calls_eq_zero (by omega)] at hback
  exact ⟨hback, hnone⟩

/-! ### The whole run -/

/-- The dispatcher isolates panics, but not those of their payloads. Let a dispatcher begin on
    whatever a fresh endpoint has come to, and let anything happen from then on, before, between and
    after its steps: others may act, its callback may end by a panic with any payload, and may close
    the endpoint first (a close while the dispatcher is `calling`), and time may pass. The callback
    is called for exactly the events received, once for each, before the next one is received. They
    are a first part of those that waited in the channel when the dispatcher began and those sent
    since, in that order, and until the task has ended the others wait in the channel. A callback
    that has ended is followed by the one for the next event that waits, unless it has ended by a
    panic whose payload, let go, panics as well; exactly by such a panic the dispatcher fails. If it
    does not fail, and only then, every act has, but for the log of panics, the same occurrences and
    beats as with a callback that never panics and leads to the same, clock and endpoint and all. If
    it fails, it receives and calls back no more, open or closed as the endpoint may be, and after
    one more step nobody has the receiving end. Otherwise the dispatcher stops receiving only after
    the close. Then, unless it is just looking at the channel or has an event in hand, it receives
    and calls back no more, its task comes to an end, and from where it asks for the next event it
    does not fail, but has finished two steps later. -/
theorem dispatcher_isolates_panics (role : Role) (ipc : Bool) (config : Config)
    (before : List (Tick C)) (acts : List (Act C)) :
    let d : Dispatched C := ⟨(Clocked.start role ipc config).after timer before, .receiving⟩
    let t := d.after timer acts
    d.endpoint.receiverTaken = true →
      d.received timer acts = d.invoked timer acts ++ t.dispatcher.inHand?.toList ∧
      d.received timer acts <+: d.endpoint.queued ++ d.sent timer acts ∧
      (t.dispatcher.hasEnded = false →
        d.endpoint.queued ++ d.sent timer acts = d.received timer acts ++ t.endpoint.queued) ∧
      (∀ event next rest panics, t.dispatcher = .calling event → t.endpoint.isClosed = false →
        t.endpoint.queued = next :: rest →
          t.invoked timer (List.replicate 5 (.dispatch panics)) =
            if panics.any (·.recurs) then [] else [next]) ∧
      (t.dispatcher.fails = true ↔
        ∃ part event p rest, acts = part ++ .dispatch (some p) :: rest ∧
          (d.after timer part).dispatcher = .calling event ∧ p.recurs = true) ∧
      (t.dispatcher.fails = false ↔
        d.conduct timer acts = d.conduct timer (acts.map Act.calm)) ∧
      (t.dispatcher.fails = true → ∀ more,
        t.received timer more = [] ∧ t.invoked timer more = [] ∧
        (more.any Act.isDispatch = true →
          (t.after timer more).dispatcher = .failed ∧
            (t.after timer more).endpoint.receiverGone = true)) ∧
      (t.dispatcher.leaves = true → t.endpoint.isClosed = true) ∧
      (t.endpoint.isClosed = true → ∀ more,
        (t.invoked timer more).length ≤ t.dispatcher.calls ∧
        (t.dispatcher.calls = 0 → t.received timer more = [] ∧ t.invoked timer more = []) ∧
        (t.dispatcher.stepsLeft ≤ more.countP Act.isDispatch →
          (t.after timer more).dispatcher = .finished ∨
            (t.after timer more).dispatcher = .failed) ∧
        (t.dispatcher = .receiving → 2 ≤ more.countP Act.isDispatch →
          (t.after timer more).dispatcher = .finished)) := by
  intro d t ht
  obtain ⟨sent, received, hstart⟩ := tended_start timer role ipc config before ht
  have htended := hstart.after timer acts
  have hbegin : sent = received ++ d.endpoint.queued := hstart.sent_eq ht
  have hback := d.calledBack_after timer acts
  refine ⟨hback, ?inOrder, ?kept, ?goesOn, d.fails_after_iff timer acts rfl,
    d.conduct_calm_iff timer acts rfl, ?lost, htended.closed, ?ends⟩
  case inOrder =>
    obtain ⟨settled, hdelivered⟩ := htended.delivered
    have horder := hdelivered.inOrder
    rwa [hbegin, List.append_assoc, List.prefix_append_right_inj] at horder
  case kept =>
    intro hstill
    have hend := htended.sent_eq (Endpoint.receiverTaken_iff_custody?.mpr (htended.taken hstill))
    rwa [hbegin, List.append_assoc, List.append_assoc, List.append_cancel_left_eq] at hend
  case goesOn =>
    intro event next rest panics hat ho hq
    exact t.invoked_of_queued timer hat ho hq panics
  case lost =>
    intro hfails more
    obtain ⟨hreceived, hinvoked, hend⟩ := t.lost_after timer more hfails
    refine ⟨hreceived, hinvoked, ?_⟩
    intro hsteps
    rw [if_pos hsteps] at hend
    have hcustody := (htended.after timer more).custody
    rw [hend] at hcustody
    exact ⟨hend, Endpoint.receiverGone_of_custody? hcustody⟩
  case ends =>
    intro hc more
    obtain ⟨hsteps, hcalls⟩ := t.ends_after_close timer more hc
    have hended : t.dispatcher.stepsLeft ≤ more.countP Act.isDispatch →
        (t.after timer more).dispatcher = .finished ∨
          (t.after timer more).dispatcher = .failed := by
      intro henough
      exact (Dispatcher.stepsLeft_eq_zero_iff _).mp (by omega)
    refine ⟨by omega, t.received_of_calls_eq_zero timer more hc, hended, ?_⟩
    intro hat htwo
    have hgood : (t.after timer more).dispatcher.fails = false :=
      t.fails_after_close timer more hc (by simp [hat, Dispatcher.stepsLeft])
        (by simp [hat, Dispatcher.fails])
    rw [hat] at hended
    rcases hended htwo with hfinished | hfailed
    · exact hfinished
    · rw [hfailed] at hgood
      cases hgood

/-- A consumer has taken the receiving end of an endpoint that listens. -/
def awaited : List (Tick Link) :=
  [.move (.bind "/run/app.sock"), .move (.listen true 4 (.ok "resolved:/run/app.sock")),
    .move .takeReceiver, .move .work, .move .work, .move .work]

/-- A connection comes, and the loop works until the next accept. -/
def coming (id : Nat) : List (Act Link) :=
  .tick (.move (.acceptEnds (.ok ⟨id, none⟩))) :: List.replicate 6 (.tick (.move .work))

/-- Two connections come. The callback for the first panics, and the one for the second closes the
    endpoint before it panics. -/
def startling : List (Act Link) :=
  coming 0 ++ coming 1 ++ List.replicate 4 (.dispatch none) ++
    [.dispatch (some ⟨.text "consumer bug", false⟩)] ++ List.replicate 4 (.dispatch none) ++
    [.tick (.move (.close none)), .dispatch (some ⟨.value, false⟩)]

/-- The dispatcher is about to ask for an event, the callback has been called for both, and two
    steps of the dispatcher end it, whatever else is done. -/
theorem dispatcher_isolates_panics_of_startling :
    let d : Dispatched Link :=
      ⟨(Clocked.start .server false Scene.fixedBacklog).after .rehearsed awaited, .receiving⟩
    let t := d.after .rehearsed startling
    let more : List (Act Link) := .dispatch none :: coming 2 ++ [.dispatch none]
    d.endpoint.receiverTaken = true ∧ t.endpoint.isClosed = true ∧
      t.dispatcher.fails = false ∧ (d.received .rehearsed startling).length = 2 ∧
      d.invoked .rehearsed startling = d.received .rehearsed startling ∧
      d.conduct .rehearsed startling = d.conduct .rehearsed (startling.map Act.calm) ∧
      t.invoked .rehearsed more = [] ∧ (t.after .rehearsed more).dispatcher = .finished := by
  intro d t more
  have htaken : d.endpoint.receiverTaken = true := by decide
  have hclosed : t.endpoint.isClosed = true := by decide
  have hgood : t.dispatcher.fails = false := by decide
  have hcalls : t.dispatcher.calls = 0 := by decide
  obtain ⟨hback, -, -, -, -, hsame, -, -, hends⟩ :=
    dispatcher_isolates_panics .rehearsed .server false Scene.fixedBacklog awaited startling htaken
  obtain ⟨-, hquiet, -, hfinished⟩ := hends hclosed more
  have hnone : t.dispatcher.inHand? = none := t.dispatcher.inHand?_of_calls_eq_zero hcalls
  have hall : d.received .rehearsed startling = d.invoked .rehearsed startling := by
    rw [hback, hnone]
    exact List.append_nil _
  exact ⟨htaken, hclosed, hgood, by decide, hall.symm, hsame.mp hgood, (hquiet hcalls).2,
    hfinished rfl (by decide)⟩

/-- Two connections come, and a third one after the callback for the first has ended by a panic
    whose payload panics as well. -/
def disastrous : List (Act Link) :=
  coming 0 ++ coming 1 ++ List.replicate 4 (.dispatch none) ++ [.dispatch (some ⟨.value, true⟩)] ++
    List.replicate 5 (.dispatch none) ++ coming 2

/-- The task of the dispatcher has ended by the payload's panic, though nobody has closed the
    endpoint. The second event is lost and the third is not sent; had the callback not panicked,
    both would have been sent and the second one called back for. -/
theorem payload_ends_dispatcher :
    let d : Dispatched Link :=
      ⟨(Clocked.start .server false Scene.fixedBacklog).after .rehearsed awaited, .receiving⟩
    let t := d.after .rehearsed disastrous
    let quiet := disastrous.map Act.calm
    d.endpoint.receiverTaken = true ∧ t.endpoint.isClosed = false ∧
      t.dispatcher.hasEnded = true ∧ t.dispatcher.fails = true ∧
      (d.sent .rehearsed disastrous).length = 2 ∧ (d.invoked .rehearsed disastrous).length = 1 ∧
      t.endpoint.queued.length = 0 ∧ (d.sent .rehearsed quiet).length = 3 ∧
      (d.invoked .rehearsed quiet).length = 2 ∧
      (d.after .rehearsed quiet).dispatcher.hasEnded = false := by
  decide

end Dispatched

end LocalEndpoint
