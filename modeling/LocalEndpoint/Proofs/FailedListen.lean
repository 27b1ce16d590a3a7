import LocalEndpoint.Proofs.Scene.Sound
import LocalEndpoint.Rehearsal.Basic

/-! A `listen` that does not return OK leaves no trace. Whether it is refused, whether the provider
    fails and whether that is reported or raised, everything is as it was before (`next_of_fails`).
    So such calls can be left out of a run (`pruned`): the run ends at the same scene, and whatever
    is looked at on the way, every scene and every move in it, is the same without them. -/

namespace LocalEndpoint

/-- What the provider is asked to open a listener at, and with which backlog. -/
@[simp] def Occurrence.asked? {C : Type} : Occurrence C → Option (String × Size)
  | .listenCalled address backlog => some (address, backlog)
  | _ => none

namespace Endpoint

variable {C : Type}

/-- What `listen` needs before it asks the provider. -/
structure Ready (e : Endpoint C) (inRuntime : Bool) : Prop where
  opened : e.isClosed = false
  runtime : inRuntime = true
  unlistening : e.state.isListening = false
  addressed : e.address.isSome = true

theorem listenTarget_of_ready {e : Endpoint C} {inRuntime : Bool} (h : e.Ready inRuntime)
    (requested : Size) :
    ∃ address, e.address = some address ∧ e.listenTarget inRuntime requested =
      .ok (address, e.config.effectiveBacklog requested e.pendingInstances) := by
  rcases Option.isSome_iff_exists.mp h.addressed with ⟨address, ha⟩
  refine ⟨address, ha, ?_⟩
  simp [listenTarget, h.opened, h.runtime, h.unlistening, ha]

theorem listenTarget_of_not_ready {e : Endpoint C} {inRuntime : Bool} (h : ¬ e.Ready inRuntime)
    (requested : Size) : ∃ r, e.listenTarget inRuntime requested = .error r := by
  rw [listenTarget]
  split; · exact ⟨_, rfl⟩
  next ho =>
    split; · exact ⟨_, rfl⟩
    next hr =>
      split; · exact ⟨_, rfl⟩
      next hl =>
        split
        · exact ⟨_, rfl⟩
        · next ha =>
          refine absurd ⟨?_, ?_, ?_, ?_⟩ h
          · simpa using ho
          · simpa using hr
          · simpa using hl
          · simp [ha]

/-- `listen` returns OK exactly if it asks the provider and the provider opens a listener. -/
theorem listen_eq_ok_iff (e : Endpoint C) (inRuntime : Bool) (requested : Size)
    (answer : Except Failure String) :
    (e.listen inRuntime requested answer).2.1 = .ok .ok ↔
      e.Ready inRuntime ∧ ∃ resolved, answer = .ok resolved := by
  by_cases h : e.Ready inRuntime
  · rcases listenTarget_of_ready h requested with ⟨address, -, ht⟩
    cases answer with
    | ok resolved => simp [listen, ht, h]
    | error f =>
      have hno := forListen_ne_ok f
      cases hv : Code.forListen f <;> simp [listen, ht, hv] at hno ⊢
      exact hno
  · rcases listenTarget_of_not_ready h requested with ⟨r, ht⟩
    cases r <;> simp [listen, ht, h]

/-- The provider is asked exactly if everything is ready, and then once. -/
theorem asked_listen (e : Endpoint C) (inRuntime : Bool) (requested : Size)
    (answer : Except Failure String) :
    (e.Ready inRuntime → ∃ address, e.address = some address ∧
      (e.listen inRuntime requested answer).2.2.filterMap Occurrence.asked? =
        [(address, e.config.effectiveBacklog requested e.pendingInstances)]) ∧
    (¬ e.Ready inRuntime →
      (e.listen inRuntime requested answer).2.2.filterMap Occurrence.asked? = []) := by
  refine ⟨?_, ?_⟩
  · intro h
    rcases listenTarget_of_ready h requested with ⟨address, ha, ht⟩
    refine ⟨address, ha, ?_⟩
    cases answer with
    | ok resolved => simp [listen, ht]
    | error f => cases hv : Code.forListen f <;> simp [listen, ht, hv]
  · intro h
    rcases listenTarget_of_not_ready h requested with ⟨r, ht⟩
    cases r <;> simp [listen, ht]

end Endpoint

namespace Scene

variable {C : Type}

/-- Whether a move is a `listen` that does not return OK. -/
def fails (s : Scene C) : Move C → Bool
  | .listen inRuntime requested answer =>
    match (s.endpoint.listen inRuntime requested answer).2.1 with
    | .ok .ok => false
    | _ => true
  | _ => false

theorem exists_listen_of_fails {s : Scene C} {m : Move C} (h : s.fails m = true) :
    ∃ inRuntime requested answer, m = .listen inRuntime requested answer ∧
      (s.endpoint.listen inRuntime requested answer).2.1 ≠ .ok .ok := by
  cases m with
  | listen inRuntime requested answer =>
    refine ⟨inRuntime, requested, answer, rfl, ?_⟩
    intro hok
    simp [fails, hok] at h
  | _ => cases h

variable [Located C]

/-- A run without the calls of `listen` that do not return OK, and what the provider would have
    answered them. -/
def pruned (s : Scene C) (ms : List (Move C)) : List (Move C) :=
  gather next (fun s m => if s.fails m then [] else [m]) s ms

/-- A `listen` that does not return OK leaves everything as it was. -/
theorem next_of_fails {s : Scene C} {m : Move C} (h : s.fails m = true) :
    s.next m = s ∧ ∀ o ∈ (s.step m).2, o.onAcceptPath = false := by
  rcases exists_listen_of_fails h with ⟨inRuntime, requested, answer, rfl, hne⟩
  rcases Endpoint.listen_of_ne_ok hne with ⟨hsame, hos⟩
  rw [next, step, put, hsame]
  exact ⟨rfl, hos⟩

theorem pruned_cons_of_fails {s : Scene C} {m : Move C} (h : s.fails m = true)
    (ms : List (Move C)) : s.pruned (m :: ms) = s.pruned ms := by
  rw [pruned, gather, if_pos h, (next_of_fails h).1]
  rfl

theorem pruned_cons_of_not_fails {s : Scene C} {m : Move C} (h : s.fails m = false)
    (ms : List (Move C)) : s.pruned (m :: ms) = m :: (s.next m).pruned ms := by
  rw [pruned, gather, h]
  rfl

/-! ### Runs -/

theorem after_pruned (s : Scene C) (ms : List (Move C)) : s.after (s.pruned ms) = s.after ms := by
  induction ms generalizing s with
  | nil => rfl
  | cons m ms ih =>
    cases h : s.fails m with
    | true => rw [pruned_cons_of_fails h, Runs.cons after, (next_of_fails h).1, ih]
    | false => rw [pruned_cons_of_not_fails h, Runs.cons after, Runs.cons after, ih]

/-- Whatever a run shows at its other moves, it shows without the failed ones. -/
theorem gather_pruned {β : Type} (f : Scene C → Move C → List β) (s : Scene C)
    (ms : List (Move C)) :
    gather next f s (s.pruned ms) =
      gather next (fun t m => if t.fails m then [] else f t m) s ms := by
  induction ms generalizing s with
  | nil => rfl
  | cons m ms ih =>
    cases h : s.fails m with
    | true =>
      rw [pruned_cons_of_fails h, gather, if_pos h, (next_of_fails h).1, ih]
      rfl
    | false => rw [pruned_cons_of_not_fails h, gather, gather, h, ih]; rfl

/-- A failed `listen` is invisible. Whatever the reason, a `listen` that does not return OK leaves
    the endpoint and the connects under way as they were, and a later one succeeds under the same
    conditions as before, given a provider that opens a listener. The provider is asked once if the
    endpoint is open, within a runtime, not listening and has an address, and not at all otherwise.
    So the failed calls can be left out of any run, with what the provider answered them: it ends at
    the same scene, and whatever is looked at in the scenes and moves of the rest is the same. -/
theorem failed_listen_invisible (s : Scene C) :
    (∀ m, s.fails m = true →
      s.next m = s ∧ (∀ o ∈ (s.step m).2, o.onAcceptPath = false) ∧
      ∀ inRuntime requested resolved,
        ((s.next m).endpoint.listen inRuntime requested (.ok resolved)).2.1 = .ok .ok ↔
          s.endpoint.Ready inRuntime) ∧
    (∀ inRuntime requested answer,
      let asked := (s.step (.listen inRuntime requested answer)).2.filterMap Occurrence.asked?
      (s.endpoint.Ready inRuntime → ∃ address, s.endpoint.address = some address ∧ asked =
        [(address, s.endpoint.config.effectiveBacklog requested s.endpoint.pendingInstances)]) ∧
      (¬ s.endpoint.Ready inRuntime → asked = [])) ∧
    ∀ ms,
      s.after (s.pruned ms) = s.after ms ∧
      ∀ (β : Type) (f : Scene C → Move C → List β),
        gather next f s (s.pruned ms) =
          gather next (fun t m => if t.fails m then [] else f t m) s ms := by
  refine ⟨?_, ?_, ?_⟩
  · intro m hm
    rcases next_of_fails hm with ⟨hnext, hos⟩
    refine ⟨hnext, hos, ?_⟩
    intro inRuntime requested resolved
    rw [hnext, Endpoint.listen_eq_ok_iff]
    exact and_iff_left ⟨resolved, rfl⟩
  · intro inRuntime requested answer
    exact s.endpoint.asked_listen inRuntime requested answer
  · intro ms
    exact ⟨s.after_pruned ms, fun _ f => gather_pruned f s ms⟩

/-- All six ways to fail, before, between and after the call that succeeds. -/
def stubborn : List (Move Link) :=
  [.listen true 4 (.ok "a"), .bind "a", .listen false 4 (.ok "a"),
    .listen true 4 (.error (.io ⟨.addrInUse, "in use"⟩)),
    .listen true 4 (.error (.io ⟨.permissionDenied, "denied"⟩)), .listen true 4 (.ok "a"), .work,
    .listen true 4 (.ok "a"), .close none, .listen true 4 (.ok "a")]

theorem failed_listen_invisible_of_stubborn :
    let s : Scene Link := start .server false {}
    s.fails (.listen true 4 (.ok "a")) = true ∧ s.next (.listen true 4 (.ok "a")) = s ∧
      s.pruned stubborn = [.bind "a", .listen true 4 (.ok "a"), .work, .close none] ∧
      s.after [.bind "a", .listen true 4 (.ok "a"), .work, .close none] = s.after stubborn := by
  intro s
  have hfails : s.fails (.listen true 4 (.ok "a")) = true := rfl
  rcases s.failed_listen_invisible with ⟨hsame, -, hruns⟩
  exact ⟨hfails, (hsame _ hfails).1, rfl, (hruns stubborn).1⟩

end Scene

end LocalEndpoint
