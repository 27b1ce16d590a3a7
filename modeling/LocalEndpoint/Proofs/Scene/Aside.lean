import LocalEndpoint.Proofs.Scene.Sound

/-! Moves that the accept loop does not notice. Naming, connecting, and asking for access go on
    beside the loop (`Move.aside`): they leave its side of the endpoint alone (`Beside`), and
    nothing of what occurs is on the accept path. -/

namespace LocalEndpoint

/-- Whether a move concerns addresses, connects, access and settings only. -/
def Move.aside {C : Type} : Move C → Bool
  | .bind _ | .connect .. | .connectEnds .. | .setPendingInstances _ | .fchmod .. | .ref | .unref
  | .takeConnection => true
  | _ => false

namespace Endpoint

variable {C : Type}

/-- `f` has the same accept loop as `e`, with all that the loop reads and the counters it keeps. -/
structure Beside (e f : Endpoint C) : Prop where
  ipc : f.ipc = e.ipc
  closed : f.isClosed = e.isClosed
  occupancy : f.occupancy = e.occupancy
  retry : f.retry = e.retry
  channel : f.channel = e.channel
  loop : f.loop = e.loop
  tally : ∀ c, c ≠ .connects → c ≠ .failedConnects → f.tally.get c = e.tally.get c
  connects : e.isClosed = true → f.tally.get .connects = e.tally.get .connects

namespace Beside

variable {e : Endpoint C}

theorem refl : e.Beside e := ⟨rfl, rfl, rfl, rfl, rfl, rfl, fun _ _ _ => rfl, fun _ => rfl⟩

theorem bind (name : String) : e.Beside (e.bind name).1 := by
  rw [Endpoint.bind]
  split
  · exact .refl
  · refine ⟨rfl, ?_, rfl, rfl, rfl, rfl, fun _ _ _ => rfl, fun _ => rfl⟩
    by_cases hi : e.state = .idle <;> simp [isClosed, hi, Lifecycle.isClosed]

theorem attach (ho : e.isClosed = false) (handle : Handle C) : e.Beside (e.attach handle) := by
  refine ⟨rfl, ?_, rfl, rfl, rfl, rfl, fun c hc _ => ?_, fun hc => ?_⟩
  · by_cases hi : e.state = .idle <;> simp [Endpoint.attach, isClosed, hi, Lifecycle.isClosed]
  · exact (Tally.get_bump ..).trans (if_neg hc.symm)
  · rw [ho] at hc; cases hc

theorem finishConnect [Located C] (a : Attempt) (outcome : Except Failure C) :
    e.Beside (e.finishConnect a outcome).1 := by
  cases outcome with
  | error f =>
    refine ⟨rfl, rfl, rfl, rfl, rfl, rfl, fun c _ hc => ?_, fun _ => ?_⟩
    · exact (Tally.get_bump ..).trans (if_neg hc.symm)
    · rfl
  | ok c =>
    rw [Endpoint.finishConnect]
    split
    · exact .refl
    · next hc => exact .attach (by simpa using hc) _

end Beside

theorem onAcceptPath_finishConnect [Located C] (e : Endpoint C) (a : Attempt)
    (outcome : Except Failure C) : ∀ o ∈ (e.finishConnect a outcome).2, o.onAcceptPath = false := by
  cases outcome with
  | error f => simp [finishConnect, Occurrence.onAcceptPath]
  | ok c => cases hc : e.isClosed <;> simp [finishConnect, hc, Occurrence.onAcceptPath]

theorem onAcceptPath_fchmod (e : Endpoint C) (bits : UInt32) (answer : Option Fault) :
    ∀ o ∈ (e.fchmod bits answer).2, o.onAcceptPath = false := by
  rw [fchmod]
  cases e.chmodTarget? bits <;> cases answer <;> simp [Occurrence.onAcceptPath]

theorem onAcceptPath_close (e : Endpoint C) (answer : Option Failure) :
    ∀ o ∈ (e.close answer).2, o.onAcceptPath = false := by
  cases hc : e.isClosed with
  | true => simp [close, hc]
  | false =>
    rcases answer with _ | _ | fault <;> cases hl : e.closesListener <;>
      simp [close, hc, hl, Occurrence.onAcceptPath]

end Endpoint

namespace Scene

variable {C : Type} [Located C]

omit [Located C] in
theorem onAcceptPath_panicOf (callback : Callback) (panics : Option Payload) :
    ∀ o ∈ (panicOf callback panics : List (Occurrence C)), o.onAcceptPath = false := by
  cases panics <;> simp [panicOf, Occurrence.onAcceptPath]

/-- A move aside leaves the loop's side alone, and what occurs is not on the accept path. -/
theorem beside_next (s : Scene C) {m : Move C} (hm : m.aside = true) :
    s.endpoint.Beside (s.next m).endpoint ∧ ∀ o ∈ (s.step m).2, o.onAcceptPath = false := by
  cases m with
  | bind name => exact ⟨.bind name, List.forall_mem_nil _⟩
  | connect a panics =>
    cases hc : s.endpoint.isClosed with
    | true =>
      refine ⟨by simpa [next, step, connect, hc] using .refl, ?_⟩
      simpa [step, connect, hc, Endpoint.beginConnect, Occurrence.onAcceptPath] using
        onAcceptPath_panicOf _ panics
    | false =>
      refine ⟨by simpa [next, step, connect, hc] using .refl, ?_⟩
      simp [step, connect, hc, Endpoint.beginConnect, Occurrence.onAcceptPath]
  | connectEnds i outcome panics =>
    rw [next, step, connectEnds]
    cases s.underWay[i]? with
    | none => exact ⟨.refl, List.forall_mem_nil _⟩
    | some a =>
      refine ⟨.finishConnect a outcome, fun o ho => ?_⟩
      rcases List.mem_append.mp ho with ho | ho
      · exact s.endpoint.onAcceptPath_finishConnect a outcome o ho
      · exact onAcceptPath_panicOf _ panics o ho
  | setPendingInstances n =>
    exact ⟨⟨rfl, rfl, rfl, rfl, rfl, rfl, fun _ _ _ => rfl, fun _ => rfl⟩, List.forall_mem_nil _⟩
  | takeConnection =>
    exact ⟨⟨rfl, rfl, rfl, rfl, rfl, rfl, fun _ _ _ => rfl, fun _ => rfl⟩, List.forall_mem_nil _⟩
  | fchmod bits answer => exact ⟨.refl, s.endpoint.onAcceptPath_fchmod bits answer⟩
  | ref =>
    refine ⟨.refl, ?_⟩
    cases hl : s.endpoint.holdsListener <;>
      simp [step, put, Endpoint.ref, hl, Occurrence.onAcceptPath]
  | unref =>
    refine ⟨.refl, ?_⟩
    cases hl : s.endpoint.holdsListener <;>
      simp [step, put, Endpoint.unref, hl, Occurrence.onAcceptPath]
  | _ => cases hm

end Scene

end LocalEndpoint
