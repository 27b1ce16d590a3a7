import LocalEndpoint.Proofs.Scene.Change
import Mathlib.Data.List.Induction

/-! An endpoint among callers that run at the same time. An operation that does more than one
    indivisible thing is an errand, which stands between two of its steps while anybody else may
    act; one that does its work in one go is a move. The accept loop's pieces of work are
    indivisible as they are: one look at the lock, one start of an accept, one poll, or one count.

    An errand looks at the endpoint and changes it behind the lock, and tells afterwards what
    happened (`Errand.tell`). So a reader that has found the endpoint open may still poll the
    channel of one that has been closed since. -/

namespace LocalEndpoint

/-- What a caller tells: nothing that is the accept loop's doing. -/
structure Remarks (C : Type) where
  list : List (Occurrence C)
  not_byLoop : ∀ o ∈ list, o.byLoop = false

namespace Remarks

variable {C : Type}

def ofAside (os : List (Occurrence C)) (h : ∀ o ∈ os, o.onAcceptPath = false) : Remarks C :=
  ⟨os, Occurrence.byLoop_of_not_onAcceptPath h⟩

/-- The same, and that a callback panics, if it does. -/
def panicking (r : Remarks C) (callback : Callback) (panics : Option Payload) : Remarks C where
  list := r.list ++ Scene.panicOf callback panics
  not_byLoop o ho := by
    rcases List.mem_append.mp ho with ho | ho
    · exact r.not_byLoop o ho
    · exact Occurrence.byLoop_of_not_onAcceptPath (Scene.onAcceptPath_panicOf callback panics) o ho

/-- What a reader does with an event. -/
def ofEvent (event : Event C) : Reader → Remarks C
  | .dispatcher panics => panicking ⟨[.invoked event], by simp⟩ .onConnection panics
  | _ => ⟨[], List.forall_mem_nil _⟩

end Remarks

/-- The next step of an operation that has more than one. -/
inductive Errand (C : Type) where
  /-- Look whether the endpoint to connect from is closed. -/
  | connect (attempt : Endpoint.Attempt) (panics : Option Payload)
  /-- Ask the provider to connect. -/
  | dial (attempt : Endpoint.Attempt) (panics : Option Payload)
  /-- None: the provider has not answered. -/
  | ring (attempt : Endpoint.Attempt) (panics : Option Payload)
  /-- Count the provider's failure, or attach its connection. -/
  | land (attempt : Endpoint.Attempt) (outcome : Except Failure C) (panics : Option Payload)
  /-- Close the endpoint. -/
  | close (answer : Option Failure)
  /-- Look up the address whose permissions are to change. -/
  | fchmod (bits : UInt32) (answer : Option Fault)
  /-- Look whether the endpoint to receive from is closed. -/
  | receive (reader : Reader)
  /-- Look again, before each look at the channel. -/
  | look (reader : Reader)
  /-- Look at the channel. -/
  | poll (reader : Reader)
  /-- Receive no more. -/
  | leave (reader : Reader)
  /-- Tell collaborators, callbacks and logs. -/
  | tell (remarks : Remarks C)

namespace Errand

variable {C : Type}

/-- Whether a caller can begin with it. -/
def begins : Errand C → Bool
  | .connect .. | .close _ | .fchmod .. | .receive _ => true
  | _ => false

/-- The next step: what it leaves, what occurs, and what is still to be done. -/
def step [Located C] (e : Endpoint C) :
    Errand C → Endpoint C × List (Occurrence C) × Option (Errand C)
  | .connect a panics =>
    if hc : e.isClosed then
      let refusal := Remarks.ofAside (e.beginConnect a)
        (by simp [Endpoint.beginConnect, hc, Occurrence.onAcceptPath])
      (e, [], some (.tell (refusal.panicking .afterConnect panics)))
    else (e, [], some (.dial a panics))
  | .dial a panics => (e, [.connectCalled a.address], some (.ring a panics))
  | .ring a panics => (e, [], some (.ring a panics))
  | .land a outcome panics =>
    let p := e.finishConnect a outcome
    let report := Remarks.ofAside p.2 (e.onAcceptPath_finishConnect a outcome)
    (p.1, [], some (.tell (report.panicking .afterConnect panics)))
  | .close answer =>
    let p := e.close answer
    (p.1, [], some (.tell (.ofAside p.2 (e.onAcceptPath_close answer))))
  | .fchmod bits answer =>
    (e, [], some (.tell (.ofAside (e.fchmod bits answer).2 (e.onAcceptPath_fchmod bits answer))))
  | .receive reader => (e, [], some (if e.isClosed then .leave reader else .look reader))
  | .look reader => (e, [], some (if e.isClosed then .leave reader else .poll reader))
  | .poll reader =>
    if e.receiverTaken then
      match e.poll.1 with
      | .item event => (e.poll.2, [.received event], some (.tell (.ofEvent event reader)))
      | .pending => (e.poll.2, [], some (.look reader))
      | .ended => (e.poll.2, [], some (.leave reader))
    else (e, [], none)
  | .leave reader =>
    let released := if e.receiverTaken then e.dropReceiver else e
    match reader with
    | .direct => (e, [], none)
    | .stream => (released, [], none)
    | .dispatcher _ => (released, [.dispatcherFinished], none)
  | .tell remarks => (e, remarks.list, none)

/-- The move that does as much to the endpoint. -/
def image : Errand C → Move C
  | .land _ outcome panics => .connectEnds 0 outcome panics
  | .close answer => .close answer
  | .poll reader => .poll reader
  | .leave _ => .dropReceiver
  | _ => .ref

end Errand

/-- Whether an operation does its work in one go. -/
def Move.isOneGo {C : Type} : Move C → Bool
  | .connect .. | .connectEnds .. | .poll _ | .fchmod .. | .close _ => false
  | _ => true

/-- What can happen next. -/
inductive Turn (C : Type) where
  /-- A caller begins an operation that has more than one step. -/
  | start (errand : Errand C)
  /-- The errand at this position takes its next step. -/
  | act (position : Nat)
  /-- The provider answers the connect at this position. -/
  | answer (position : Nat) (outcome : Except Failure C)
  /-- Anything that is done in one go: by a caller, the loop, the provider or the timer. -/
  | move (m : Move C)

/-- An endpoint and the errands under way. -/
structure Crowd (C : Type) where
  endpoint : Endpoint C
  errands : List (Errand C) := []

namespace Crowd

variable {C : Type} [Located C]

omit [Located C] in
/-- A fresh endpoint. -/
def start (role : Role) (ipc : Bool) (config : Config) : Crowd C :=
  { endpoint := .create role ipc config }

/-- What a turn leads to, and what occurs meanwhile. What nothing allows changes nothing. -/
def step (s : Crowd C) : Turn C → Crowd C × List (Occurrence C)
  | .start errand =>
    if errand.begins then ({ s with errands := s.errands ++ [errand] }, []) else (s, [])
  | .act i =>
    match s.errands[i]? with
    | none => (s, [])
    | some errand =>
      let p := errand.step s.endpoint
      match p.2.2 with
      | some rest => (⟨p.1, s.errands.set i rest⟩, p.2.1)
      | none => (⟨p.1, s.errands.eraseIdx i⟩, p.2.1)
  | .answer i outcome =>
    match s.errands[i]? with
    | some (.ring a panics) =>
      ({ s with errands := s.errands.set i (.land a outcome panics) }, [])
    | _ => (s, [])
  | .move m =>
    if m.isOneGo then
      let p := Scene.step ⟨s.endpoint, []⟩ m
      ({ s with endpoint := p.1.endpoint }, p.2)
    else (s, [])

/-- The move that does as much to the endpoint as a turn. -/
def image (s : Crowd C) : Turn C → Move C
  | .act i => (s.errands[i]?).elim .ref Errand.image
  | .move m => if m.isOneGo then m else .ref
  | _ => .ref

def next (s : Crowd C) (t : Turn C) : Crowd C := (s.step t).1

/-- What the accept loop does in a turn. -/
def doing (s : Crowd C) (t : Turn C) : List (Occurrence C) := (s.step t).2.filter Occurrence.byLoop

end Crowd

/-! ### One turn -/

theorem filter_byLoop_eq_nil {C : Type} {os : List (Occurrence C)}
    (h : ∀ o ∈ os, o.byLoop = false) : os.filter Occurrence.byLoop = [] := by
  rw [List.filter_eq_nil_iff]
  intro o ho hb
  rw [h o ho] at hb
  cases hb

namespace Errand

variable {C : Type} [Located C]

open Endpoint (Change)

/-- No step of an errand is the accept loop's doing. -/
theorem byLoop_step (e : Endpoint C) (errand : Errand C) :
    ∀ o ∈ (errand.step e).2.1, o.byLoop = false := by
  cases errand with
  | connect a panics =>
    rw [step]
    split <;> exact List.forall_mem_nil _
  | dial a panics => simp [step]
  | poll reader =>
    rw [step]
    split
    · split <;> simp
    · exact List.forall_mem_nil _
  | leave reader => cases reader <;> simp [step]
  | tell remarks => exact remarks.not_byLoop
  | _ => exact List.forall_mem_nil _

omit [Located C] in
theorem poll_snd (e : Endpoint C) : e.poll.2 = { e with channel := e.poll.2.channel } := by
  rw [Endpoint.poll]
  split <;> rfl

/-- A step of an errand does to the endpoint what its image does. -/
theorem change_step (e : Endpoint C) (errand : Errand C) :
    ∃ os, Change e errand.image (errand.step e).1 os ∧ ∀ o ∈ os, o.byLoop = false := by
  have hstill {m : Move C} (hm : m.aside = true) :
      ∃ os, Change e m e os ∧ ∀ o ∈ os, o.byLoop = false :=
    ⟨[], .aside hm .refl (List.forall_mem_nil _), List.forall_mem_nil _⟩
  have hchannel {m : Move C} (hm : m.receives = true) {channel : Option (Channel (Event C))}
      (hch : e.Reception m channel) :
      ∃ os, Change e m { e with channel } os ∧ ∀ o ∈ os, o.byLoop = false :=
    ⟨[], .receiving hm (List.forall_mem_nil _) (fun _ => List.forall_mem_nil _) hch,
      List.forall_mem_nil _⟩
  cases errand with
  | connect a panics =>
    rw [step]
    split <;> exact hstill rfl
  | land a outcome panics =>
    exact ⟨[], .aside rfl (.finishConnect a outcome) (List.forall_mem_nil _), List.forall_mem_nil _⟩
  | close answer =>
    exact ⟨_, e.change_close answer,
      Occurrence.byLoop_of_not_onAcceptPath (e.onAcceptPath_close answer)⟩
  | poll reader =>
    have hpolled : ∃ os, Change e (.poll reader) e.poll.2 os ∧ ∀ o ∈ os, o.byLoop = false := by
      rw [poll_snd]
      exact hchannel rfl .looked
    rw [step]
    split
    · split <;> exact hpolled
    · exact hchannel rfl (.untouched nofun)
  | leave reader =>
    cases reader with
    | direct => exact hchannel rfl (.untouched nofun)
    | stream | dispatcher =>
      rw [step]
      split
      · exact hchannel rfl (.dropped nofun)
      · exact hchannel rfl (.untouched nofun)
  | _ => exact hstill rfl

/-- A step of an errand keeps an endpoint sound. -/
theorem sound_step {e : Endpoint C} (h : e.Sound) (errand : Errand C) :
    (errand.step e).1.Sound := by
  cases errand with
  | connect a panics =>
    rw [step]
    split <;> exact h
  | land a outcome panics => exact h.finishConnect a outcome
  | close answer => exact h.close answer
  | poll reader =>
    rw [step]
    split
    · split <;> exact h.poll
    · exact h
  | leave reader =>
    cases reader with
    | direct => exact h
    | stream | dispatcher =>
      rw [step]
      split
      · exact h.dropReceiver
      · exact h
  | _ => exact h

end Errand

namespace Crowd

variable {C : Type} [Located C]

open Endpoint (Change)

/-- A turn does to the endpoint what its image does, and the loop does the same in both. -/
theorem change_step (s : Crowd C) (t : Turn C) :
    ∃ os, Change s.endpoint (s.image t) (s.next t).endpoint os ∧
      os.filter Occurrence.byLoop = s.doing t := by
  have hstill : ∃ os, Change s.endpoint .ref s.endpoint os ∧ os.filter Occurrence.byLoop = [] :=
    ⟨[], .aside rfl .refl (List.forall_mem_nil _), rfl⟩
  cases t with
  | start errand =>
    rw [doing, next, step]
    split <;> exact hstill
  | act i =>
    rw [doing, next, step, image]
    cases s.errands[i]? with
    | none => exact hstill
    | some errand =>
      obtain ⟨os, hc, ho⟩ := errand.change_step s.endpoint
      have hnone := filter_byLoop_eq_nil (errand.byLoop_step s.endpoint)
      refine ⟨os, ?_, (filter_byLoop_eq_nil ho).trans ?_⟩
      · cases hr : (errand.step s.endpoint).2.2 <;> simpa [hr] using hc
      · cases hr : (errand.step s.endpoint).2.2 <;> simp [hr, hnone]
  | answer i outcome =>
    rw [doing, next, step]
    split <;> exact hstill
  | move m =>
    rw [doing, next, step, image]
    split
    · exact ⟨_, Scene.change_step ⟨s.endpoint, []⟩ m, rfl⟩
    · exact hstill

/-- Every errand is an old one, one that has just begun or been answered, or what an old one has
    left to do. -/
theorem mem_errands_next (s : Crowd C) (t : Turn C) {errand : Errand C}
    (h : errand ∈ (s.next t).errands) :
    errand ∈ s.errands ∨ errand.begins = true ∨
      (∃ a outcome panics, errand = .land a outcome panics) ∨
      ∃ old ∈ s.errands, (old.step s.endpoint).2.2 = some errand ∧
        (s.next t).endpoint = (old.step s.endpoint).1 := by
  cases t with
  | start begun =>
    rw [next, step] at h
    split at h
    · next hbegins =>
      rcases List.mem_append.mp h with hold | hnew
      · exact .inl hold
      · rw [List.mem_singleton.mp hnew]
        exact .inr (.inl hbegins)
    · exact .inl h
  | act i =>
    rw [next, step] at h ⊢
    cases hi : s.errands[i]? with
    | none =>
      rw [hi] at h
      exact .inl h
    | some old =>
      rw [hi] at h
      cases hr : (old.step s.endpoint).2.2 with
      | none =>
        simp only [hr] at h
        exact .inl (List.mem_of_mem_eraseIdx h)
      | some rest =>
        simp only [hr] at h
        rcases List.mem_or_eq_of_mem_set h with hold | rfl
        · exact .inl hold
        · exact .inr (.inr (.inr ⟨old, List.mem_of_getElem? hi, hr, by simp only [hr]⟩))
  | answer i outcome =>
    rw [next, step] at h
    split at h
    · rcases List.mem_or_eq_of_mem_set h with hold | rfl
      · exact .inl hold
      · exact .inr (.inr (.inl ⟨_, _, _, rfl⟩))
    · exact .inl h
  | move m =>
    rw [next, step] at h
    split at h <;> exact .inl h

theorem sound_next (s : Crowd C) (t : Turn C) (h : s.endpoint.Sound) :
    (s.next t).endpoint.Sound := by
  cases t with
  | start errand =>
    rw [next, step]
    split <;> exact h
  | act i =>
    rw [next, step]
    split
    · exact h
    · next errand _ =>
      have hstep := errand.sound_step h
      cases hr : (errand.step s.endpoint).2.2 <;> simpa [hr] using hstep
  | answer i outcome =>
    rw [next, step]
    split <;> exact h
  | move m =>
    rw [next, step]
    split
    · exact Scene.sound_next ⟨s.endpoint, []⟩ m h
    · exact h

/-! ### Runs -/

/-- The crowd after a run. -/
def after (s : Crowd C) (ts : List (Turn C)) : Crowd C := ts.foldl next s

instance : Runs (after (C := C)) next := ⟨fun _ _ => rfl⟩

/-- Whatever the interleaving, a fresh endpoint is sound after every run. -/
theorem sound_after (role : Role) (ipc : Bool) (config : Config) (ts : List (Turn C)) :
    ((start role ipc config).after ts).endpoint.Sound := by
  induction ts using List.reverseRecOn with
  | nil => exact Endpoint.sound_create role ipc config
  | append_singleton ts t ih => rw [Runs.concat after]; exact sound_next _ t ih

/-- Letting the loop work alone until it waits is a run. -/
theorem exists_after_eq_run (s : Crowd C) :
    ∃ n, s.after (List.replicate n (.move .work)) = { s with endpoint := s.endpoint.run.1 } ∧
      s.endpoint.run.1.waits = true := by
  obtain ⟨e, errands⟩ := s
  induction e using Endpoint.run.induct with
  | case1 e hw =>
    rw [Endpoint.run, dif_pos hw]
    exact ⟨0, rfl, hw⟩
  | case2 e hw ih =>
    obtain ⟨n, hn, hr⟩ := ih
    rw [Endpoint.run, dif_neg hw]
    exact ⟨n + 1, hn, hr⟩

end Crowd

end LocalEndpoint
