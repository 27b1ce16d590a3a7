import LocalEndpoint.Proofs.Scene.Clocked

/-! A dispatcher among everybody else, step by step. Its task receives an event, calls back,
    discards the callback's panic if it panics, and receives again, until receiving has ended.
    Before each of these steps, and while the callback is busy, anybody may act, the callback itself
    included: it may close the endpoint, or let time pass. Left alone, the steps make one look
    through a dispatcher (`exists_eq_poll`).

    A callback ends by returning or by a panic. With the panic its payload is let go, and nothing
    guards the task from what the payload does then: if it panics as well, the task unwinds and
    lets go of the receiving end, and has failed.

        receiving ──▶ looking ◀──▶ polling ──▶ holding ──▶ calling ──▶ unwinding ──▶ failed
            │ ▲          │           │                        │
            │ └──────────┼───────────┼────────────────────────┘
            └────────────┴───────────┴──▶ leaving ──▶ finished -/

namespace LocalEndpoint

/-- A panic of a dispatcher's callback. -/
structure Panic where
  payload : Payload
  /-- Letting go of the payload panics as well. -/
  recurs : Bool := false
  deriving DecidableEq

/-- Where the task of a dispatcher stands: before its next step. -/
inductive Dispatcher (C : Type) where
  /-- Look whether the endpoint to receive from is closed. -/
  | receiving
  /-- Look again, before each look at the channel. -/
  | looking
  /-- Look at the channel. -/
  | polling
  /-- Call back for the event received. -/
  | holding (event : Event C)
  /-- The callback ends, if only by a panic. -/
  | calling (event : Event C)
  /-- Let go of the receiving end. -/
  | leaving
  /-- Let go of the receiving end, for want of anybody who catches the panic. -/
  | unwinding
  /-- None: the task has ended. -/
  | finished
  /-- None: the task has ended by a panic. -/
  | failed

namespace Dispatcher

variable {C : Type}

/-- The event received for which the callback has not been called. -/
def inHand? : Dispatcher C → Option (Event C)
  | .holding event => some event
  | _ => none

/-- Whether receiving has ended. -/
def leaves : Dispatcher C → Bool
  | .leaving | .finished => true
  | _ => false

/-- Whether the task has panicked. -/
def fails : Dispatcher C → Bool
  | .unwinding | .failed => true
  | _ => false

/-- Whether the task has ended. -/
def hasEnded : Dispatcher C → Bool
  | .finished | .failed => true
  | _ => false

/-- How many callbacks can still begin once the endpoint is closed. -/
def calls : Dispatcher C → Nat
  | .polling | .holding _ => 1
  | _ => 0

/-- How many steps the task still takes at most once the endpoint is closed. -/
def stepsLeft : Dispatcher C → Nat
  | .polling => 5
  | .holding _ => 4
  | .calling _ => 3
  | .receiving | .looking => 2
  | .leaving | .unwinding => 1
  | .finished | .failed => 0

/-- The task's next step: what it leaves, where it leads to, and what occurs; `panics` tells how the
    callback panics if it ends here. -/
def step (e : Endpoint C) (panics : Option Panic) :
    Dispatcher C → Endpoint C × Dispatcher C × List (Occurrence C)
  | .receiving => (e, if e.isClosed then .leaving else .looking, [])
  | .looking => (e, if e.isClosed then .leaving else .polling, [])
  | .polling =>
    match e.poll.1 with
    | .item event => (e.poll.2, .holding event, [.received event])
    | .pending => (e.poll.2, .looking, [])
    | .ended => (e.poll.2, .leaving, [])
  | .holding event => (e, .calling event, [.invoked event])
  | .calling _ =>
    (e, if panics.any (·.recurs) then .unwinding else .receiving,
      Scene.panicOf .onConnection (panics.map (·.payload)))
  | .leaving => (e.dropReceiver, .finished, [.dispatcherFinished])
  | .unwinding => (e.dropReceiver, .failed, [])
  | .finished => (e, .finished, [])
  | .failed => (e, .failed, [])

end Dispatcher

/-- Whether a move is made with the receiving end. -/
def Move.consumes {C : Type} : Move C → Bool
  | .poll _ | .dropReceiver => true
  | _ => false

/-- Whether it is a move made with the receiving end. -/
def Tick.consumes {C : Type} : Tick C → Bool
  | .move m => m.consumes
  | .pass _ => false

/-- A clocked scene in which a dispatcher has the receiving end. -/
structure Dispatched (C : Type) where
  clocked : Clocked C
  dispatcher : Dispatcher C := .receiving

/-- What can happen: anything that takes no receiving end, or a step of the dispatcher, with how its
    callback panics if that ends here. -/
inductive Act (C : Type) where
  | tick (k : Tick C)
  | dispatch (panics : Option Panic)

/-- The same with a callback that does not panic. -/
def Act.calm {C : Type} : Act C → Act C
  | .dispatch _ => .dispatch none
  | a => a

/-- Whether it is a step of the dispatcher. -/
def Act.isDispatch {C : Type} : Act C → Bool
  | .dispatch _ => true
  | .tick _ => false

/-- Whether the panic of a dispatcher's callback is logged. -/
@[simp] def Occurrence.isOutcry {C : Type} : Occurrence C → Bool
  | .panicked .onConnection _ => true
  | _ => false

/-- What occurs in a tick. -/
def Clocked.occurs {C : Type} [Located C] (c : Clocked C) : Tick C → List (Occurrence C)
  | .move m => if c.admits m then (c.scene.step m).2 else []
  | .pass _ => []

namespace Dispatched

variable {C : Type}

def endpoint (d : Dispatched C) : Endpoint C := d.clocked.scene.endpoint

/-- Puts an endpoint in the place of the one there. -/
def put (d : Dispatched C) (e : Endpoint C) : Clocked C :=
  { d.clocked with scene := { d.clocked.scene with endpoint := e } }

variable [Located C]

/-- What happens, what occurs, and its beats. What cannot happen changes nothing. -/
def step (timer : Timer) (d : Dispatched C) :
    Act C → Dispatched C × List (Occurrence C) × List (Nat × Beat)
  | .tick k =>
    if k.consumes then (d, [], [])
    else
      ({ d with clocked := d.clocked.next timer k }, d.clocked.occurs k,
        (d.clocked.step timer k).2)
  | .dispatch panics =>
    let p := d.dispatcher.step d.endpoint panics
    (⟨d.put p.1, p.2.1⟩, p.2.2, [])

def next (timer : Timer) (d : Dispatched C) (a : Act C) : Dispatched C := (d.step timer a).1

/-- What occurs in an act. -/
def occurs (timer : Timer) (d : Dispatched C) (a : Act C) : List (Occurrence C) :=
  (d.step timer a).2.1

/-- What is there after a run. -/
def after (timer : Timer) (d : Dispatched C) (acts : List (Act C)) : Dispatched C :=
  acts.foldl (next timer) d

instance (timer : Timer) : Runs (after (C := C) timer) (next timer) := ⟨fun _ _ => rfl⟩

/-- Everything that occurs in a run. -/
def history (timer : Timer) (d : Dispatched C) (acts : List (Act C)) : List (Occurrence C) :=
  gather (next timer) (occurs timer) d acts

/-- What an act leads to, what occurs in it but for the log of panics, and its beats. -/
def bearing (timer : Timer) (d : Dispatched C) (a : Act C) :
    Dispatched C × List (Occurrence C) × List (Nat × Beat) :=
  (d.next timer a, (d.occurs timer a).filter (!·.isOutcry), (d.step timer a).2.2)

/-- The same for each act of a run. -/
def conduct (timer : Timer) (d : Dispatched C) (acts : List (Act C)) :
    List (Dispatched C × List (Occurrence C) × List (Nat × Beat)) :=
  gather (next timer) (fun d a => [d.bearing timer a]) d acts

end Dispatched

/-! ### Left alone -/

namespace Dispatched

variable {C : Type} [Located C]

/-- Left alone, the dispatcher's steps make one look through a dispatcher, and if it fails they let
    go of the receiving end. -/
theorem exists_eq_poll (timer : Timer) (c : Clocked C) (panics : Option Panic)
    (ht : c.scene.endpoint.receiverTaken = true) :
    ∃ n, let d : Dispatched C := ⟨c, .receiving⟩
      let t := d.after timer (List.replicate n (.dispatch panics))
      let look := c.scene.step (.poll (.dispatcher (panics.map (·.payload))))
      t.clocked =
          { c with scene := if t.dispatcher.fails then look.1.next .dropReceiver else look.1 } ∧
        d.history timer (List.replicate n (.dispatch panics)) = look.2 := by
  rw [Scene.step, Scene.poll, if_pos ht, Endpoint.receive]
  cases hc : c.scene.endpoint.isClosed with
  | true =>
    refine ⟨2, ?_⟩
    simp [after, history, gather, next, occurs, step, Dispatcher.step, put, endpoint, hc,
      Dispatcher.fails]
  | false =>
    have hkept : c.scene.endpoint.poll.2.receiverTaken = true := by
      rwa [Endpoint.receiverTaken_iff_custody?, Endpoint.custody?_poll,
        ← Endpoint.receiverTaken_iff_custody?]
    -- Two steps come before the look at the channel; what it finds decides how many come after it.
    cases hp : c.scene.endpoint.poll.1 with
    | item event =>
      cases hrecurs : panics.any (·.recurs) with
      | true =>
        refine ⟨6, ?_⟩
        simp [after, history, gather, next, occurs, step, Dispatcher.step, put, endpoint, hc, hp,
          hrecurs, Dispatcher.fails, Scene.next, Scene.step, Scene.put, hkept]
      | false =>
        refine ⟨5, ?_⟩
        simp [after, history, gather, next, occurs, step, Dispatcher.step, put, endpoint, hc, hp,
          hrecurs, Dispatcher.fails]
    | pending =>
      refine ⟨3, ?_⟩
      simp [after, history, gather, next, occurs, step, Dispatcher.step, put, endpoint, hc, hp,
        Dispatcher.fails]
    | ended =>
      refine ⟨4, ?_⟩
      simp [after, history, gather, next, occurs, step, Dispatcher.step, put, endpoint, hc, hp,
        Dispatcher.fails]

end Dispatched

end LocalEndpoint
