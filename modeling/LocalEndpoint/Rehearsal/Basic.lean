import LocalEndpoint.Endpoint.Calls
import LocalEndpoint.Endpoint.Loop
import LocalEndpoint.Occurrence

/-! A rehearsal: one endpoint over a scripted provider, in virtual time. Provider, listener and
    permission layer answer from scripts; the consumer's part (what it holds, its dispatcher, its
    connects under way) is kept here too, and everything that happens goes on a timeline. -/

namespace LocalEndpoint

/-- A scripted connection: a number and a local address. -/
structure Link where
  id : Nat
  address : Option String
  deriving DecidableEq

instance : Located Link := ⟨Link.address⟩

namespace Rehearsal

/-- What a scripted accept or connect yields: a connection's local address, or a failure. -/
abbrev Outcome := Except Failure (Option String)

/-- A scripted connect: what it yields and after how many milliseconds. -/
structure ConnectPlan where
  outcome : Outcome := .ok none
  delay : Nat := 0

/-- How the collaborators answer throughout a rehearsal. -/
structure Props where
  /-- The listener's resolved address; else the asked one, marked as resolved. -/
  resolved : Option String := none
  closeFailure : Option Failure := none
  chmodFault : Option Fault := none
  /-- Whether a closed listener ends the accepts that are pending on it. -/
  wakeOnClose : Bool := false

/-- What a consumer's callback does besides taking note. -/
structure Reaction where
  closes : Bool := false
  panics : Option Payload := none

/-- A connect under way: it ends at `due` with `outcome`. -/
structure UnderWay where
  attempt : Endpoint.Attempt
  due : Nat
  outcome : Outcome
  reaction : Reaction

/-- A task that receives events and calls back for each. -/
structure Dispatcher where
  closeOn : Option Nat := none
  panicOn : List Nat := []
  payload : Payload
  /-- How often it has called back. -/
  calls : Nat := 0
  finished : Bool := false

/-- What the consumer holds of the receiving end. -/
inductive Hand where
  | empty
  | receiver
  | stream (ended : Bool)

end Rehearsal

open Rehearsal in
/-- One endpoint with its scripted surroundings. -/
structure Rehearsal where
  props : Props
  endpoint : Endpoint Link
  /-- Whether the consumer still holds the endpoint. -/
  owned : Bool := true
  /-- Milliseconds since the start. -/
  now : Nat := 0
  accepts : List Outcome := []
  listens : List (Option Failure) := []
  connects : List ConnectPlan := []
  acceptedLinks : Nat := 0
  connectedLinks : Nat := 0
  /-- The listener's own note whether it keeps the program alive. -/
  referenced : Bool := true
  listenerShut : Bool := false
  /-- When the delay ends that the accept loop waits out. -/
  alarm : Option Nat := none
  underWay : List UnderWay := []
  hand : Hand := .empty
  dispatcher : Option Dispatcher := none
  timeline : Array (Nat × Occurrence Link) := #[]

namespace Rehearsal

/-- Puts occurrences on the timeline. -/
def note (r : Rehearsal) (os : List (Occurrence Link)) : Rehearsal :=
  { r with timeline := os.foldl (fun t o => t.push (r.now, o)) r.timeline }

/-- Replaces the endpoint and puts on the timeline what happened. -/
def put (r : Rehearsal) (p : Endpoint Link × List (Occurrence Link)) : Rehearsal :=
  { r with endpoint := p.1 }.note p.2

/-- Whether the endpoint still exists: somebody holds it. -/
def exists? (r : Rehearsal) : Bool := r.owned || !r.underWay.isEmpty

def hasRef (r : Rehearsal) : Bool := r.endpoint.holdsListener && r.referenced

/-- Closes the endpoint. -/
def close (r : Rehearsal) : Rehearsal :=
  { r with listenerShut := r.listenerShut || r.endpoint.closesListener }.put
    (r.endpoint.close r.props.closeFailure)

/-- Does what a callback does besides taking note. -/
def react (r : Rehearsal) (callback : Callback) (reaction : Reaction) : Rehearsal :=
  let r := if reaction.closes then r.close else r
  match reaction.panics with
  | some payload => r.note [.panicked callback payload]
  | none => r

/-! ### Counting accepts -/

/-- How many accepts began at each instant of a timeline. -/
def acceptsPerInstant (timeline : List (Nat × Occurrence Link)) : List (Nat × Nat) :=
  (timeline.foldl count []).reverse
where
  count (acc : List (Nat × Nat)) : Nat × Occurrence Link → List (Nat × Nat)
    | (t, .acceptCalled) =>
      match acc with
      | (s, n) :: rest => if s = t then (s, n + 1) :: rest else (t, 1) :: acc
      | [] => [(t, 1)]
    | _ => acc

end Rehearsal

end LocalEndpoint
