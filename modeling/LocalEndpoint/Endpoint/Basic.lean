import LocalEndpoint.Channel
import LocalEndpoint.Config
import LocalEndpoint.Handle
import LocalEndpoint.Occupancy
import LocalEndpoint.Failure
import LocalEndpoint.Tally

/-! An endpoint: what its callers see, the channel its events go through, and its accept loop with
    the point the loop has reached. Each point of the loop stands before one indivisible piece of
    its work, so any interleaving with callers is a sequence of such pieces. -/

namespace LocalEndpoint

/-- The piece of work that an accept loop does next. -/
inductive Station (C : Type) where
  /-- Announce itself. -/
  | starting
  /-- Look at the number of connections. -/
  | cycling
  /-- Begin an accept. -/
  | calling
  /-- None: an accept is pending. -/
  | accepting
  /-- Take note of an accept's outcome. -/
  | settling (outcome : Except Failure C)
  /-- Look whether the endpoint is closed before it reports; `retries` tells whether the event is a
      failure, after which the loop waits. -/
  | offering (event : Event C) (retries : Bool)
  /-- Look for room in the channel. -/
  | reserving (event : Event C) (retries : Bool)
  /-- Count and send the event. -/
  | admitting (event : Event C) (retries : Bool)
  /-- Take the next delay. -/
  | receding
  /-- Count the wait and begin it. -/
  | counting (delay : Span)
  /-- Look whether the endpoint is closed; `rung` tells whether the delay is over. -/
  | napping (delay : Span) (rung : Bool)
  /-- Look whether the delay is over. -/
  | timing (delay : Span) (rung : Bool)
  /-- Look once more whether the endpoint is closed. -/
  | waking
  /-- Let go of channel and listener. -/
  | stopping
  /-- None: the loop has ended. -/
  | stopped

/-- The connection that a loop has accepted and not yet sent. -/
def Station.connection? {C : Type} : Station C → Option C
  | .settling (.ok c) => some c
  | .offering event _ | .reserving event _ | .admitting event _ => event.handle.map (·.connection)
  | _ => none

/-- A running accept loop: the backlog it was started with and its next piece of work. -/
structure AcceptLoop (C : Type) where
  backlog : Size
  station : Station C

/-- A local socket endpoint over connections of type `C`. -/
structure Endpoint (C : Type) where
  role : Role
  ipc : Bool
  config : Config
  state : Lifecycle := .idle
  address : Option String := none
  backlog : Option Size := none
  pendingInstances : Size
  occupancy : Occupancy := {}
  retry : Retry
  /-- Whether the endpoint holds the listener. -/
  holdsListener : Bool := false
  /-- The connection made by the last successful connect. -/
  connection : Option (Handle C) := none
  tally : Tally := {}
  channel : Option (Channel (Event C)) := none
  loop : Option (AcceptLoop C) := none

namespace Endpoint

variable {C : Type}

/-- An idle endpoint. -/
def create (role : Role) (ipc : Bool) (config : Config) : Endpoint C :=
  { role, ipc, config, pendingInstances := config.pendingInstances,
    retry := Retry.ofTiming config.timing }

def isClosed (e : Endpoint C) : Bool := e.state.isClosed

def count (e : Endpoint C) : Size := e.occupancy.count

/-- The last delay of the accept loop since it started or an accept succeeded. -/
def currentBackoff (e : Endpoint C) : Option Span := e.retry.current

/-- Whether nobody can receive any more. -/
def receiverGone (e : Endpoint C) : Bool :=
  match e.channel with
  | some ch => ch.abandoned
  | none => true

def hasRoom (e : Endpoint C) : Bool :=
  match e.channel with
  | some ch => ch.hasRoom
  | none => false

/-- How many events have been sent and not received. -/
def buffered (e : Endpoint C) : Nat :=
  match e.channel with
  | some ch => ch.buffer.size
  | none => 0

/-- Changes the channel, if there is one. -/
def onChannel (e : Endpoint C) (f : Channel (Event C) → Channel (Event C)) : Endpoint C :=
  { e with channel := e.channel.map f }

/-- The connections that the endpoint holds: the attached one, those in the channel, and the one
    that its loop is about to send. -/
def connections (e : Endpoint C) : List C :=
  (e.connection.map (·.connection)).toList
    ++ ((e.channel.map (·.buffer.toList)).getD []).filterMap (·.handle.map (·.connection))
    ++ (e.loop.bind (·.station.connection?)).toList

/-- Counts one more of `c`. -/
def bump (e : Endpoint C) (c : Counter) : Endpoint C := { e with tally := e.tally.bump c }

end Endpoint

end LocalEndpoint
