import LocalEndpoint.Endpoint.Basic
import LocalEndpoint.Occurrence

/-! What callers do with an endpoint. Where an operation asks a collaborator, the collaborator's
    answer is an argument; it counts only if the operation gets as far as asking. -/

namespace LocalEndpoint

namespace Endpoint

variable {C : Type}

/-! ### Addresses -/

/-- Records the address that `listen` will use. Refused once closed and while there is a
    listener. -/
def bind (e : Endpoint C) (name : String) : Endpoint C × Code :=
  if e.isClosed || e.holdsListener then (e, .invalidArgument)
  else
    ({ e with
        address := some name
        state := if e.state = .idle then .bound else e.state }, .ok)

/-- What `fchmod` asks the permission layer for, if it asks at all. -/
def chmodTarget? (e : Endpoint C) (bits : UInt32) : Option (String × UInt32) :=
  match Access.ofBits? bits, e.address with
  | some access, some path => some (path, access.permissions)
  | _, _ => none

/-- Opens the recorded address to other processes; `answer` is the permission layer's failure. -/
def fchmod (e : Endpoint C) (bits : UInt32) (answer : Option Fault) : Code × List (Occurrence C) :=
  match e.chmodTarget? bits with
  | none => (.invalidArgument, [])
  | some (path, permissions) =>
    match answer with
    | none => (.ok, [.chmodCalled path permissions])
    | some fault =>
      (Code.forChmod fault, [.chmodCalled path permissions, .chmodFailed path fault])

/-! ### Connecting -/

/-- One call of `connect`. -/
structure Attempt where
  address : String
  /-- The caller's mark, given back with the outcome. -/
  token : Nat
  deriving DecidableEq

/-- A connect begins: it ends at once on a closed endpoint, else the provider is asked. -/
def beginConnect (e : Endpoint C) (a : Attempt) : List (Occurrence C) :=
  if e.isClosed then [.reported a.token .invalidArgument] else [.connectCalled a.address]

/-- Attaches a connection and takes over its local address, if it has one. -/
def attach (e : Endpoint C) (h : Handle C) : Endpoint C :=
  { e with
    address := h.address.or e.address
    connection := some h
    state := if e.state = .idle then .bound else e.state
    tally := e.tally.bump .connects }

/-- A connect ends with the provider's outcome. -/
def finishConnect [Located C] (e : Endpoint C) (a : Attempt) (outcome : Except Failure C) :
    Endpoint C × List (Occurrence C) :=
  match outcome with
  | .error f =>
    (e.bump .failedConnects, [.connectFailed a.address f, .reported a.token (Code.forConnect f)])
  | .ok c =>
    if e.isClosed then (e, [.connectAborted, .reported a.token .connectionAborted])
    else (e.attach (Handle.wrap e.role c), [.connected a.address, .reported a.token .ok])

/-- Hands over the attached connection. -/
def takeConnection (e : Endpoint C) : Endpoint C × Option (Handle C) :=
  ({ e with connection := none }, e.connection)

/-! ### Listening -/

/-- Why a call of `listen` does not reach the provider. -/
inductive Refusal where
  | closed
  | noRuntime
  | alreadyListening
  | unaddressed
  deriving DecidableEq

/-- What `listen` asks the provider for, or the first reason not to ask. -/
def listenTarget (e : Endpoint C) (inRuntime : Bool) (requested : Size) :
    Except Refusal (String × Size) :=
  if e.isClosed then .error .closed
  else if !inRuntime then .error .noRuntime
  else if e.state.isListening then .error .alreadyListening
  else
    match e.address with
    | none => .error .unaddressed
    | some address => .ok (address, e.config.effectiveBacklog requested e.pendingInstances)

/-- A listener is open at `resolved`: the channel and the accept loop come into being. -/
def startListening (e : Endpoint C) (resolved : String) (backlog : Size) : Endpoint C :=
  { e with
    address := some resolved
    backlog := some backlog
    holdsListener := true
    channel := some (.ofBacklog backlog)
    state := .listening
    loop := some ⟨backlog, .starting⟩ }

/-- Opens the listener; `answer` is its resolved address or the provider's failure. -/
def listen (e : Endpoint C) (inRuntime : Bool) (requested : Size)
    (answer : Except Failure String) :
    Endpoint C × Except EndpointError Code × List (Occurrence C) :=
  match e.listenTarget inRuntime requested with
  | .error .closed => (e, .error .closed, [])
  | .error .noRuntime => (e, .error .noRuntime, [])
  | .error .alreadyListening => (e, .ok .invalidArgument, [.alreadyListening])
  | .error .unaddressed => (e, .ok .invalidArgument, [.unaddressed])
  | .ok (address, backlog) =>
    match answer with
    | .error f =>
      match Code.forListen f with
      | .report code =>
        (e, .ok code, [.listenCalled address backlog, .listenFailed address f code])
      | .raise => (e, .error (.permissionDenied address f), [.listenCalled address backlog])
    | .ok resolved =>
      (e.startListening resolved backlog, .ok .ok,
        [.listenCalled address backlog, .listening address backlog])

/-- Hands over the receiving end of the channel, once. -/
def takeReceiver (e : Endpoint C) : Endpoint C × Bool :=
  match e.channel with
  | some ch =>
    if ch.custody = .stored then ({ e with channel := some { ch with custody := .taken } }, true)
    else (e, false)
  | none => (e, false)

/-- Sets the number of pending instances for the next `listen`. -/
def setPendingInstances (e : Endpoint C) (n : Size) : Endpoint C := { e with pendingInstances := n }

/-- A delivered connection has been closed by its owner. -/
def release (e : Endpoint C) : Endpoint C := { e with occupancy := e.occupancy.release }

/-- Asks the listener to keep the program alive. -/
def ref (e : Endpoint C) : List (Occurrence C) := if e.holdsListener then [.refCalled] else []

/-- Asks the listener no longer to keep the program alive. -/
def unref (e : Endpoint C) : List (Occurrence C) := if e.holdsListener then [.unrefCalled] else []

/-! ### Receiving -/

/-- One look at the channel, whether or not the endpoint is closed. -/
def poll (e : Endpoint C) : Receipt (Event C) × Endpoint C :=
  match e.channel with
  | some ch => ((ch.receive).1, { e with channel := some (ch.receive).2 })
  | none => (.ended, e)

/-- One attempt to receive: nothing any more from a closed endpoint, else the oldest event. -/
def receive (e : Endpoint C) : Receipt (Event C) × Endpoint C :=
  if e.isClosed then (.ended, e) else e.poll

/-- The consumer drops the receiving end. -/
def dropReceiver (e : Endpoint C) : Endpoint C := e.onChannel (·.abandon)

/-! ### Closing -/

/-- Whether a close would ask the listener to close. -/
def closesListener (e : Endpoint C) : Bool :=
  !e.isClosed && e.holdsListener && e.role = .server

/-- Everything that ends with the endpoint ends; a receiving end that nobody took is dropped. -/
def shut (e : Endpoint C) : Endpoint C :=
  { e with
    state := .closed
    address := none
    backlog := none
    occupancy := e.occupancy.clear
    retry := e.retry.reset
    connection := none
    channel := e.channel.map fun ch => if ch.custody = .stored then ch.abandon else ch
    holdsListener := false }

/-- Closes the endpoint, and a server's listener with it; `answer` is the listener's failure to
    close. A second close does nothing. -/
def close (e : Endpoint C) (answer : Option Failure) : Endpoint C × List (Occurrence C) :=
  if e.isClosed then (e, [])
  else
    let asked : List (Occurrence C) :=
      if e.closesListener then
        match answer with
        | some (.io fault) => [.closeCalled, .closeFailed (.io fault)]
        | _ => [.closeCalled]
      else []
    (e.shut, asked ++ [.closed e.role])

end Endpoint

end LocalEndpoint
