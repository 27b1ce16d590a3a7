import LocalEndpoint.Endpoint.Calls
import LocalEndpoint.Endpoint.Loop
import LocalEndpoint.Unix.Host

/-! An endpoint on a host. The host's sockets answer what the endpoint asks; its listener is held by
    the endpoint until that is closed and by its accept loop until that has ended. -/

namespace LocalEndpoint.Unix

/-- An endpoint with the settings of its provider and the listener it opened. -/
structure Tenant where
  core : Endpoint Connection
  settings : Settings := {}
  listener : Option Nat := none

namespace Tenant

variable {F : Type}

/-- The listener, as long as the endpoint or its loop holds it. -/
def heldListener? (t : Tenant) : Option Nat :=
  if t.core.holdsListener || (t.core.loop.isSome && !t.core.loopEnded) then t.listener else none

/-- Whether the listener says that it keeps the program alive. -/
def hasRef (t : Tenant) (h : Host F) : Bool :=
  t.core.holdsListener && (t.listener.bind h.listener?).any (·.referenced)

/-! ### The accept loop -/

/-- Whether a delay that the loop waits out leads back to an accept. -/
def recovers (t : Tenant) : Bool :=
  match t.core.loop with
  | some l => t.core.napDelay?.isSome && !t.core.occupancy.exceeds l.backlog
  | none => false

/-- Runs the loop, up to `n` times, as long as its listener or its delay lets it go on. -/
def attendUpTo : Nat → Host F → Tenant → Host F × Tenant
  | 0, h, t => (h, t)
  | n + 1, h, t =>
    let t := { t with core := t.core.run.1 }
    if t.core.awaitsAccept then
      match t.listener.bind h.accept? with
      | some (h, outcome) => attendUpTo n h { t with core := t.core.resolve outcome }
      | none => (h, t)
    else if t.recovers then attendUpTo n h { t with core := t.core.ring }
    else (h, t)

/-- Runs the loop until it can only wait: it goes on once for each connection in the queue, once for
    a closed listener and once for a delay. -/
def attend (h : Host F) (t : Tenant) : Host F × Tenant :=
  attendUpTo ((t.listener.map h.queued).getD 0 + 3) h t

/-! ### Calls -/

variable [FileSystem F]

/-- The endpoint listens; the host is asked if the endpoint gets as far as asking. -/
def listen (t : Tenant) (h : Host F) (backlog : Size) :
    Host F × Tenant × Except EndpointError Code :=
  match t.core.listenTarget true backlog with
  | .error _ =>
    let (core, result, _) := t.core.listen true backlog (.error .listenerClosed)
    (h, { t with core }, result)
  | .ok (address, _) =>
    match h.listen t.settings address with
    | (h, .error kind) =>
      let (core, result, _) := t.core.listen true backlog (.error (.io (Host.faultOf kind)))
      (h, { t with core }, result)
    | (h, .ok id) =>
      let (core, result, _) := t.core.listen true backlog (.ok address)
      (h, { t with core, listener := some id }, result)

/-- The endpoint connects to a path, and its callback is told how that ended. -/
def connect (t : Tenant) (h : Host F) (path : String) :
    Host F × Tenant × List (Occurrence Connection) :=
  let attempt : Endpoint.Attempt := ⟨path, 0⟩
  if t.core.isClosed then (h, t, t.core.beginConnect attempt)
  else
    match h.connect path with
    | .error kind =>
      let (core, os) := t.core.finishConnect attempt (.error (.io (Host.faultOf kind)))
      (h, { t with core }, os)
    | .ok (h, c) =>
      let (core, os) := t.core.finishConnect attempt (.ok c)
      (h, { t with core }, os)

/-- The endpoint opens its address to other processes. -/
def fchmod (t : Tenant) (h : Host F) (bits : UInt32) : Host F × Code :=
  match t.core.chmodTarget? bits with
  | none => (h, (t.core.fchmod bits none).1)
  | some (path, permissions) =>
    match FileSystem.chmod h.files path permissions.toNat with
    | .ok files => ({ h with files }, (t.core.fchmod bits none).1)
    | .error kind => (h, (t.core.fchmod bits (some (Host.faultOf kind))).1)

/-- The endpoint closes; a server's listener is closed with it. -/
def close (t : Tenant) (h : Host F) : Host F × Tenant :=
  match t.core.closesListener, t.listener with
  | true, some id =>
    let (h, answer) := h.close id
    (h, { t with core := (t.core.close answer).1 })
  | _, _ => (h, { t with core := (t.core.close none).1 })

end Tenant

end LocalEndpoint.Unix
