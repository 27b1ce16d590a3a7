import LocalEndpoint.Unix.Tenant

/-! A session: somebody who uses a host's sockets and keeps what they give under names. Whatever no
    name, accept or endpoint holds any more is let go after each step. -/

namespace LocalEndpoint.Unix

/-- Things by name. -/
abbrev Names (α : Type) := Table String α

/-- An accept that runs by itself, with its outcome once it has one. -/
structure PendingAccept where
  listener : Nat
  outcome : Option (Except Failure Connection) := none

/-- The connection of a pending accept that has one. -/
def PendingAccept.connection? (p : PendingAccept) : Option Connection :=
  match p.outcome with
  | some (.ok c) => some c
  | _ => none

/-- One user of a host: named listeners, connections, endpoints, receivers and pending accepts. -/
structure Session (F : Type) where
  host : Host F
  /-- The settings of the user's own provider. -/
  settings : Settings := {}
  listeners : Names Nat := {}
  connections : Names Connection := {}
  /-- Every endpoint that still works, by number. -/
  tenants : Table Nat Tenant := {}
  endpoints : Names Nat := {}
  /-- Whose receiver the user holds. -/
  receivers : Names Nat := {}
  accepts : Names PendingAccept := {}
  /-- A number that no endpoint has had. -/
  fresh : Nat := 0

namespace Session

variable {F : Type}

/-! ### Endpoints -/

def tenant? (s : Session F) (id : Nat) : Option Tenant := s.tenants.get? id

/-- Replaces an endpoint, or adds it. -/
def setTenant (s : Session F) (id : Nat) (t : Tenant) : Session F :=
  { s with tenants := s.tenants.put id t }

/-- The endpoint of some name, with its number. -/
def named? (s : Session F) (name : String) : Option (Nat × Tenant) := do
  let id ← s.endpoints.get? name
  return (id, ← s.tenant? id)

/-! ### What is held -/

def heldListeners (s : Session F) : List Nat :=
  s.listeners.values ++ s.accepts.values.map (·.listener)
    ++ s.tenants.values.filterMap (·.heldListener?)

def heldConnections (s : Session F) : List Connection :=
  s.connections.values ++ s.accepts.values.filterMap (·.connection?)
    ++ s.tenants.values.flatMap (·.core.connections)

/-! ### Settling -/

/-- Runs every endpoint's accept loop until it can only wait. -/
def attend (s : Session F) : Session F :=
  s.tenants.rows.foldl (fun s (id, t) =>
    let (host, t) := t.attend s.host
    { s with host }.setTenant id t) s

/-- Ends the pending accepts that can end. -/
def endAccepts (s : Session F) : Session F :=
  s.accepts.rows.foldl (fun s (name, p) =>
    match p.outcome, s.host.accept? p.listener with
    | none, some (host, outcome) =>
      { s with host, accepts := s.accepts.put name { p with outcome := some outcome } }
    | _, _ => s) s

variable [FileSystem F]

/-- Lets go of what nobody holds. -/
def letGo (s : Session F) : Session F :=
  { s with host := s.host.keep s.heldListeners (s.heldConnections.map (·.id)) }

/-- Lets everything happen that can happen by itself. -/
def settle (s : Session F) : Session F := s.attend.endAccepts.letGo

/-- The end of a session: the user lets go of everything. -/
def finish (s : Session F) : Host F := s.host.keep [] []

end Session

end LocalEndpoint.Unix
