import LocalEndpoint.Code
import LocalEndpoint.Role

/-! Connections as consumers receive them: with the role they play and the local address they had
    when they were wrapped, one to an event. -/

namespace LocalEndpoint

/-- Connections that can tell their local address. -/
class Located (C : Type) where
  localAddress : C → Option String

/-- A connection, its role, and its local address at the time it was wrapped. -/
structure Handle (C : Type) where
  role : Role
  address : Option String
  connection : C
  deriving DecidableEq

namespace Handle

variable {C : Type}

/-- Wraps a connection in a role. -/
def wrap [Located C] (role : Role) (c : C) : Handle C := ⟨role, Located.localAddress c, c⟩

/-- Wraps a connection that a listener with this control-message flag accepted. -/
def accepted [Located C] (ipc : Bool) (c : C) : Handle C := wrap (Role.accepted ipc) c

/-- Changes the connection; the address stays what it was. -/
def modify (f : C → C) (h : Handle C) : Handle C := { h with connection := f h.connection }

def isIpc (h : Handle C) : Bool := h.role.isIpc

end Handle

/-- What the accept loop reports: a connection, or the code of a failure. -/
structure Event (C : Type) where
  code : Code
  handle : Option (Handle C)
  deriving DecidableEq

namespace Event

variable {C : Type}

def accepted (h : Handle C) : Event C := ⟨.ok, some h⟩

def failed (code : Code) : Event C := ⟨code, none⟩

end Event

end LocalEndpoint
