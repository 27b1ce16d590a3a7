import LocalEndpoint.Fifo
import LocalEndpoint.Size

/-! The bounded queue between the accept loop and the consumer. The sending end belongs to the
    loop; the receiving end waits in the endpoint until the consumer takes it. -/

namespace LocalEndpoint

/-- Where the receiving end is. -/
inductive Custody where
  /-- In the endpoint. -/
  | stored
  /-- With the consumer. -/
  | taken
  /-- Nowhere: it has been dropped. -/
  | dropped
  deriving DecidableEq

/-- A bounded queue with the state of its two ends. -/
structure Channel (α : Type) where
  capacity : Nat
  buffer : Fifo α := .empty
  custody : Custody := .stored
  /-- Whether the sending end still exists. -/
  sending : Bool := true

/-- What one look at a channel gives. -/
inductive Receipt (α : Type) where
  | item (a : α)
  /-- Nothing yet. -/
  | pending
  /-- Nothing, and nothing to come. -/
  | ended

namespace Channel

variable {α : Type}

/-- The largest capacity. -/
def maxCapacity : Nat := 65536

/-- A channel for a backlog: as large, but between one and `maxCapacity`. -/
def ofBacklog (backlog : Size) : Channel α :=
  { capacity := max 1 (min backlog.toNat maxCapacity) }

/-- Whether the receiving end is gone. -/
def abandoned (c : Channel α) : Bool := c.custody == .dropped

def hasRoom (c : Channel α) : Bool := c.buffer.size < c.capacity

def send (c : Channel α) (a : α) : Channel α := { c with buffer := c.buffer.push a }

/-- Drops the sending end. -/
def hangUp (c : Channel α) : Channel α := { c with sending := false }

/-- Drops the receiving end, and with it what it has not received. -/
def abandon (c : Channel α) : Channel α := { c with custody := .dropped, buffer := .empty }

/-- Takes the oldest element, if there is one. -/
def receive (c : Channel α) : Receipt α × Channel α :=
  match c.buffer.pop? with
  | some (a, rest) => (.item a, { c with buffer := rest })
  | none => (if c.sending then .pending else .ended, c)

end Channel

end LocalEndpoint
