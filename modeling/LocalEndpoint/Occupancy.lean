import LocalEndpoint.Size

/-! How many delivered connections are still alive. -/

namespace LocalEndpoint

/-- The number of live connections. -/
structure Occupancy where
  count : Size := 0
  deriving DecidableEq

namespace Occupancy

/-- One connection more. -/
def enter (o : Occupancy) : Occupancy := ⟨Size.up o.count⟩

/-- One connection fewer, if there is one. -/
def release (o : Occupancy) : Occupancy := ⟨Size.down o.count⟩

/-- Whether there are more connections than `backlog`; exactly `backlog` still admits one. -/
def exceeds (o : Occupancy) (backlog : Size) : Bool := decide (backlog < o.count)

/-- No connections. -/
def clear (_ : Occupancy) : Occupancy := {}

end Occupancy

end LocalEndpoint
