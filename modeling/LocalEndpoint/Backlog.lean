import LocalEndpoint.Size

/-! How many connections may wait, derived from the number that `listen` asks for. -/

namespace LocalEndpoint

/-- How the effective backlog follows from the requested one. -/
inductive BacklogRule where
  /-- The least power of two above the request. -/
  | powerOfTwo
  /-- The configured number of pending instances, whatever is requested. -/
  | pendingInstances
  deriving DecidableEq

/-- The least power of two that is not below `n`: one above the highest bit of `n - 1`. -/
def leastPowerOfTwo (n : Nat) : Nat := if n ≤ 1 then 1 else 1 <<< ((n - 1).log2 + 1)

namespace BacklogRule

def all : List BacklogRule := [.powerOfTwo, .pendingInstances]

def name : BacklogRule → String
  | .powerOfTwo => "power_of_two"
  | .pendingInstances => "pending_instances"

/-- The effective backlog. A power of two outside the range becomes the largest count. -/
def effective : BacklogRule → Size → Size → Size
  | .powerOfTwo, requested, _ =>
    let p := leastPowerOfTwo (Size.up requested).toNat
    if p < UInt64.size then UInt64.ofNat p else Size.top
  | .pendingInstances, _, instances => instances

end BacklogRule

end LocalEndpoint
