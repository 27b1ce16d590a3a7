import LocalEndpoint.Backlog
import LocalEndpoint.Retry

/-! What an endpoint can be told before it is used. -/

namespace LocalEndpoint

/-- Pending instances where nothing else is configured. -/
def defaultInstances : Size := 4

/-- Settings of an endpoint. -/
structure Config where
  timing : Timing := .standard
  rule : BacklogRule := .powerOfTwo
  pendingInstances : Size := defaultInstances
  deriving DecidableEq

/-- Single settings laid over a configuration; what is absent stays as it is. -/
structure Config.Overrides where
  timing : Option Timing := none
  rule : Option BacklogRule := none
  pendingInstances : Option Size := none

namespace Config

/-- The effective backlog for a request. -/
def effectiveBacklog (c : Config) (requested instances : Size) : Size :=
  c.rule.effective requested instances

/-- `c` with the given settings replaced. -/
def overlay (c : Config) (o : Overrides) : Config where
  timing := o.timing.getD c.timing
  rule := o.rule.getD c.rule
  pendingInstances := o.pendingInstances.getD c.pendingInstances

end Config

end LocalEndpoint
