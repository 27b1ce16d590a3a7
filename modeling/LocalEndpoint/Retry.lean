import LocalEndpoint.Span

/-! How long the accept loop waits before it tries again. The first wait is the configured initial
    delay; each further one is twice the last, up to the configured maximum, until a success starts
    the sequence over. Timings are normalized first: both delays at least a millisecond, and the
    initial one not above the maximum. -/

namespace LocalEndpoint

/-- Configured delays, in any order and of any length. -/
structure Timing where
  initial : Span
  maximum : Span
  deriving DecidableEq

namespace Timing

/-- Ten milliseconds up to a second. -/
def standard : Timing := ⟨Span.ofMillis 10, Span.ofSecs 1⟩

/-- A millisecond up to a tenth of a second. -/
def fast : Timing := ⟨Span.ofMillis 1, Span.ofMillis 100⟩

/-- Fifty milliseconds up to ten seconds. -/
def patient : Timing := ⟨Span.ofMillis 50, Span.ofSecs 10⟩

/-- Both delays at least a millisecond and in order. -/
def normalized (t : Timing) : Timing :=
  let a := t.initial.max (Span.ofMillis 1)
  let b := t.maximum.max (Span.ofMillis 1)
  if b.nanos < a.nanos then ⟨b, a⟩ else ⟨a, b⟩

end Timing

/-- A normalized timing and the last delay handed out since the start or the last reset. -/
structure Retry where
  timing : Timing
  current : Option Span
  deriving DecidableEq

namespace Retry

/-- No delay handed out yet. -/
def ofTiming (t : Timing) : Retry := ⟨t.normalized, none⟩

/-- The next delay. -/
def next (r : Retry) : Span :=
  match r.current with
  | none => r.timing.initial
  | some s => s.double.min r.timing.maximum

/-- Hands out the next delay. -/
def advance (r : Retry) : Retry := { r with current := some r.next }

/-- Starts the sequence over. -/
def reset (r : Retry) : Retry := { r with current := none }

end Retry

end LocalEndpoint
