import LocalEndpoint.Code
import LocalEndpoint.Config
import LocalEndpoint.Json.Decode
import LocalEndpoint.Json.Value
import LocalEndpoint.Role
import LocalEndpoint.Tally
import LocalEndpoint.Unix.Settings

/-! How configurations, counters and names stand in JSON: what each is written as, and how it is
    read. -/

namespace LocalEndpoint.Json

/-! ### Names -/

def decodeRule : Decoder BacklogRule := decodeNamed BacklogRule.all BacklogRule.name
def decodeCode : Decoder Code := decodeNamed Code.all Code.name
def decodeRole : Decoder Role := decodeNamed Role.all Role.name
def decodeLifecycle : Decoder Lifecycle := decodeNamed Lifecycle.all Lifecycle.tag
def decodeAccess : Decoder Access := decodeNamed Access.all Access.name

/-! ### Lengths of time -/

def encodeSpan (s : Span) : Value :=
  .record [("secs", .number s.secs.toNat), ("nanos", .number s.subsec.toNat)]

def spanFormat : RecordFormat (Option Size × Option UInt32) Span where
  fields :=
    [.ofOption "secs" decodeSize (·.1) (fun s a => (some a, s.2)),
      .ofOption "nanos" decodeWord (·.2) (fun s a => (s.1, some a))]
  strict := true
  start := (none, none)
  finish s := do
    let secs ← require "secs" s.1
    let nanos ← require "nanos" s.2
    match Span.ofParts? secs nanos with
    | some span => .ok span
    | none => .error .tooLong

/-! ### Timings -/

def encodeTiming (t : Timing) : Value :=
  .record [("initial_delay", encodeSpan t.initial), ("max_delay", encodeSpan t.maximum)]

def timingFormat : RecordFormat (Option Span × Option Span) Timing where
  fields :=
    [.ofOption "initial_delay" spanFormat.decode (·.1) (fun s a => (some a, s.2)),
      .ofOption "max_delay" spanFormat.decode (·.2) (fun s a => (s.1, some a))]
  start := (none, none)
  finish s := do
    let initial ← require "initial_delay" s.1
    let maximum ← require "max_delay" s.2
    .ok ⟨initial, maximum⟩

/-! ### Configurations -/

def encodeConfig (c : Config) : Value :=
  .record [("backoff", encodeTiming c.timing),
    ("backlog_strategy", .text (BacklogRule.name c.rule)),
    ("pending_instances", .number c.pendingInstances.toNat)]

/-- Each field that is absent has a default of its own. -/
def configFormat : RecordFormat Config.Overrides Config where
  fields :=
    [.ofOption "backoff" timingFormat.decode (·.timing) (fun s a => { s with timing := some a }),
      .ofOption "backlog_strategy" decodeRule (·.rule) (fun s a => { s with rule := some a }),
      .ofOption "pending_instances" decodeSize (·.pendingInstances)
        (fun s a => { s with pendingInstances := some a })]
  start := {}
  finish s := .ok
    { timing := s.timing.getD .standard
      rule := s.rule.getD .powerOfTwo
      pendingInstances := s.pendingInstances.getD defaultInstances }

/-! ### Counters -/

def encodeTally (t : Tally) : Value :=
  .record (Counter.all.map fun c => (c.name, .number (t.get c).toNat))

/-- The counters read so far. -/
abbrev PartialTally := List (Counter × Size)

def tallyFormat : RecordFormat PartialTally Tally where
  fields := Counter.all.map fun c =>
    .ofOption c.name decodeSize (fun s => s.lookup c) (fun s a => (c, a) :: s)
  start := []
  finish s := Counter.all.foldlM (fun t c => (require c.name (s.lookup c)).map (t.set c)) {}

/-! ### Settings of a provider -/

def encodeSettings (s : Unix.Settings) : Value :=
  .record [("remove_stale_socket", .bool s.removeStale),
    ("cleanup_on_close", .bool s.cleanupOnClose)]

def settingsFormat : RecordFormat (Option Bool × Option Bool) Unix.Settings where
  fields :=
    [.ofOption "remove_stale_socket" decodeBool (·.1) (fun s a => (some a, s.2)),
      .ofOption "cleanup_on_close" decodeBool (·.2) (fun s a => (s.1, some a))]
  start := (none, none)
  finish s := do
    let removeStale ← require "remove_stale_socket" s.1
    let cleanupOnClose ← require "cleanup_on_close" s.2
    .ok { removeStale, cleanupOnClose }

end LocalEndpoint.Json
