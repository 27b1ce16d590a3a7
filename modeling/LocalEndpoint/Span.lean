import LocalEndpoint.Size

/-! Lengths of time, exact to the nanosecond, up to 2⁶⁴ - 1 seconds and 999999999 nanoseconds.
    A span is its number of nanoseconds; seconds and the rest of a second are views of it, and
    `ofParts?` is their inverse (`ofParts?_parts`). -/

namespace LocalEndpoint

/-- A length of time in nanoseconds. -/
structure Span where
  nanos : Nat
  nanos_lt : nanos < UInt64.size * 1000000000 := by decide
  deriving DecidableEq

namespace Span

@[ext] theorem ext {s t : Span} (h : s.nanos = t.nanos) : s = t := by
  cases s; cases t; cases h; rfl

/-- The longest span. -/
def longest : Span := ⟨UInt64.size * 1000000000 - 1, by decide⟩

/-- `n` nanoseconds, or the longest span if that is less. -/
def clamp (n : Nat) : Span where
  nanos := min n longest.nanos
  nanos_lt := Nat.lt_of_le_of_lt (Nat.min_le_right n longest.nanos) longest.nanos_lt

/-- `ms` milliseconds. -/
def ofMillis (ms : Nat) : Span := clamp (ms * 1000000)

/-- `s` seconds. -/
def ofSecs (s : Nat) : Span := clamp (s * 1000000000)

/-- Twice as long, up to the longest span. -/
def double (s : Span) : Span := clamp (2 * s.nanos)

/-- The longer of two spans. -/
def max (s t : Span) : Span := if s.nanos ≤ t.nanos then t else s

/-- The shorter of two spans. -/
def min (s t : Span) : Span := if s.nanos ≤ t.nanos then s else t

/-! ### Seconds and the rest of a second -/

/-- Whole seconds. -/
def secs (s : Span) : Size := UInt64.ofNat (s.nanos / 1000000000)

/-- Nanoseconds beyond the last whole second. -/
def subsec (s : Span) : UInt32 := UInt32.ofNat (s.nanos % 1000000000)

/-- Seconds and nanoseconds together, where a second or more of nanoseconds carries; `none` when
    the carry leaves the range. -/
def ofParts? (secs : Size) (nanos : UInt32) : Option Span :=
  let n := secs.toNat * 1000000000 + nanos.toNat
  if h : n < UInt64.size * 1000000000 then some ⟨n, h⟩ else none

theorem toNat_secs (s : Span) : s.secs.toNat = s.nanos / 1000000000 := by
  have h := s.nanos_lt
  exact UInt64.toNat_ofNat_of_lt' (by rw [UInt64.size] at h ⊢; omega)

theorem toNat_subsec (s : Span) : s.subsec.toNat = s.nanos % 1000000000 :=
  UInt32.toNat_ofNat_of_lt' (by rw [UInt32.size]; omega)

theorem ofParts?_parts (s : Span) : ofParts? s.secs s.subsec = some s := by
  have h : s.secs.toNat * 1000000000 + s.subsec.toNat = s.nanos := by
    rw [toNat_secs, toNat_subsec]; omega
  simp only [ofParts?, h]
  rw [dif_pos s.nanos_lt]

theorem ofParts?_eq_none_iff (secs : Size) (nanos : UInt32) :
    ofParts? secs nanos = none ↔ UInt64.size ≤ secs.toNat + nanos.toNat / 1000000000 := by
  simp only [ofParts?, UInt64.size]
  split <;> simp <;> omega

/-! ### Text -/

/-- The digits of `n` in base ten, at least `width` of them. -/
def padded (width n : Nat) : String :=
  let digits := toString n
  String.ofList (List.replicate (width - digits.length) '0') ++ digits

/-- `whole` and a fraction of `width` digits, without the fraction's trailing zeros. -/
def decimal (whole fraction width : Nat) : String :=
  let digits := ((padded width fraction).toList.reverse.dropWhile (· == '0')).reverse
  if digits.isEmpty then toString whole else toString whole ++ "." ++ String.ofList digits

/-- The span in the largest unit it holds one of: `1.5s`, `20ms`, `3µs`, `7ns`. -/
def text (s : Span) : String :=
  if 1000000000 ≤ s.nanos then decimal (s.nanos / 1000000000) (s.nanos % 1000000000) 9 ++ "s"
  else if 1000000 ≤ s.nanos then decimal (s.nanos / 1000000) (s.nanos % 1000000) 6 ++ "ms"
  else if 1000 ≤ s.nanos then decimal (s.nanos / 1000) (s.nanos % 1000) 3 ++ "µs"
  else toString s.nanos ++ "ns"

end Span

end LocalEndpoint
