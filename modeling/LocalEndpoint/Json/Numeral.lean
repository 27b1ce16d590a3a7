import LocalEndpoint.Size

/-! Numbers as JSON writes them, and what kind of number each denotes: a count that fits a machine
    word, a negative integer of that width, any other number within the range of double precision,
    or one beyond it. -/

namespace LocalEndpoint.Json

/-- A number as it is written, by the digits of its parts. -/
structure Numeral where
  negative : Bool := false
  whole : List Nat
  fraction : Option (List Nat) := none
  /-- The exponent's digits, and whether it is negative. -/
  exponent : Option (Bool × List Nat) := none
  deriving DecidableEq

/-- What a numeral denotes, as far as readers of counts can tell. -/
inductive NumberKind where
  | count (n : Size)
  /-- An integer below zero, at least -2⁶³. -/
  | negative
  /-- A number in double precision. -/
  | real
  /-- A number too large for double precision. -/
  | tooLarge
  deriving DecidableEq

/-- The number that digits denote in base ten. -/
def ofDigits (ds : List Nat) : Nat := ds.foldl (fun n d => n * 10 + d) 0

/-! ### The range of double precision -/

/-- `n` rounded to 53 significant bits, a half to the even neighbour. -/
def roundToDouble (n : Nat) : Nat :=
  let unit := Nat.pow 2 (n.log2 + 1 - 53)
  let q := n / unit
  let r := n % unit
  (if unit < 2 * r || (2 * r = unit && q % 2 = 1) then q + 1 else q) * unit

/-- Where rounding leaves the range: halfway from the largest double to the next power of two. -/
def doubleLimit : Nat := Nat.pow 2 1024 - Nat.pow 2 970

/-- A number scaled by a power of ten. -/
structure Scaled where
  significand : Nat := 0
  power : Int := 0

/-- Whether the product of the rounded significand and the rounded power leaves the range. -/
def Scaled.tooLarge (s : Scaled) : Bool :=
  s.significand != 0 && 0 ≤ s.power &&
    (308 < s.power ||
      doubleLimit ≤ roundToDouble s.significand * roundToDouble (Nat.pow 10 s.power.toNat))

/-- Takes one more digit into the significand, unless it would outgrow a word. -/
def Scaled.take? (s : Scaled) (d : Nat) (power : Int) : Option Scaled :=
  let n := s.significand * 10 + d
  if n < UInt64.size then some ⟨n, power⟩ else none

/-- Digits before the point: those after the first that does not fit only scale. -/
def Scaled.takeWhole (s : Scaled) : List Nat → Scaled
  | [] => s
  | d :: ds =>
    match s.take? d s.power with
    | some t => t.takeWhole ds
    | none => { s with power := s.power + (ds.length + 1) }

/-- Digits after the point: those after the first that does not fit are dropped. -/
def Scaled.takeFraction (s : Scaled) : List Nat → Scaled
  | [] => s
  | d :: ds =>
    match s.take? d (s.power - 1) with
    | some t => t.takeFraction ds
    | none => s

namespace Numeral

/-- The numeral as a significand and a power of ten. -/
def scaled (n : Numeral) : Scaled :=
  let s := (({} : Scaled).takeWhole n.whole).takeFraction (n.fraction.getD [])
  match n.exponent with
  | some (true, ds) => { s with power := s.power - ofDigits ds }
  | some (false, ds) => { s with power := s.power + ofDigits ds }
  | none => s

def isInteger (n : Numeral) : Bool := n.fraction.isNone && n.exponent.isNone

/-- Minus zero and integers that do not fit are numbers in double precision. -/
def kind (n : Numeral) : NumberKind :=
  let whole := ofDigits n.whole
  if n.isInteger && !n.negative && whole < UInt64.size then .count (UInt64.ofNat whole)
  else if n.isInteger && n.negative && 0 < whole && whole ≤ Nat.pow 2 63 then .negative
  else if n.scaled.tooLarge then .tooLarge
  else .real

end Numeral

/-! ### Reading numerals -/

/-- The value of a digit character. -/
def digitValue (c : Char) : Nat := c.toNat - '0'.toNat

/-- The leading digits and what follows them. -/
def digits (cs : List Char) : List Nat × List Char :=
  ((cs.takeWhile Char.isDigit).map digitValue, cs.dropWhile Char.isDigit)

/-- Digits, of which there must be one. -/
def someDigits (cs : List Char) : Option (List Nat × List Char) :=
  match digits cs with
  | ([], _) => none
  | p => some p

/-- A point and digits, or nothing. -/
def fractionPart (cs : List Char) : Option (Option (List Nat) × List Char) :=
  match cs with
  | '.' :: r => (someDigits r).map fun (ds, r) => (some ds, r)
  | _ => some (none, cs)

/-- The digits of an exponent after its sign, if it has one. -/
def signedDigits (cs : List Char) : Option ((Bool × List Nat) × List Char) :=
  match cs with
  | '-' :: r => (someDigits r).map fun (ds, r) => ((true, ds), r)
  | '+' :: r => (someDigits r).map fun (ds, r) => ((false, ds), r)
  | _ => (someDigits cs).map fun (ds, r) => ((false, ds), r)

/-- An exponent, or nothing. -/
def exponentPart (cs : List Char) : Option (Option (Bool × List Nat) × List Char) :=
  match cs with
  | 'e' :: r => (signedDigits r).map fun (e, r) => (some e, r)
  | 'E' :: r => (signedDigits r).map fun (e, r) => (some e, r)
  | _ => some (none, cs)

/-- A numeral without its sign. Only zero starts with a zero. -/
def unsigned (negative : Bool) (cs : List Char) : Option (Numeral × List Char) := do
  let (whole, r) ← someDigits cs
  if whole.head? = some 0 && 1 < whole.length then none
  else
    let (fraction, r) ← fractionPart r
    let (exponent, r) ← exponentPart r
    some ({ negative, whole, fraction, exponent }, r)

/-- The numeral that the characters start with, and what follows it. -/
def readNumeral (cs : List Char) : Option (Numeral × List Char) :=
  match cs with
  | '-' :: r => unsigned true r
  | _ => unsigned false cs

/-! ### Reading shortens -/

theorem length_someDigits_lt {cs : List Char} {p : List Nat × List Char}
    (h : someDigits cs = some p) : p.2.length < cs.length := by
  unfold someDigits at h
  split at h
  · simp at h
  · next hne =>
    cases h
    have hsplit : (cs.takeWhile Char.isDigit).length + (cs.dropWhile Char.isDigit).length =
        cs.length := by
      rw [← List.length_append, List.takeWhile_append_dropWhile]
    have hpos : (cs.takeWhile Char.isDigit).length ≠ 0 := by
      intro h0
      exact hne (cs.dropWhile Char.isDigit) (by
        simp only [digits, List.length_eq_zero_iff.1 h0, List.map_nil])
    simp only [digits]
    omega

theorem length_fractionPart_le {cs : List Char} {p : Option (List Nat) × List Char}
    (h : fractionPart cs = some p) : p.2.length ≤ cs.length := by
  unfold fractionPart at h
  split at h
  · obtain ⟨q, hq, rfl⟩ := Option.map_eq_some_iff.1 h
    have := length_someDigits_lt hq
    simp only [List.length_cons]
    omega
  · cases h; exact Nat.le_refl _

theorem length_signedDigits_le {cs : List Char} {p : (Bool × List Nat) × List Char}
    (h : signedDigits cs = some p) : p.2.length ≤ cs.length := by
  unfold signedDigits at h
  split at h <;>
  · obtain ⟨q, hq, rfl⟩ := Option.map_eq_some_iff.1 h
    have := length_someDigits_lt hq
    simp only [List.length_cons]
    omega

theorem length_exponentPart_le {cs : List Char} {p : Option (Bool × List Nat) × List Char}
    (h : exponentPart cs = some p) : p.2.length ≤ cs.length := by
  unfold exponentPart at h
  split at h
  · obtain ⟨q, hq, rfl⟩ := Option.map_eq_some_iff.1 h
    have := length_signedDigits_le hq
    simp only [List.length_cons]
    omega
  · obtain ⟨q, hq, rfl⟩ := Option.map_eq_some_iff.1 h
    have := length_signedDigits_le hq
    simp only [List.length_cons]
    omega
  · cases h; exact Nat.le_refl _

theorem length_unsigned_lt {negative : Bool} {cs : List Char} {p : Numeral × List Char}
    (h : unsigned negative cs = some p) : p.2.length < cs.length := by
  simp only [unsigned, Option.bind_eq_bind, Option.bind_eq_some_iff] at h
  obtain ⟨⟨whole, r₁⟩, h₁, h⟩ := h
  split at h
  · simp at h
  · obtain ⟨⟨fraction, r₂⟩, h₂, h⟩ := Option.bind_eq_some_iff.1 h
    obtain ⟨⟨exponent, r₃⟩, h₃, h⟩ := Option.bind_eq_some_iff.1 h
    cases h
    have := length_someDigits_lt h₁
    have := length_fractionPart_le h₂
    have := length_exponentPart_le h₃
    simp only at *
    omega

theorem length_readNumeral_lt {cs : List Char} {p : Numeral × List Char}
    (h : readNumeral cs = some p) : p.2.length < cs.length := by
  unfold readNumeral at h
  split at h
  · have := length_unsigned_lt h
    simp only [List.length_cons]
    omega
  · exact length_unsigned_lt h

end LocalEndpoint.Json
