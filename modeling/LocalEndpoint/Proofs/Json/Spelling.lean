import LocalEndpoint.Json.Token
import Mathlib.Data.List.Chain

/-! What the lexer reads, as a grammar. Every token has its spellings: a number those of its digits,
    a quoted text those of its pieces, and a piece may be a character as it is, an escape of one
    letter or a unit given by number. Between tokens there may be blanks, and as far as no two
    numbers stand side by side, which no JSON text has them do, the lexer finds back the tokens
    (`lex_of_spaced`). -/

namespace LocalEndpoint.Json

/-- The characters do not go on with one of this class. -/
def Stops (p : Char → Bool) (cs : List Char) : Prop := ∀ c ∈ cs.head?, p c = false

theorem stops_nil (p : Char → Bool) : Stops p [] := by
  intro c hc
  cases hc

theorem stops_cons {p : Char → Bool} {c : Char} {cs : List Char} :
    Stops p (c :: cs) ↔ p c = false := by
  simp [Stops]

theorem Stops.mono {p q : Char → Bool} {cs : List Char} (h : Stops p cs)
    (hq : ∀ c, q c = true → p c = true) : Stops q cs := by
  intro c hc
  refine Bool.eq_false_iff.2 fun hqc => ?_
  exact Bool.eq_false_iff.1 (h c hc) (hq c hqc)

/-! ### Numbers -/

/-- The characters are digits, one or more, with these values. -/
structure Digits (ds : List Nat) (cs : List Char) : Prop where
  isDigit : ∀ c ∈ cs, c.isDigit = true
  ne_nil : cs ≠ []
  values : cs.map digitValue = ds

/-- A point and digits, or nothing. -/
inductive Fraction : Option (List Nat) → List Char → Prop
  | absent : Fraction none []
  | point {ds : List Nat} {cs : List Char} (h : Digits ds cs) : Fraction (some ds) ('.' :: cs)

/-- The sign of an exponent. -/
inductive Sign : Bool → List Char → Prop
  | absent : Sign false []
  | plus : Sign false ['+']
  | minus : Sign true ['-']

/-- The letter, a sign and digits, or nothing. -/
inductive Exponent : Option (Bool × List Nat) → List Char → Prop
  | absent : Exponent none []
  | power {e : Char} {negative : Bool} {ds : List Nat} {sign cs : List Char}
      (he : e = 'e' ∨ e = 'E') (hs : Sign negative sign) (h : Digits ds cs) :
      Exponent (some (negative, ds)) (e :: (sign ++ cs))

/-- A number as JSON writes it. Only zero starts with a zero. -/
inductive Numeral.Spelled : Numeral → List Char → Prop
  | mk {negative : Bool} {whole : List Nat} {fraction : Option (List Nat)}
      {exponent : Option (Bool × List Nat)} {w f e : List Char} (hw : Digits whole w)
      (hz : whole.head? = some 0 → whole.length = 1) (hf : Fraction fraction f)
      (he : Exponent exponent e) :
      Numeral.Spelled ⟨negative, whole, fraction, exponent⟩
        ((if negative then ['-'] else []) ++ (w ++ (f ++ e)))

/-- Whether a character that follows a number would be read as a part of it. -/
def continuesNumeral (c : Char) : Bool := c.isDigit || c == '.' || c == 'e' || c == 'E'

theorem isDigit_ne {c d : Char} (hc : c.isDigit = true) (hd : d.isDigit = false) : c ≠ d := by
  rintro rfl
  rw [hc] at hd
  cases hd

theorem someDigits_append {ds : List Nat} {cs r : List Char} (h : Digits ds cs)
    (hr : Stops Char.isDigit r) : someDigits (cs ++ r) = some (ds, r) := by
  have hdigits : digits (cs ++ r) = (ds, r) := by
    have htake : r.takeWhile Char.isDigit = [] := by
      cases r with
      | nil => rfl
      | cons c r => simp [stops_cons.1 hr]
    have hdrop : r.dropWhile Char.isDigit = r := by
      cases r with
      | nil => rfl
      | cons c r => simp [stops_cons.1 hr]
    simp only [digits, List.takeWhile_append_of_pos h.isDigit,
      List.dropWhile_append_of_pos h.isDigit, htake, hdrop, List.append_nil, h.values]
  have hne : ds ≠ [] := by
    rw [← h.values]
    simp [h.ne_nil]
  unfold someDigits
  rw [hdigits]
  cases ds with
  | nil => exact absurd rfl hne
  | cons d ds => rfl

theorem Digits.exists_cons {ds : List Nat} {cs : List Char} (h : Digits ds cs) :
    ∃ c r, cs = c :: r ∧ c.isDigit = true := by
  cases cs with
  | nil => exact absurd rfl h.ne_nil
  | cons c r => exact ⟨c, r, rfl, h.isDigit c List.mem_cons_self⟩

theorem fractionPart_append {f : Option (List Nat)} {cs r : List Char} (h : Fraction f cs)
    (hr : Stops (fun c => c.isDigit || c == '.') r) : fractionPart (cs ++ r) = some (f, r) := by
  cases h with
  | absent =>
    cases r with
    | nil => rfl
    | cons c r =>
      have hc : c ≠ '.' := by
        rintro rfl
        have := stops_cons.1 hr
        simp at this
      simp only [List.nil_append, fractionPart]
      split
      · next heq => exact absurd (List.cons.inj heq).1 hc
      · rfl
  | point h =>
    have hd := someDigits_append h (hr.mono (q := Char.isDigit) (by
      intro c hc
      simp [hc]))
    simp only [List.cons_append, fractionPart, hd, Option.map_some]

theorem signedDigits_append {negative : Bool} {ds : List Nat} {sign cs r : List Char}
    (hs : Sign negative sign) (h : Digits ds cs) (hr : Stops Char.isDigit r) :
    signedDigits (sign ++ cs ++ r) = some ((negative, ds), r) := by
  have hd := someDigits_append h hr
  cases hs with
  | plus | minus =>
    simp only [List.cons_append, List.nil_append, signedDigits, hd, Option.map_some]
  | absent =>
    obtain ⟨c, cs, rfl, hc⟩ := h.exists_cons
    have hminus : c ≠ '-' := isDigit_ne hc (by decide)
    have hplus : c ≠ '+' := isDigit_ne hc (by decide)
    simp only [List.nil_append, List.cons_append] at hd ⊢
    unfold signedDigits
    split
    · next heq => exact absurd (List.cons.inj heq).1 hminus
    · next heq => exact absurd (List.cons.inj heq).1 hplus
    · rw [hd]; rfl

theorem exponentPart_append {e : Option (Bool × List Nat)} {cs r : List Char}
    (h : Exponent e cs) (hr : Stops continuesNumeral r) :
    exponentPart (cs ++ r) = some (e, r) := by
  cases h with
  | absent =>
    cases r with
    | nil => rfl
    | cons c r =>
      have hc := stops_cons.1 hr
      simp only [List.nil_append]
      unfold exponentPart
      split
      · next heq => rw [(List.cons.inj heq).1] at hc; exact absurd hc (by decide)
      · next heq => rw [(List.cons.inj heq).1] at hc; exact absurd hc (by decide)
      · rfl
  | power he hs h =>
    have hd := signedDigits_append hs h (hr.mono (q := Char.isDigit) (by
      intro c hc
      simp [continuesNumeral, hc]))
    rcases he with rfl | rfl <;>
      simp only [List.cons_append, exponentPart, hd, Option.map_some]

theorem Exponent.stops {e : Option (Bool × List Nat)} {cs r : List Char} (h : Exponent e cs)
    (hr : Stops continuesNumeral r) : Stops (fun c => c.isDigit || c == '.') (cs ++ r) := by
  cases h with
  | absent =>
    refine hr.mono fun c hc => ?_
    rcases Bool.or_eq_true _ _ ▸ hc with h | h <;> simp [continuesNumeral, h]
  | power he => rcases he with rfl | rfl <;> exact stops_cons.2 (by decide)

theorem Fraction.stops {f : Option (List Nat)} {cs r : List Char} (h : Fraction f cs)
    (hr : Stops (fun c => c.isDigit || c == '.') r) : Stops Char.isDigit (cs ++ r) := by
  cases h with
  | absent =>
    refine hr.mono fun c hc => ?_
    simp [hc]
  | point => exact stops_cons.2 (by decide)

theorem readNumeral_append {n : Numeral} {cs r : List Char} (h : n.Spelled cs)
    (hr : Stops continuesNumeral r) : readNumeral (cs ++ r) = some (n, r) := by
  obtain @⟨negative, whole, fraction, exponent, w, f, e, hw, hz, hf, he⟩ := h
  have hexp := exponentPart_append he hr
  have hfrac := fractionPart_append hf (he.stops hr)
  have hwhole := someDigits_append hw (hf.stops (he.stops hr))
  have hzero : ¬(whole.head? = some 0 ∧ 1 < whole.length) := by
    rintro ⟨h0, h1⟩
    have := hz h0
    omega
  have hun : unsigned negative (w ++ (f ++ (e ++ r))) =
      some (⟨negative, whole, fraction, exponent⟩, r) := by
    simp only [unsigned, hwhole, hfrac, hexp, Option.bind_eq_bind, Option.bind_some,
      Bool.and_eq_true, decide_eq_true_eq, if_neg hzero]
  obtain ⟨c, w, rfl, hc⟩ := hw.exists_cons
  have hminus : c ≠ '-' := isDigit_ne hc (by decide)
  simp only [List.append_assoc]
  cases negative with
  | true => simpa only [if_true, List.cons_append, List.nil_append, readNumeral] using hun
  | false =>
    simp only [Bool.false_eq_true, if_false, List.nil_append, List.cons_append] at hun ⊢
    unfold readNumeral
    split
    · next heq => exact absurd (List.cons.inj heq).1 hminus
    · exact hun

/-! ### Quoted texts -/

/-- The ways to write a piece. -/
inductive Piece.Spelled : Piece → List Char → Prop
  | plain {c : Char} (h : 32 ≤ c.toNat) (hq : c ≠ '"') (hb : c ≠ '\\') :
      Piece.Spelled (.char c) [c]
  | short {e c : Char} (h : escaped? e = some c) : Piece.Spelled (.char c) ['\\', e]
  | unit {a b c d : Char} {n : Nat} (h : unitOf? a b c d = some n) :
      Piece.Spelled (.unit n) ['\\', 'u', a, b, c, d]

/-- Pieces written one after the other. -/
inductive Pieces : List Piece → List Char → Prop
  | nil : Pieces [] []
  | cons {p : Piece} {ps : List Piece} {cs ds : List Char} (hp : p.Spelled cs)
      (h : Pieces ps ds) : Pieces (p :: ps) (cs ++ ds)

/-- The first half of a character outside the basic plane. -/
def highHalf (c : Char) : Nat := 0xD800 + (c.toNat - 0x10000) / 0x400

/-- The second half of a character outside the basic plane. -/
def lowHalf (c : Char) : Nat := 0xDC00 + (c.toNat - 0x10000) % 0x400

/-- The pieces that can stand for characters: each stands as itself or by number, as one unit or, if
    its number has more than 16 bits, as two halves. -/
inductive Denotes : List Piece → List Char → Prop
  | nil : Denotes [] []
  | char {c : Char} {ps : List Piece} {cs : List Char} (h : Denotes ps cs) :
      Denotes (.char c :: ps) (c :: cs)
  | unit {c : Char} {ps : List Piece} {cs : List Char} (hc : c.toNat < 0x10000)
      (h : Denotes ps cs) : Denotes (.unit c.toNat :: ps) (c :: cs)
  | halves {c : Char} {ps : List Piece} {cs : List Char} (hc : 0x10000 ≤ c.toNat)
      (h : Denotes ps cs) : Denotes (.unit (highHalf c) :: .unit (lowHalf c) :: ps) (c :: cs)

theorem readPieces_short {e c : Char} (he : escaped? e = some c) (rest : List Char) :
    readPieces ('\\' :: e :: rest) = (readPieces rest).map fun p => (.char c :: p.1, p.2) := by
  have hu : e ≠ 'u' := by
    rintro rfl
    cases he
  rw [readPieces.eq_def]
  split
  · next heq => cases heq
  · next heq => exact absurd (List.cons.inj heq).1 (by decide)
  · next heq => exact absurd (List.cons.inj (List.cons.inj heq).2).1 hu
  · next heq =>
    cases heq
    simp only [he, Option.bind_eq_bind, Option.bind_some, Option.map_eq_bind]
    rfl
  · next hn heq =>
    cases heq
    exact absurd rfl (hn e rest rfl)

theorem readPieces_plain {c : Char} (hc : 32 ≤ c.toNat) (hq : c ≠ '"') (hb : c ≠ '\\')
    (rest : List Char) :
    readPieces (c :: rest) = (readPieces rest).map fun p => (.char c :: p.1, p.2) := by
  have hn : ¬(c.toNat < 32 ∨ c = '\\') := by
    rintro (h | h)
    · omega
    · exact hb h
  rw [readPieces.eq_def]
  split
  · next heq => cases heq
  · next heq => exact absurd (List.cons.inj heq).1 hq
  · next heq => exact absurd (List.cons.inj heq).1 hb
  · next heq => exact absurd (List.cons.inj heq).1 hb
  · next heq =>
    cases heq
    simp only [if_neg hn, Option.bind_eq_bind, Option.map_eq_bind]
    rfl

theorem readPieces_unit {a b c d : Char} {n : Nat} (hn : unitOf? a b c d = some n)
    (rest : List Char) :
    readPieces ('\\' :: 'u' :: a :: b :: c :: d :: rest) =
      (readPieces rest).map fun p => (.unit n :: p.1, p.2) := by
  simp only [readPieces, hn, Option.bind_eq_bind, Option.bind_some, Option.map_eq_bind]
  rfl

theorem readPieces_append {ps : List Piece} {cs : List Char} (h : Pieces ps cs) (r : List Char) :
    readPieces (cs ++ '"' :: r) = some (ps, r) := by
  induction h with
  | nil => rfl
  | cons hp _ ih =>
    cases hp with
    | plain hc hq hb =>
      simp only [List.cons_append, List.nil_append, readPieces_plain hc hq hb, ih, Option.map_some]
    | short he =>
      simp only [List.cons_append, List.nil_append, readPieces_short he, ih, Option.map_some]
    | unit hn =>
      simp only [List.cons_append, List.nil_append, readPieces_unit hn, ih, Option.map_some]

/-- A unit that is no half stands for its character, whatever comes next. -/
theorem decode_unit {n : Nat} (hh : isHighHalf n = false) (hl : isLowHalf n = false)
    (ps : List Piece) : decode (.unit n :: ps) = (decode ps).map (Char.ofNat n :: ·) := by
  cases ps with
  | nil => simp [decode, hh, hl]
  | cons p ps => cases p <;> simp [decode, hh, hl]

theorem not_half_toNat {c : Char} (hc : c.toNat < 0x10000) :
    isHighHalf c.toNat = false ∧ isLowHalf c.toNat = false := by
  have hv : c.toNat < 0xD800 ∨ (0xDFFF < c.toNat ∧ c.toNat < 0x110000) := c.valid
  simp only [isHighHalf, isLowHalf, Bool.and_eq_false_iff, decide_eq_false_iff_not]
  omega

theorem isHighHalf_highHalf (c : Char) : isHighHalf (highHalf c) = true := by
  have hv : c.toNat < 0xD800 ∨ (0xDFFF < c.toNat ∧ c.toNat < 0x110000) := c.valid
  refine Bool.and_eq_true_iff.2 ⟨decide_eq_true ?_, decide_eq_true ?_⟩ <;>
    simp only [highHalf] <;> omega

theorem isLowHalf_lowHalf (c : Char) : isLowHalf (lowHalf c) = true := by
  refine Bool.and_eq_true_iff.2 ⟨decide_eq_true ?_, decide_eq_true ?_⟩ <;>
    simp only [lowHalf] <;> omega

theorem ofNat_halves {c : Char} (hc : 0x10000 ≤ c.toNat) :
    Char.ofNat (0x10000 + (highHalf c - 0xD800) * 0x400 + (lowHalf c - 0xDC00)) = c := by
  have h : 0x10000 + (highHalf c - 0xD800) * 0x400 + (lowHalf c - 0xDC00) = c.toNat := by
    simp only [highHalf, lowHalf]
    omega
  rw [h, Char.ofNat_toNat]

theorem decode_of_denotes {ps : List Piece} {cs : List Char} (h : Denotes ps cs) :
    decode ps = some cs := by
  induction h with
  | nil => rfl
  | char _ ih => simp only [decode, ih, Option.map_some]
  | unit hc _ ih =>
    obtain ⟨hh, hl⟩ := not_half_toNat hc
    rw [decode_unit hh hl, ih, Option.map_some, Char.ofNat_toNat]
  | halves hc _ ih =>
    simp only [decode, isHighHalf_highHalf, isLowHalf_lowHalf, if_true, ih, Option.map_some,
      ofNat_halves hc]

/-! ### Tokens -/

def Token.isNumber : Token → Bool
  | .number _ => true
  | _ => false

/-- The ways to write a token. -/
inductive Token.Spelled : Token → List Char → Prop
  | openList : Token.Spelled .openList ['[']
  | closeList : Token.Spelled .closeList [']']
  | openRecord : Token.Spelled .openRecord ['\x7b']
  | closeRecord : Token.Spelled .closeRecord ['\x7d']
  | comma : Token.Spelled .comma [',']
  | colon : Token.Spelled .colon [':']
  | null : Token.Spelled .null ['n', 'u', 'l', 'l']
  | yes : Token.Spelled (.bool true) ['t', 'r', 'u', 'e']
  | no : Token.Spelled (.bool false) ['f', 'a', 'l', 's', 'e']
  | number {n : Numeral} {cs : List Char} (h : n.Spelled cs) : Token.Spelled (.number n) cs
  | text {s : String} {ps : List Piece} {cs : List Char} (hd : Denotes ps s.toList)
      (hp : Pieces ps cs) : Token.Spelled (.text (some s)) ('"' :: (cs ++ ['"']))
  /-- Half a character stands alone in the text. -/
  | half {ps : List Piece} {cs : List Char} (hd : decode ps = none) (hp : Pieces ps cs) :
      Token.Spelled (.text none) ('"' :: (cs ++ ['"']))

/-- The tokens one after the other, with blanks before, between and after them. -/
inductive Spaced : List Token → List Char → Prop
  | nil : Spaced [] []
  | blank {c : Char} {ts : List Token} {cs : List Char} (hc : isBlank c = true)
      (h : Spaced ts cs) : Spaced ts (c :: cs)
  | token {t : Token} {ts : List Token} {p cs : List Char} (ht : t.Spelled p)
      (h : Spaced ts cs) : Spaced (t :: ts) (p ++ cs)

/-- No two numbers stand side by side. -/
def Apart (ts : List Token) : Prop :=
  ts.IsChain fun s t => ¬(s.isNumber = true ∧ t.isNumber = true)

/-- The first character of a number is a digit or the minus sign. -/
theorem Numeral.Spelled.exists_cons {n : Numeral} {cs : List Char} (h : n.Spelled cs) :
    ∃ c r, cs = c :: r ∧ (c.isDigit = true ∨ c = '-') := by
  obtain @⟨negative, _, _, _, w, f, e, hw, _, _, _⟩ := h
  cases negative with
  | true => exact ⟨'-', _, rfl, .inr rfl⟩
  | false =>
    obtain ⟨c, w, rfl, hc⟩ := hw.exists_cons
    exact ⟨c, _, rfl, .inl hc⟩

theorem nextToken_numeral {c : Char} (hc : c.isDigit = true ∨ c = '-') (cs : List Char) :
    nextToken c cs = (readNumeral (c :: cs)).map fun p => (.number p.1, p.2) := by
  unfold nextToken
  split <;> first | rfl | (exfalso; revert hc; decide)

/-- A token is read from its spelling, of a number if nothing follows that would be part of it. -/
theorem Token.Spelled.next {t : Token} {p r : List Char} (h : t.Spelled p)
    (hr : t.isNumber = true → Stops continuesNumeral r) :
    ∃ c cs, p = c :: cs ∧ isBlank c = false ∧ nextToken c (cs ++ r) = some (t, r) := by
  cases h with
  | openList | closeList | openRecord | closeRecord | comma | colon =>
    exact ⟨_, _, rfl, by decide, rfl⟩
  | null | yes | no => exact ⟨_, _, rfl, by decide, by simp [nextToken, afterWord]⟩
  | text hd hp =>
    refine ⟨_, _, rfl, by decide, ?_⟩
    simp [nextToken, readPieces_append hp, decode_of_denotes hd]
  | half hd hp =>
    refine ⟨_, _, rfl, by decide, ?_⟩
    simp [nextToken, readPieces_append hp, hd]
  | number h =>
    have hread := readNumeral_append h (hr rfl)
    obtain ⟨c, cs, rfl, hc⟩ := h.exists_cons
    refine ⟨c, cs, rfl, ?_, ?_⟩
    · rcases hc with hc | rfl
      · simp [isBlank, isDigit_ne hc]
      · decide
    · rw [nextToken_numeral hc, ← List.cons_append, hread, Option.map_some]

theorem lex_blank {c : Char} (hc : isBlank c = true) (cs : List Char) : lex (c :: cs) = lex cs := by
  rw [lex, if_pos hc]

theorem lex_token {c : Char} {cs rest : List Char} {t : Token} (hc : isBlank c = false)
    (h : nextToken c cs = some (t, rest)) : lex (c :: cs) = t :: lex rest := by
  rw [lex, if_neg (by simp [hc])]
  split
  · next heq =>
    rw [h] at heq
    cases heq
    rfl
  · next heq =>
    rw [h] at heq
    cases heq

theorem Token.Spelled.stops {t : Token} {p : List Char} (h : t.Spelled p)
    (ht : t.isNumber = false) (r : List Char) : Stops continuesNumeral (p ++ r) := by
  cases h with
  | number => cases ht
  | _ => exact stops_cons.2 (by decide)

theorem Spaced.stops {ts : List Token} {cs : List Char} (h : Spaced ts cs)
    (hn : ∀ t ∈ ts.head?, t.isNumber = false) : Stops continuesNumeral cs := by
  cases h with
  | nil => exact stops_nil _
  | blank hc =>
    simp only [isBlank, Bool.or_eq_true, beq_iff_eq] at hc
    rcases hc with ((rfl | rfl) | rfl) | rfl <;> exact stops_cons.2 (by decide)
  | token ht => exact ht.stops (hn _ rfl) _

theorem lex_of_spaced {ts : List Token} {cs : List Char} (h : Spaced ts cs) (ha : Apart ts) :
    lex cs = ts := by
  induction h with
  | nil => simp [lex]
  | blank hc _ ih => rw [lex_blank hc, ih ha]
  | @token t ts p cs ht h ih =>
    have hstops : t.isNumber = true → Stops continuesNumeral cs := by
      intro hnum
      refine h.stops fun u hu => ?_
      refine Bool.eq_false_iff.2 fun hu' => ?_
      cases ts with
      | nil => cases hu
      | cons v ts =>
        cases hu
        exact (List.isChain_cons_cons.1 ha).1 ⟨hnum, hu'⟩
    obtain ⟨c, q, rfl, hb, hnext⟩ := ht.next hstops
    rw [List.cons_append, lex_token hb hnext, ih ha.tail]

end LocalEndpoint.Json
