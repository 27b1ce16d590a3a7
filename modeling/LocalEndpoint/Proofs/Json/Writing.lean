import LocalEndpoint.Json.Decode
import LocalEndpoint.Json.Value
import LocalEndpoint.Proofs.Json.Drafting

/-! The text of a value says the value. A value to be written is a draft in which nothing breaks
    off, its numbers given by their digits, and the text that `chars` makes spells the tokens of
    this draft (`spaced_chars`). A reader makes of such a text what it makes of the draft
    (`decodeText_of_spaced`). -/

namespace LocalEndpoint.Json

/-! ### Numbers -/

/-- The decimal digits of a count. -/
def digitsOf (n : Nat) : List Nat := (Nat.toDigits 10 n).map digitValue

/-- A count by its decimal digits. -/
def Numeral.ofNat (n : Nat) : Numeral where
  whole := digitsOf n

theorem digitsOf_of_lt {n : Nat} (hn : n < 10) : digitsOf n = [n] := by
  have hdigit : ∀ d < 10, [digitValue d.digitChar] = [d] := by decide
  rw [digitsOf, Nat.toDigits_of_lt_base hn, List.map_singleton, hdigit n hn]

/-- Only zero is written with a zero at its start. -/
theorem eq_zero_of_head_digitsOf (n : Nat) : (digitsOf n).head? = some 0 → n = 0 := by
  induction n using Nat.strongRecOn with
  | ind n ih =>
    intro h
    by_cases hn : n < 10
    · rw [digitsOf_of_lt hn] at h
      exact Option.some.inj h
    · have hpos : n / 10 ≠ 0 := by omega
      have hne : digitsOf (n / 10) ≠ [] := by
        simp [digitsOf]
      obtain ⟨d, ds, hds⟩ := List.exists_cons_of_ne_nil hne
      have hsplit : digitsOf n = digitsOf (n / 10) ++ [digitValue (n % 10).digitChar] := by
        rw [digitsOf, Nat.toDigits_of_base_le (by decide) (Nat.le_of_not_lt hn), List.map_append]
        rfl
      rw [hsplit, hds] at h
      exact absurd (ih (n / 10) (by omega) (by rw [hds]; exact h)) hpos

theorem digits_toString (n : Nat) : Digits (digitsOf n) (toString n).toList := by
  have htext : (toString n).toList = Nat.toDigits 10 n := by
    rw [Nat.toString_eq_repr, Nat.toList_repr]
  refine ⟨?_, ?_, by rw [htext]; rfl⟩
  · intro c hc
    rw [htext] at hc
    exact Nat.isDigit_of_mem_toDigits (by decide) (by decide) hc
  · rw [htext]
    exact List.ne_nil_of_length_pos Nat.length_toDigits_pos

theorem Numeral.spelled_ofNat (n : Nat) : (Numeral.ofNat n).Spelled (toString n).toList := by
  have hz : (digitsOf n).head? = some 0 → (digitsOf n).length = 1 := by
    intro h
    rw [eq_zero_of_head_digitsOf n h, digitsOf_of_lt (by decide)]
    rfl
  have h := @Numeral.Spelled.mk false _ _ _ _ _ _ (digits_toString n) hz .absent .absent
  rwa [if_neg (by decide), List.nil_append, List.append_nil, List.append_nil] at h

theorem ofDigits_digitsOf (n : Nat) : ofDigits (digitsOf n) = n := by
  calc ofDigits (digitsOf n)
      = Nat.ofDigitChars 10 (Nat.toDigits 10 n) 0 := by
        simp only [ofDigits, digitsOf, List.foldl_map, digitValue, Nat.ofDigitChars, Nat.mul_comm]
    _ = n := Nat.ofDigitChars_toDigits (by decide) (by decide)

/-- A count that fits a machine word is read as itself. -/
theorem Numeral.kind_ofNat (n : Size) : (Numeral.ofNat n.toNat).kind = .count n := by
  have hlt : n.toNat < UInt64.size := n.toNat_lt
  simp [Numeral.kind, Numeral.ofNat, Numeral.isInteger, ofDigits_digitsOf, hlt]

/-! ### Texts in quotes -/

/-- What stands for a character inside quotes is one piece. -/
theorem spelled_quoteChar (c : Char) : ∃ p : Piece, p.Spelled (quoteChar c) ∧
    ∀ {ps cs}, Denotes ps cs → Denotes (p :: ps) (c :: cs) := by
  unfold quoteChar
  split
  iterate 7 exact ⟨_, .short rfl, .char⟩
  split
  · next hlt =>
    have hunit : ∀ n < 32, unitOf? '0' '0' (hexDigit (n / 16)) (hexDigit (n % 16)) = some n := by
      decide
    exact ⟨_, .unit (hunit _ hlt), .unit (by omega)⟩
  · next hq hb _ _ _ _ _ hge => exact ⟨_, .plain (Nat.le_of_not_lt hge) hq hb, .char⟩

theorem spelled_quoteChars (cs : List Char) :
    ∃ ps, Pieces ps (cs.flatMap quoteChar) ∧ Denotes ps cs := by
  induction cs with
  | nil => exact ⟨[], .nil, .nil⟩
  | cons c cs ih =>
    obtain ⟨p, hp, hd⟩ := spelled_quoteChar c
    obtain ⟨ps, hps, hds⟩ := ih
    exact ⟨p :: ps, .cons hp hps, hd hds⟩

theorem spelled_quote (s : String) : Token.Spelled (.text (some s)) (quote s.toList) := by
  obtain ⟨ps, hps, hds⟩ := spelled_quoteChars s.toList
  exact .text hds hps

/-! ### Values -/

namespace Value

mutual

/-- The draft of a value. -/
def draft : Value → Draft
  | .null => .null
  | .bool b => .bool b
  | .number n => .number (Numeral.ofNat n)
  | .text s => .text (some s)
  | .list items => .list (draftsOfItems items) true
  | .record members => .record (draftsOfMembers members) true

def draftsOfItems : List Value → List Draft
  | [] => []
  | v :: vs => v.draft :: draftsOfItems vs

def draftsOfMembers : List (String × Value) → List (Option String × Draft)
  | [] => []
  | (k, v) :: ms => (some k, v.draft) :: draftsOfMembers ms

end

theorem draftsOfItems_eq (vs : List Value) : draftsOfItems vs = vs.map draft := by
  induction vs with
  | nil => rfl
  | cons v vs ih => rw [draftsOfItems, ih, List.map_cons]

theorem draftsOfMembers_eq (ms : List (String × Value)) :
    draftsOfMembers ms = ms.map fun m => (some m.1, m.2.draft) := by
  induction ms with
  | nil => rfl
  | cons m ms ih => rw [draftsOfMembers, ih, List.map_cons]

mutual

theorem whole_draft : ∀ v : Value, v.draft.Whole
  | .null => .null
  | .bool b => .bool b
  | .number n => .number (Numeral.ofNat n)
  | .text s => .text (some s)
  | .list items => .list (whole_draftsOfItems items)
  | .record members => .record (whole_draftsOfMembers members)

theorem whole_draftsOfItems : ∀ vs : List Value, ∀ d ∈ draftsOfItems vs, d.Whole
  | [], d, hd => by cases hd
  | v :: vs, d, hd => by
    rcases List.mem_cons.1 hd with rfl | hd
    · exact whole_draft v
    · exact whole_draftsOfItems vs d hd

theorem whole_draftsOfMembers : ∀ ms : List (String × Value), ∀ m ∈ draftsOfMembers ms, m.2.Whole
  | [], m, hm => by cases hm
  | (k, v) :: ms, m, hm => by
    rcases List.mem_cons.1 hm with rfl | hm
    · exact whole_draft v
    · exact whole_draftsOfMembers ms m hm

end

end Value

/-! ### Their text -/

theorem Spaced.append {ts us : List Token} {cs ds : List Char} (h : Spaced ts cs)
    (h' : Spaced us ds) : Spaced (ts ++ us) (cs ++ ds) := by
  induction h with
  | nil => exact h'
  | blank hc _ ih => exact .blank hc ih
  | token ht _ ih =>
    rw [List.append_assoc]
    exact .token ht ih

/-- A token alone. -/
theorem Token.Spelled.spaced {t : Token} {cs : List Char} (h : t.Spelled cs) : Spaced [t] cs := by
  have := Spaced.token h .nil
  rwa [List.append_nil] at this

/-- Parts joined by commas are the first and the others, each after a comma. -/
theorem joined_cons (p : List Char) (ps : List (List Char)) :
    Value.joined (p :: ps) = p ++ ps.flatMap fun q => ',' :: q := by
  induction ps generalizing p with
  | nil => simp [Value.joined]
  | cons q ps ih =>
    rw [Value.joined, ih]
    simp

namespace Value

mutual

theorem spaced_chars : ∀ v : Value, Spaced v.draft.tokens v.chars
  | .null => Token.Spelled.null.spaced
  | .bool true => Token.Spelled.yes.spaced
  | .bool false => Token.Spelled.no.spaced
  | .number n => (Token.Spelled.number (Numeral.spelled_ofNat n)).spaced
  | .text s => (spelled_quote s).spaced
  | .list [] => .token .openList (.token .closeList .nil)
  | .list (v :: vs) => by
    have hitems := ((spaced_chars v).append (spaced_items vs)).append Token.Spelled.closeList.spaced
    rw [chars, charsOfItems, joined_cons]
    exact .token .openList hitems
  | .record [] => .token .openRecord (.token .closeRecord .nil)
  | .record ((k, v) :: ms) => by
    have hmembers := ((spaced_chars v).append (spaced_members ms)).append
      Token.Spelled.closeRecord.spaced
    have hkey := (spelled_quote k).spaced.append (.token .colon hmembers)
    rw [chars, charsOfMembers, joined_cons]
    simpa [draft, draftsOfMembers, Draft.tokens, Draft.memberTokens] using
      Spaced.token .openRecord hkey

theorem spaced_items : ∀ vs : List Value,
    Spaced (Draft.itemTokens (draftsOfItems vs)) ((charsOfItems vs).flatMap fun p => ',' :: p)
  | [] => .nil
  | v :: vs => by
    have hitems := (spaced_chars v).append (spaced_items vs)
    rw [charsOfItems, List.flatMap_cons]
    exact Spaced.token (p := [',']) .comma hitems

theorem spaced_members : ∀ ms : List (String × Value),
    Spaced (Draft.memberTokens (draftsOfMembers ms))
      ((charsOfMembers ms).flatMap fun p => ',' :: p)
  | [] => .nil
  | (k, v) :: ms => by
    have hmembers := (spaced_chars v).append (spaced_members ms)
    have hkey := (spelled_quote k).spaced.append (.token .colon hmembers)
    rw [charsOfMembers, List.flatMap_cons]
    simpa [draftsOfMembers, Draft.memberTokens] using Spaced.token .comma hkey

end

end Value

/-! ### Reading it -/

/-- What a reader of drafts makes of a text is what it makes of the draft whose tokens stand in the
    text. -/
theorem decodeText_of_spaced {α : Type} (decode : Decoder α) {d : Draft} {text : String}
    (hw : d.Whole) (h : Spaced d.tokens text.toList) : decodeText decode text = decode d := by
  simp only [decodeText, Draft.ofTokens_lex hw h]
  cases decode d <;> rfl

end LocalEndpoint.Json
