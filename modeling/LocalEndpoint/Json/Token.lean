import LocalEndpoint.Json.Numeral
import LocalEndpoint.Json.Quoted

/-! The tokens of a JSON text. Where the text stops making sense the tokens end with `bad`; a reader
    that goes through them in order thus meets the first fault of the text first. -/

namespace LocalEndpoint.Json

/-- One token. -/
inductive Token where
  | openList
  | closeList
  | openRecord
  | closeRecord
  | comma
  | colon
  | null
  | bool (b : Bool)
  | number (n : Numeral)
  /-- A quoted text; `none` if half a character stands alone in it. -/
  | text (s : Option String)
  /-- Something that starts no token. -/
  | bad
  deriving DecidableEq

/-- Whether a character may stand between tokens. -/
def isBlank (c : Char) : Bool := c == ' ' || c == '\t' || c == '\n' || c == '\r'

/-- What follows a word that the characters start with. -/
def afterWord : List Char → List Char → Option (List Char)
  | [], cs => some cs
  | w :: ws, c :: cs => if w = c then afterWord ws cs else none
  | _ :: _, [] => none

theorem length_afterWord_le {ws cs r : List Char} (h : afterWord ws cs = some r) :
    r.length ≤ cs.length := by
  fun_induction afterWord ws cs with
  | case1 cs => cases h; exact Nat.le_refl _
  | case2 w ws cs ih => exact Nat.le_succ_of_le (ih h)
  | case3 => simp at h
  | case4 => simp at h

/-- The token that starts with `c`, which is not blank, and what follows it. -/
def nextToken (c : Char) (cs : List Char) : Option (Token × List Char) :=
  match c with
  | '[' => some (.openList, cs)
  | ']' => some (.closeList, cs)
  | '{' => some (.openRecord, cs)
  | '}' => some (.closeRecord, cs)
  | ',' => some (.comma, cs)
  | ':' => some (.colon, cs)
  | 'n' => (afterWord ['u', 'l', 'l'] cs).map (.null, ·)
  | 't' => (afterWord ['r', 'u', 'e'] cs).map (.bool true, ·)
  | 'f' => (afterWord ['a', 'l', 's', 'e'] cs).map (.bool false, ·)
  | '"' => (readPieces cs).map fun p => (.text ((decode p.1).map String.ofList), p.2)
  | c => (readNumeral (c :: cs)).map fun p => (.number p.1, p.2)

theorem length_nextToken_le {c : Char} {cs : List Char} {p : Token × List Char}
    (h : nextToken c cs = some p) : p.2.length ≤ cs.length := by
  unfold nextToken at h
  split at h
  iterate 6 cases h; exact Nat.le_refl _
  iterate 3
    obtain ⟨r, hr, rfl⟩ := Option.map_eq_some_iff.1 h
    exact length_afterWord_le hr
  · obtain ⟨q, hq, rfl⟩ := Option.map_eq_some_iff.1 h
    exact Nat.le_of_lt (length_readPieces_lt _ _ hq)
  · obtain ⟨q, hq, rfl⟩ := Option.map_eq_some_iff.1 h
    have := length_readNumeral_lt hq
    simp only [List.length_cons] at this
    exact Nat.le_of_lt_succ this

/-- The tokens of a text. -/
def lex : List Char → List Token
  | [] => []
  | c :: cs =>
    if isBlank c then lex cs
    else
      match _h : nextToken c cs with
      | some (t, rest) => t :: lex rest
      | none => [.bad]
termination_by cs => cs.length
decreasing_by
  · simp
  · have := length_nextToken_le _h
    simp only [List.length_cons] at *
    omega

end LocalEndpoint.Json
