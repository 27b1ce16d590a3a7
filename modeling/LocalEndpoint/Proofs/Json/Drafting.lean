import LocalEndpoint.Json.Draft
import LocalEndpoint.Proofs.Json.Spelling

/-! The reading of tokens undoes their writing. A draft in which nothing breaks off has its tokens;
    read from where a value may start they bring the reader to where the draft is complete
    (`foldl_tokens`), whatever the frames around it, so a text of these tokens has that draft and
    nothing after it. -/

namespace LocalEndpoint.Json

namespace Draft

/-- Nothing breaks off. -/
inductive Whole : Draft → Prop
  | null : Whole .null
  | bool (b : Bool) : Whole (.bool b)
  | number (n : Numeral) : Whole (.number n)
  | text (s : Option String) : Whole (.text s)
  | list {items : List Draft} (h : ∀ d ∈ items, Whole d) : Whole (.list items true)
  | record {members : List (Option String × Draft)} (h : ∀ m ∈ members, Whole m.2) :
      Whole (.record members true)

mutual

/-- The tokens of a draft. -/
def tokens : Draft → List Token
  | .null => [.null]
  | .bool b => [.bool b]
  | .number n => [.number n]
  | .text s => [.text s]
  | .list items _ => .openList :: ((itemTokens items).tail ++ [.closeList])
  | .record members _ => .openRecord :: ((memberTokens members).tail ++ [.closeRecord])
  | .broken => []

/-- The tokens of items, each after a comma. -/
def itemTokens : List Draft → List Token
  | [] => []
  | d :: ds => .comma :: (d.tokens ++ itemTokens ds)

/-- The tokens of members, each after a comma. -/
def memberTokens : List (Option String × Draft) → List Token
  | [] => []
  | (k, d) :: ms => .comma :: .text k :: .colon :: (d.tokens ++ memberTokens ms)

end

/-! ### Reading -/

/-- The tokens lead from the start of a value to its end. -/
def Completes (d : Draft) : Prop :=
  ∀ fs, d.tokens.foldl Reading.step (.going fs .value) = Reading.complete fs d

theorem Whole.exists_tokens {d : Draft} (h : d.Whole) :
    ∃ t ts, d.tokens = t :: ts ∧ t ≠ .closeList := by
  cases h <;> exact ⟨_, _, rfl, Token.noConfusion⟩

/-- Where a list may end, a value is read as where it may not. -/
theorem foldl_firstItem {d : Draft} (h : d.Whole) (fs : List Frame) :
    d.tokens.foldl Reading.step (.going fs .firstItem) =
      d.tokens.foldl Reading.step (.going (.list [] :: fs) .value) := by
  obtain ⟨t, ts, ht, hne⟩ := h.exists_tokens
  have hstep : Reading.step (.going fs .firstItem) t =
      Reading.step (.going (.list [] :: fs) .value) t := by
    cases t with
    | closeList => exact absurd rfl hne
    | _ => rfl
  rw [ht, List.foldl_cons, List.foldl_cons, hstep]

theorem foldl_itemTokens {ds : List Draft} (h : ∀ d ∈ ds, d.Completes) (fs : List Frame)
    (done : List Draft) :
    (itemTokens ds).foldl Reading.step (.going fs (.moreItems done)) =
      .going fs (.moreItems (ds.reverse ++ done)) := by
  induction ds generalizing done with
  | nil => rfl
  | cons d ds ih =>
    have hd := h d List.mem_cons_self (.list done :: fs)
    have hds := ih (fun e he => h e (List.mem_cons_of_mem d he)) (d :: done)
    simp only [itemTokens, List.foldl_cons, List.foldl_append, Reading.step, hd, Reading.complete,
      hds, List.reverse_cons, List.append_assoc, List.cons_append, List.nil_append]

theorem foldl_memberTokens {ms : List (Option String × Draft)} (h : ∀ m ∈ ms, m.2.Completes)
    (fs : List Frame) (done : List (Option String × Draft)) :
    (memberTokens ms).foldl Reading.step (.going fs (.moreMembers done)) =
      .going fs (.moreMembers (ms.reverse ++ done)) := by
  induction ms generalizing done with
  | nil => rfl
  | cons m ms ih =>
    obtain ⟨k, d⟩ := m
    have hd := h (k, d) List.mem_cons_self (.record done k :: fs)
    have hms := ih (fun e he => h e (List.mem_cons_of_mem _ he)) ((k, d) :: done)
    simp only [memberTokens, List.foldl_cons, List.foldl_append, Reading.step, hd,
      Reading.complete, hms, List.reverse_cons, List.append_assoc, List.cons_append,
      List.nil_append]

theorem completes_list {ds : List Draft} (hw : ∀ d ∈ ds, d.Whole) (h : ∀ d ∈ ds, d.Completes) :
    (Draft.list ds true).Completes := by
  intro fs
  cases ds with
  | nil => rfl
  | cons d ds =>
    have hfirst := foldl_firstItem (hw d List.mem_cons_self) fs
    have hd := h d List.mem_cons_self (.list [] :: fs)
    have hds := foldl_itemTokens (fun e he => h e (List.mem_cons_of_mem d he)) fs [d]
    simp only [tokens, itemTokens, List.tail_cons, List.foldl_cons, List.foldl_append,
      List.foldl_nil, Reading.step, Reading.startValue, hfirst, hd, Reading.complete, hds,
      List.reverse_append, List.reverse_reverse, List.reverse_cons, List.reverse_nil,
      List.nil_append, List.cons_append]

theorem completes_record {ms : List (Option String × Draft)} (h : ∀ m ∈ ms, m.2.Completes) :
    (Draft.record ms true).Completes := by
  intro fs
  cases ms with
  | nil => rfl
  | cons m ms =>
    obtain ⟨k, d⟩ := m
    have hd := h (k, d) List.mem_cons_self (.record [] k :: fs)
    have hms := foldl_memberTokens (fun e he => h e (List.mem_cons_of_mem _ he)) fs [(k, d)]
    simp only [tokens, memberTokens, List.tail_cons, List.foldl_cons, List.foldl_append,
      List.foldl_nil, Reading.step, Reading.startValue, hd, Reading.complete, hms,
      List.reverse_append, List.reverse_reverse, List.reverse_cons, List.reverse_nil,
      List.nil_append, List.cons_append]

theorem Whole.completes {d : Draft} (h : d.Whole) : d.Completes := by
  induction h with
  | null | bool | number | text =>
    intro fs
    rfl
  | list hw ih => exact completes_list hw ih
  | record _ ih => exact completes_record ih

theorem ofTokens_tokens {d : Draft} (h : d.Whole) : ofTokens d.tokens = (d, false) := by
  rw [ofTokens, h.completes []]
  rfl

/-! ### No two numbers side by side -/

theorem apart_cons {t : Token} {ts : List Token} (ht : t.isNumber = false) (h : Apart ts) :
    Apart (t :: ts) := by
  refine List.isChain_cons.2 ⟨fun u _ hn => ?_, h⟩
  rw [ht] at hn
  exact absurd hn.1 (by decide)

theorem apart_append {ts us : List Token} (hts : Apart ts) (hus : Apart us)
    (h : ∀ u ∈ us.head?, u.isNumber = false) : Apart (ts ++ us) := by
  refine List.isChain_append.2 ⟨hts, hus, fun t _ u hu hn => ?_⟩
  rw [h u hu] at hn
  exact absurd hn.2 (by decide)

theorem apart_itemTokens {ds : List Draft} (h : ∀ d ∈ ds, Apart d.tokens) :
    Apart (itemTokens ds) := by
  induction ds with
  | nil => exact .nil
  | cons d ds ih =>
    have hd := h d List.mem_cons_self
    have hds := ih fun e he => h e (List.mem_cons_of_mem d he)
    refine apart_cons rfl (apart_append hd hds ?_)
    cases ds <;> simp [itemTokens, Token.isNumber]

theorem apart_memberTokens {ms : List (Option String × Draft)} (h : ∀ m ∈ ms, Apart m.2.tokens) :
    Apart (memberTokens ms) := by
  induction ms with
  | nil => exact .nil
  | cons m ms ih =>
    have hm := h m List.mem_cons_self
    have hms := ih fun e he => h e (List.mem_cons_of_mem m he)
    refine apart_cons rfl (apart_cons rfl (apart_cons rfl (apart_append hm hms ?_)))
    cases ms <;> simp [memberTokens, Token.isNumber]

theorem Whole.apart_tokens {d : Draft} (h : d.Whole) : Apart d.tokens := by
  induction h with
  | null | bool | number | text => exact .singleton _
  | list _ ih =>
    have hitems := apart_itemTokens ih
    exact apart_cons rfl (apart_append hitems.tail (.singleton _) (by simp [Token.isNumber]))
  | record _ ih =>
    have hmembers := apart_memberTokens ih
    exact apart_cons rfl (apart_append hmembers.tail (.singleton _) (by simp [Token.isNumber]))

/-! ### Whole texts -/

/-- A text in which the tokens of `d` are spelled is read as `d`. -/
theorem ofTokens_lex {d : Draft} {cs : List Char} (hw : d.Whole) (h : Spaced d.tokens cs) :
    ofTokens (lex cs) = (d, false) := by
  rw [lex_of_spaced h hw.apart_tokens, ofTokens_tokens hw]

end Draft

end LocalEndpoint.Json
