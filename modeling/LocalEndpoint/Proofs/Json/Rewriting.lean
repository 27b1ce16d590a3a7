import LocalEndpoint.Proofs.Json.Writing
import Mathlib.Data.List.Forall2

/-! The other ways to write a value, and readers that do not mind them. The members of a record may
    stand in any order, or only their values in the order of the fields; a name may be the only key
    of a record. These may be mixed at every depth.

    A record is read field by field. What is known after each field is stated as a property of the
    state and of the names read so far (`Field.Takes`); it says nothing about the order, so a
    permutation of the members and the list of the values lead to the same end
    (`RecordFormat.reads`). -/

namespace LocalEndpoint.Json

/-- Another way to write a value. -/
inductive Value.Respelled : Value → Value → Prop
  | null : Value.Respelled .null .null
  | bool (b : Bool) : Value.Respelled (.bool b) (.bool b)
  | number (n : Nat) : Value.Respelled (.number n) (.number n)
  | text (s : String) : Value.Respelled (.text s) (.text s)
  /-- A name as the only key of a record. -/
  | key (s : String) : Value.Respelled (.text s) (.record [(s, .null)])
  | list {vs ws : List Value} (h : List.Forall₂ Value.Respelled vs ws) :
      Value.Respelled (.list vs) (.list ws)
  /-- The members in any order. -/
  | record {ms ps : List (String × Value)} {ws : List Value}
      (h : List.Forall₂ (fun m w => Value.Respelled m.2 w) ms ws)
      (hp : ((ms.map Prod.fst).zip ws).Perm ps) : Value.Respelled (.record ms) (.record ps)
  /-- The members without their keys. -/
  | items {ms : List (String × Value)} {ws : List Value}
      (h : List.Forall₂ (fun m w => Value.Respelled m.2 w) ms ws) :
      Value.Respelled (.record ms) (.list ws)

/-- The text is one that says `v`, in the words of `v` or in other words. -/
def Value.Rewrites (v : Value) (text : String) : Prop :=
  ∃ w, v.Respelled w ∧ Spaced w.draft.tokens text.toList

mutual

theorem Value.respelled_refl : ∀ v : Value, v.Respelled v
  | .null => .null
  | .bool b => .bool b
  | .number n => .number n
  | .text s => .text s
  | .list vs => .list (Value.respelled_items vs)
  | .record ms => by
    refine .record (Value.respelled_members ms) (List.Perm.of_eq ?_)
    exact (List.zip_of_prod rfl rfl).symm

theorem Value.respelled_items : ∀ vs : List Value, List.Forall₂ Value.Respelled vs vs
  | [] => .nil
  | v :: vs => .cons (Value.respelled_refl v) (Value.respelled_items vs)

theorem Value.respelled_members : ∀ ms : List (String × Value),
    List.Forall₂ (fun m w => Value.Respelled m.2 w) ms (ms.map Prod.snd)
  | [] => .nil
  | (_, v) :: ms => .cons (Value.respelled_refl v) (Value.respelled_members ms)

end

theorem Value.rewrites_render (v : Value) : v.Rewrites v.render := by
  refine ⟨v, v.respelled_refl, ?_⟩
  rw [Value.render, String.toList_ofList]
  exact v.spaced_chars

/-- `decode` reads `a` from `v`, however it is put. -/
def Reads {α : Type} (decode : Decoder α) (v : Value) (a : α) : Prop :=
  ∀ w, v.Respelled w → decode w.draft = .ok a

theorem Reads.decodeText_eq {α : Type} {decode : Decoder α} {v : Value} {a : α}
    (h : Reads decode v a) {text : String} (hv : v.Rewrites text) :
    decodeText decode text = .ok a := by
  obtain ⟨w, hw, ht⟩ := hv
  rw [decodeText_of_spaced decode w.whole_draft ht, h w hw]

/-! ### Plain values -/

theorem reads_bool (b : Bool) : Reads decodeBool (.bool b) b := by
  intro w hw
  cases hw
  rfl

theorem reads_size (n : Size) : Reads decodeSize (.number n.toNat) n := by
  intro w hw
  cases hw
  simp only [Value.draft, decodeSize, Numeral.kind_ofNat]

theorem reads_word (n : UInt32) : Reads decodeWord (.number n.toNat) n := by
  intro w hw
  have hsize := reads_size n.toUInt64 w (by rwa [UInt32.toNat_toUInt64])
  have hlt : n.toUInt64.toNat < UInt32.size := by
    rw [UInt32.toNat_toUInt64]
    exact n.toNat_lt
  simp only [decodeWord, hsize]
  change (if _ then _ else _) = _
  rw [if_pos hlt, UInt32.toNat_toUInt64, UInt32.ofNat_toNat]

/-- In a list of distinct keys each is found at its place. -/
theorem find?_key {α κ : Type} [BEq κ] [LawfulBEq κ] {key : α → κ} {all : List α}
    (hn : (all.map key).Nodup) {a : α} (ha : a ∈ all) : all.find? (key · == key a) = some a := by
  induction all with
  | nil => cases ha
  | cons b all ih =>
    rw [List.map_cons, List.nodup_cons] at hn
    rcases List.mem_cons.1 ha with rfl | ha
    · simp
    · have hne : key b ≠ key a := fun he => hn.1 (List.mem_map.2 ⟨a, ha, he.symm⟩)
      rw [List.find?_cons_of_neg (by simp [hne]), ih hn.2 ha]

/-- A name is read, alone or as a key, if no two names are the same. -/
theorem reads_name {α : Type} {all : List α} {name : α → String} (hn : (all.map name).Nodup)
    {a : α} (ha : a ∈ all) : Reads (decodeNamed all name) (.text (name a)) a := by
  have hname : decodeName all name (name a) = .ok a := by
    rw [decodeName, find?_key hn ha]
  intro w hw
  cases hw with
  | text => exact hname
  | key =>
    simp only [Value.draft, Value.draftsOfMembers, decodeNamed, hname]
    rfl

/-! ### Records -/

/-- `a` once `name` has been read, before that nothing. -/
def given {α : Type} (name : String) (a : α) (done : List String) : Option α :=
  if name ∈ done then some a else none

theorem given_self {α : Type} (name : String) (a : α) (done : List String) :
    given name a (name :: done) = some a := if_pos List.mem_cons_self

theorem given_of_mem {α : Type} {name : String} {done : List String} (h : name ∈ done) (a : α) :
    given name a done = some a := if_pos h

theorem given_of_not_mem {α : Type} {name : String} {done : List String} (h : name ∉ done) (a : α) :
    given name a done = none := if_neg h

theorem given_of_ne {α : Type} {name other : String} (h : name ≠ other) (a : α)
    (done : List String) : given name a (other :: done) = given name a done := by
  simp only [given, List.mem_cons, h, false_or]

/-- What the field reads from `d` keeps what is known of the state, now with the field's name. -/
def Field.Takes {σ : Type} (field : Field σ) (P : List String → σ → Prop) (d : Draft) : Prop :=
  ∀ done s, P done s → field.name ∉ done →
    field.present s = false ∧ ∃ s', field.store d s = .ok s' ∧ P (field.name :: done) s'

theorem Field.takes_ofOption {σ α : Type} {name : String} {decode : Decoder α}
    {get : σ → Option α} {set : σ → α → σ} {P : List String → σ → Prop} {d : Draft} {a : α}
    (hd : decode d = .ok a) (hget : ∀ done s, P done s → get s = given name a done)
    (hset : ∀ done s, P done s → P (name :: done) (set s a)) :
    (Field.ofOption name decode get set).Takes P d := by
  intro done s hP hn
  have habsent : get s = none := by
    rw [hget done s hP]
    exact given_of_not_mem hn a
  refine ⟨?_, set s a, ?_, hset done s hP⟩
  · simp only [Field.ofOption, habsent, Option.isSome_none]
  · simp only [Field.ofOption, hd]
    rfl

namespace RecordFormat

variable {σ α : Type} {f : RecordFormat σ α} {P : List String → σ → Prop}

theorem readMembers_of_takes (hn : (f.fields.map (·.name)).Nodup) {ms : List (String × Draft)}
    (h : ∀ m ∈ ms, ∃ field ∈ f.fields, field.name = m.1 ∧ field.Takes P m.2)
    (hms : (ms.map Prod.fst).Nodup) {done : List String} {s : σ} (hP : P done s)
    (hd : ∀ m ∈ ms, m.1 ∉ done) :
    ∃ s', f.readMembers (ms.map fun m => (some m.1, m.2)) s = .ok s' ∧
      P ((ms.map Prod.fst).reverse ++ done) s' := by
  induction ms generalizing done s with
  | nil => exact ⟨s, rfl, hP⟩
  | cons m ms ih =>
    obtain ⟨k, d⟩ := m
    obtain ⟨field, hmem, rfl, htakes⟩ := h _ List.mem_cons_self
    rw [List.map_cons, List.nodup_cons] at hms
    obtain ⟨habsent, t, ht, hPt⟩ := htakes done s hP (hd _ List.mem_cons_self)
    have hfresh : ∀ m ∈ ms, m.1 ∉ field.name :: done := by
      intro m hm hmd
      rcases List.mem_cons.1 hmd with he | hmd
      · exact hms.1 (List.mem_map.2 ⟨m, hm, he⟩)
      · exact hd m (List.mem_cons_of_mem _ hm) hmd
    obtain ⟨s', hs', hP'⟩ := ih (fun m hm => h m (List.mem_cons_of_mem _ hm)) hms.2 hPt hfresh
    refine ⟨s', ?_, ?_⟩
    · simp only [List.map_cons, readMembers, find?_key hn hmem, habsent, ht, hs',
        Bool.false_eq_true, if_false]
    · simpa using hP'

/-- Items are read into as many fields, and the fields after them are left. -/
theorem readItems_of_takes {fields : List (Field σ)} (rest : List (Field σ)) {ds : List Draft}
    (h : List.Forall₂ (fun field d => field.Takes P d) fields ds)
    (hn : (fields.map (·.name)).Nodup) {done : List String} {s : σ} (hP : P done s)
    (hd : ∀ field ∈ fields, field.name ∉ done) :
    ∃ s', readItems (fields ++ rest) ds s = .ok (s', rest, []) ∧
      P ((fields.map (·.name)).reverse ++ done) s' := by
  induction h generalizing done s with
  | nil =>
    refine ⟨s, ?_, hP⟩
    cases rest <;> rfl
  | @cons field d fields ds htakes _ ih =>
    rw [List.map_cons, List.nodup_cons] at hn
    obtain ⟨-, t, ht, hPt⟩ := htakes done s hP (hd _ List.mem_cons_self)
    have hfresh : ∀ g ∈ fields, g.name ∉ field.name :: done := by
      intro g hg hgd
      rcases List.mem_cons.1 hgd with he | hgd
      · exact hn.1 (List.mem_map.2 ⟨g, hg, he⟩)
      · exact hd g (List.mem_cons_of_mem _ hg) hgd
    obtain ⟨s', hs', hP'⟩ := ih hn.2 hPt hfresh
    refine ⟨s', ?_, ?_⟩
    · simp only [List.cons_append, readItems, ht, hs']
    · simpa using hP'

/-- What is known of fields and values is known of the keys with the values in other words. -/
theorem takes_zip {fields : List (Field σ)} {ms : List (String × Value)} {ws : List Value}
    (h : List.Forall₂ (fun field m => field.name = m.1 ∧
      ∀ w, m.2.Respelled w → field.Takes P w.draft) fields ms)
    (hw : List.Forall₂ (fun m w => m.2.Respelled w) ms ws) :
    List.Forall₂ (fun field q => field.name = q.1 ∧ field.Takes P q.2.draft) fields
      ((ms.map Prod.fst).zip ws) := by
  induction h generalizing ws with
  | nil =>
    cases hw
    exact .nil
  | cons hm _ ih =>
    cases hw with
    | cons hv hw => exact .cons ⟨hm.1, hm.2 _ hv⟩ (ih hw)

theorem exists_of_mem_right {α β : Type} {R : α → β → Prop} {as : List α} {bs : List β}
    (h : List.Forall₂ R as bs) {b : β} (hb : b ∈ bs) : ∃ a ∈ as, R a b := by
  induction h with
  | nil => cases hb
  | @cons a c as bs hab _ ih =>
    rcases List.mem_cons.1 hb with rfl | hb
    · exact ⟨a, List.mem_cons_self, hab⟩
    · obtain ⟨a', ha', hr⟩ := ih hb
      exact ⟨a', List.mem_cons_of_mem a ha', hr⟩

/-- A record is read in each of its forms, if each field takes its value in each of its forms. -/
theorem reads {ms : List (String × Value)} {a : α} (hn : (f.fields.map (·.name)).Nodup)
    (hstart : P [] f.start)
    (h : List.Forall₂ (fun field m => field.name = m.1 ∧
      ∀ w, m.2.Respelled w → field.Takes P w.draft) f.fields ms)
    (hfinish : ∀ done s, P done s → (∀ k ∈ ms.map Prod.fst, k ∈ done) → f.finish s = .ok a) :
    Reads f.decode (.record ms) a := by
  have hfresh : ∀ k : String, k ∉ ([] : List String) := fun k => List.not_mem_nil
  have hnames : f.fields.map (·.name) = ms.map Prod.fst := by
    rw [← List.forall₂_eq_eq_eq, List.forall₂_map_left_iff, List.forall₂_map_right_iff]
    exact h.imp fun _ _ hm => hm.1
  intro w hw
  cases hw with
  | @record _ ps ws hws hp =>
    have hkeys : (ms.map Prod.fst).Perm (ps.map Prod.fst) := by
      have := hp.map Prod.fst
      rwa [List.map_fst_zip (by simp [hws.length_eq])] at this
    have htakes : ∀ p ∈ ps.map (fun m => (m.1, m.2.draft)),
        ∃ field ∈ f.fields, field.name = p.1 ∧ field.Takes P p.2 := by
      intro p hmem
      obtain ⟨m, hm, rfl⟩ := List.mem_map.1 hmem
      exact exists_of_mem_right (takes_zip h hws) (hp.mem_iff.2 hm)
    have hps : (ps.map fun m => (m.1, m.2.draft)).map Prod.fst = ps.map Prod.fst := by
      rw [List.map_map]
      rfl
    have hnodup : ((ps.map fun m => (m.1, m.2.draft)).map Prod.fst).Nodup := by
      rw [hps, ← hkeys.nodup_iff, ← hnames]
      exact hn
    obtain ⟨s, hs, hP⟩ := readMembers_of_takes hn htakes hnodup hstart fun m _ => hfresh m.1
    have hread : f.readMembers (ps.map fun m => (some m.1, m.2.draft)) f.start = .ok s := by
      rw [List.map_map] at hs
      exact hs
    have hdone : f.finish s = .ok a := by
      refine hfinish _ s hP fun k hk => ?_
      rw [hps, List.append_nil, List.mem_reverse, ← hkeys.mem_iff]
      exact hk
    simp only [Value.draft, Value.draftsOfMembers_eq, decode, hread, if_true, hdone]
  | @items _ ws hws =>
    have hds : List.Forall₂ (fun field d => field.Takes P d) f.fields (ws.map Value.draft) := by
      have hsnd : ((ms.map Prod.fst).zip ws).map Prod.snd = ws :=
        List.map_snd_zip (by simp [hws.length_eq])
      rw [← hsnd, List.map_map, List.forall₂_map_right_iff]
      exact (takes_zip h hws).imp fun _ _ hq => hq.2
    obtain ⟨s, hs, hP⟩ := readItems_of_takes [] hds hn hstart fun g _ => hfresh g.name
    have hdone : f.finish s = .ok a := by
      refine hfinish _ s hP fun k hk => ?_
      rw [List.append_nil, List.mem_reverse, hnames]
      exact hk
    rw [List.append_nil] at hs
    simp only [Value.draft, Value.draftsOfItems_eq, decode, hs, hdone]
    rfl

end RecordFormat

end LocalEndpoint.Json
