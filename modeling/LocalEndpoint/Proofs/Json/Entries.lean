import LocalEndpoint.Proofs.Json.RoundTrip

/-! What a record gives. A record in either form is a list of entries (`Draft.entries`), and of
    these only the values of its fields count (`valuesIn`). While a format reads the entries its
    state holds what they have given (`RecordFormat.Keeps`), so it ends with what all of them
    give, or with a flaw that they have (`Flaw`): there is nothing else that a reading can come
    to (`readMembers_run`). Order and foreign keys do not show in the values, so they make no
    difference, and the list of the first fields reads as the record of these (`decode_list`). -/

namespace LocalEndpoint.Json

/-- The values that entries give for a field. -/
def valuesIn (name : String) (es : List (Option String × Draft)) : List Draft :=
  (es.filter (·.1 == some name)).map Prod.snd

namespace Draft

/-- The text spells out this value, with blanks or none between its tokens. -/
def SpeltBy (d : Draft) (text : String) : Prop := d.Whole ∧ Spaced d.tokens text.toList

/-- What a record gives, each with its key; the items of a list have the names of its fields. -/
def entries (names : List String) : Draft → List (Option String × Draft)
  | .record members _ => members
  | .list items _ => (names.map some).zip items
  | _ => []

/-- The values that a record gives for a field. -/
def valuesOf (names : List String) (name : String) (d : Draft) : List Draft :=
  valuesIn name (d.entries names)

/-- A record of these fields: members with any keys, or the values of its first fields. -/
inductive RecordOf (names : List String) : Draft → Prop
  | members (ms : List (String × Draft)) :
      RecordOf names (.record (ms.map fun m => (some m.1, m.2)) true)
  | items {ds : List Draft} (h : ds.length ≤ names.length) : RecordOf names (.list ds true)

theorem RecordOf.none_not_mem {names : List String} {d : Draft} (h : d.RecordOf names) :
    none ∉ (d.entries names).map Prod.fst := by
  cases h with
  | members ms => simp [entries]
  | items =>
    intro hn
    obtain ⟨m, hm, hnone⟩ := List.mem_map.mp hn
    have hkey := (List.of_mem_zip hm).1
    rw [hnone] at hkey
    simp at hkey

end Draft

section Values

variable {name : String} {es : List (Option String × Draft)} {v : Draft}

theorem mem_valuesIn : v ∈ valuesIn name es ↔ (some name, v) ∈ es := by
  simp [valuesIn]

theorem valuesIn_append (fs : List (Option String × Draft)) :
    valuesIn name (es ++ fs) = valuesIn name es ++ valuesIn name fs := by
  rw [valuesIn, List.filter_append, List.map_append]
  rfl

@[simp] theorem valuesIn_concat_self :
    valuesIn name (es ++ [(some name, v)]) = valuesIn name es ++ [v] := by
  simp [valuesIn]

theorem valuesIn_concat_of_ne {k : Option String} (h : k ≠ some name) :
    valuesIn name (es ++ [(k, v)]) = valuesIn name es := by
  simp [valuesIn, h]

end Values

/-- Nothing was given, or one value, from which `decode` reads `a`. -/
inductive Held {α : Type} (decode : Decoder α) : List Draft → Option α → Prop
  | absent : Held decode [] none
  | once {v : Draft} {a : α} (h : decode v = .ok a) : Held decode [v] (some a)

namespace Held

variable {α : Type} {decode : Decoder α} {vs : List Draft} {v : Draft} {o p : Option α} {a : α}

theorem unique (h : Held decode vs o) (h' : Held decode vs p) : o = p := by
  cases h with
  | absent =>
    cases h'
    rfl
  | once h =>
    cases h' with
    | once h' =>
      rw [h] at h'
      cases h'
      rfl

theorem isSome_iff (h : Held decode vs o) : o.isSome = true ↔ vs ≠ [] := by
  cases h <;> simp

theorem length_le (h : Held decode vs o) : vs.length ≤ 1 := by
  cases h <;> simp

theorem ne_error_of_mem (h : Held decode vs o) (hv : v ∈ vs) {e : DecodeError} :
    decode v ≠ .error e := by
  cases h with
  | absent => cases hv
  | once h =>
    rw [List.mem_singleton.mp hv, h]
    simp

variable {name : String} {es : List (Option String × Draft)}

/-- The first value is given. -/
theorem give (h : Held decode (valuesIn name es) o) (ho : o.isSome = false)
    (hv : decode v = .ok a) : Held decode (valuesIn name (es ++ [(some name, v)])) (some a) := by
  rw [valuesIn_concat_self]
  generalize valuesIn name es = vs at h
  cases h with
  | absent => exact .once hv
  | once => cases ho

/-- Something else is given. -/
theorem skip (h : Held decode (valuesIn name es) o) {k : Option String} (hk : k ≠ some name) :
    Held decode (valuesIn name (es ++ [(k, v)])) o := by
  rwa [valuesIn_concat_of_ne hk]

end Held

namespace RecordFormat

variable {σ α : Type} {f : RecordFormat σ α} {Q : List (Option String × Draft) → σ → Prop}

/-- The names of the fields, in their order. -/
def names (f : RecordFormat σ α) : List String := f.fields.map (·.name)

/-- `Q` says what the state holds of the entries read so far. -/
structure Keeps (f : RecordFormat σ α) (Q : List (Option String × Draft) → σ → Prop) : Prop where
  nodup : f.names.Nodup
  start : Q [] f.start
  store : ∀ field ∈ f.fields, ∀ es s v s', Q es s → field.present s = false →
    field.store v s = .ok s' → Q (es ++ [(some field.name, v)]) s'
  skip : ∀ es s k v, Q es s → k ∉ f.names → Q (es ++ [(some k, v)]) s
  present : ∀ field ∈ f.fields, ∀ es s, Q es s →
    (field.present s = true ↔ valuesIn field.name es ≠ [])

/-- What entries can have that keeps them from being read. -/
inductive Flaw (f : RecordFormat σ α) (es : List (Option String × Draft)) : DecodeError → Prop
  | key (h : none ∈ es.map Prod.fst) : Flaw f es .malformed
  | again {field : Field σ} (hf : field ∈ f.fields)
      (h : 2 ≤ (valuesIn field.name es).length) : Flaw f es (.duplicateField field.name)
  | value {field : Field σ} {v : Draft} {s : σ} {e : DecodeError} (hf : field ∈ f.fields)
      (hv : v ∈ valuesIn field.name es) (h : field.store v s = .error e) : Flaw f es e
  | unknown {k : String} (hs : f.strict = true) (hm : some k ∈ es.map Prod.fst)
      (hk : k ∉ f.names) : Flaw f es (.unknownField k)

/-- All that a reading can come to. -/
theorem readMembers_run (hf : f.Keeps Q) {es ms : List (Option String × Draft)} {s : σ}
    (hQ : Q es s) :
    (∀ s', f.readMembers ms s = .ok s' → Q (es ++ ms) s') ∧
      ∀ e, f.readMembers ms s = .error e → f.Flaw (es ++ ms) e := by
  induction ms generalizing es s with
  | nil =>
    refine ⟨?_, fun e he => by cases he⟩
    intro s' hs'
    cases hs'
    rwa [List.append_nil]
  | cons m ms ih =>
    obtain ⟨k, v⟩ := m
    cases k with
    | none =>
      refine ⟨fun s' hs' => (by cases hs'), ?_⟩
      intro e he
      cases he
      exact .key (by simp)
    | some k =>
      rw [readMembers]
      split
      · next field hfind =>
        have hmem : field ∈ f.fields := List.mem_of_find?_eq_some hfind
        obtain rfl : field.name = k := by simpa using List.find?_some hfind
        cases hp : field.present s with
        | true =>
          -- It has been given before, among the entries already read, and is given again here.
          refine ⟨fun s' hs' => (by simp at hs'), ?_⟩
          intro e he
          have hgiven := (hf.present field hmem es s hQ).mp hp
          have hlength := List.length_pos_iff.mpr hgiven
          have hsplit : es ++ (some field.name, v) :: ms = es ++ [(some field.name, v)] ++ ms := by
            simp
          obtain rfl : DecodeError.duplicateField field.name = e := by simpa using he
          refine .again hmem ?_
          rw [hsplit, valuesIn_append, valuesIn_concat_self, List.length_append,
            List.length_append, List.length_singleton]
          omega
        | false =>
          simp only [Bool.false_eq_true, if_false]
          cases hst : field.store v s with
          | ok t =>
            have hrest := ih (hf.store field hmem es s v t hQ hp hst)
            rwa [List.append_assoc] at hrest
          | error e =>
            refine ⟨fun s' hs' => (by cases hs'), ?_⟩
            intro e' he'
            cases he'
            exact .value hmem (mem_valuesIn.mpr (by simp)) hst
      · next hfind =>
        have hforeign : k ∉ f.names := by
          intro hk
          obtain ⟨field, hmem, rfl⟩ := List.mem_map.mp hk
          have := List.find?_eq_none.mp hfind field hmem
          simp at this
        cases hs : f.strict with
        | true =>
          refine ⟨fun s' hs' => (by simp at hs'), ?_⟩
          intro e he
          obtain rfl : DecodeError.unknownField k = e := by simpa using he
          exact .unknown hs (by simp) hforeign
        | false =>
          have hrest := ih (hf.skip es s k v hQ hforeign)
          rwa [List.append_assoc] at hrest

theorem readMembers_start (hf : f.Keeps Q) (ms : List (Option String × Draft)) :
    (∀ s, f.readMembers ms f.start = .ok s → Q ms s) ∧
      ∀ e, f.readMembers ms f.start = .error e → f.Flaw ms e :=
  readMembers_run hf hf.start

/-- Items are read as the entries that they are, until fields or items run out. -/
theorem readItems_eq (hf : f.Keeps Q) {gs : List (Field σ)} (hsub : ∀ g ∈ gs, g ∈ f.fields)
    (hn : (gs.map (·.name)).Nodup) {es : List (Option String × Draft)} {s : σ} (hQ : Q es s)
    (hnew : ∀ g ∈ gs, valuesIn g.name es = []) (ds : List Draft) :
    readItems gs ds s = (f.readMembers ((gs.map fun g => some g.name).zip ds) s).map
      fun t => (t, gs.drop ds.length, ds.drop gs.length) := by
  induction gs generalizing es s ds with
  | nil => cases ds <;> rfl
  | cons g gs ih =>
    cases ds with
    | nil => rfl
    | cons d ds =>
      have hmem := hsub g List.mem_cons_self
      have hfind : f.fields.find? (·.name == g.name) = some g := find?_key hf.nodup hmem
      have habsent : g.present s = false := by
        refine Bool.eq_false_iff.mpr fun hp => ?_
        exact (hf.present g hmem es s hQ).mp hp (hnew g List.mem_cons_self)
      rw [List.map_cons, List.nodup_cons] at hn
      simp only [List.map_cons, List.zip_cons_cons, readItems, readMembers, hfind, habsent,
        Bool.false_eq_true, if_false]
      cases hst : g.store d s with
      | error e => rfl
      | ok t =>
        refine ih (fun g' hg' => hsub g' (List.mem_cons_of_mem g hg')) hn.2
          (hf.store g hmem es s d t hQ habsent hst) ?_ ds
        intro g' hg'
        have hne : (some g.name) ≠ some g'.name := by
          intro he
          exact hn.1 (Option.some.inj he ▸ List.mem_map_of_mem hg')
        rw [valuesIn_concat_of_ne hne]
        exact hnew g' (List.mem_cons_of_mem g hg')

/-- A list is read as the record of the fields that it reaches. -/
theorem decode_list (hf : f.Keeps Q) (ds : List Draft) (closed : Bool) :
    f.decode (.list ds closed) =
      match f.readMembers ((Draft.list ds closed).entries f.names) f.start with
      | .error e => .error e
      | .ok s =>
        if !(f.fields.drop ds.length).isEmpty && !closed then .error .malformed
        else
          match f.finish s with
          | .error e => .error (shortfall e)
          | .ok a => if (ds.drop f.fields.length).isEmpty && closed then .ok a
            else .error .malformed := by
  have hentries : (Draft.list ds closed).entries f.names =
      (f.fields.map fun g => some g.name).zip ds := by
    rw [Draft.entries, names, List.map_map]
    rfl
  rw [decode, readItems_eq hf (fun g hg => hg) hf.nodup hf.start (fun g _ => rfl) ds, hentries]
  cases f.readMembers ((f.fields.map fun g => some g.name).zip ds) f.start <;> rfl

/-- All that decoding can come to. -/
inductive Comes (f : RecordFormat σ α) (Q : List (Option String × Draft) → σ → Prop) (d : Draft) :
    Except DecodeError α → Prop
  | made {s : σ} {a : α} (hs : Q (d.entries f.names) s) (h : f.finish s = .ok a) :
      Comes f Q d (.ok a)
  | flawed {e : DecodeError} (h : f.Flaw (d.entries f.names) e) : Comes f Q d (.error e)
  | lacking {s : σ} {e : DecodeError} (hs : Q (d.entries f.names) s) (h : f.finish s = .error e) :
      Comes f Q d (.error e)
  | short {s : σ} {e : DecodeError} (hs : Q (d.entries f.names) s) (h : f.finish s = .error e) :
      Comes f Q d (.error (shortfall e))
  | other : Comes f Q d (.error (mismatch d))
  | malformed : Comes f Q d (.error .malformed)

theorem comes_decode (hf : f.Keeps Q) (d : Draft) : f.Comes Q d (f.decode d) := by
  have hrun := readMembers_start hf (d.entries f.names)
  cases d with
  | record members closed =>
    rw [decode]
    cases hr : f.readMembers members f.start with
    | error e => exact .flawed (hrun.2 e hr)
    | ok s =>
      have hs : Q ((Draft.record members closed).entries f.names) s := hrun.1 s hr
      cases closed with
      | false => exact .malformed
      | true =>
        change f.Comes Q _ (f.finish s)
        cases ha : f.finish s with
        | ok a => exact .made hs ha
        | error e => exact .lacking hs ha
  | list items closed =>
    rw [decode_list hf]
    cases hr : f.readMembers ((Draft.list items closed).entries f.names) f.start with
    | error e => exact .flawed (hrun.2 e hr)
    | ok s =>
      have hs := hrun.1 s hr
      simp only
      split
      · exact .malformed
      · cases ha : f.finish s with
        | error e => exact .short hs ha
        | ok a =>
          simp only
          split
          · exact .made hs ha
          · exact .malformed
  | _ => exact .other

/-- A record of the fields is decoded as its entries are read. -/
theorem decode_recordOf (hf : f.Keeps Q) {d : Draft} (hd : d.RecordOf f.names) :
    ∃ g, (g = id ∨ g = shortfall) ∧
      f.decode d =
        f.readMembers (d.entries f.names) f.start >>= fun s => (f.finish s).mapError g := by
  cases hd with
  | members ms =>
    refine ⟨id, .inl rfl, ?_⟩
    rw [decode, Draft.entries]
    cases f.readMembers (ms.map fun m => (some m.1, m.2)) f.start with
    | error e => rfl
    | ok s =>
      simp only [if_true, ok_bind]
      cases f.finish s <;> rfl
  | @items ds hlength =>
    have hnone : ds.drop f.fields.length = [] := by
      refine List.drop_eq_nil_of_le ?_
      rwa [names, List.length_map] at hlength
    refine ⟨shortfall, .inr rfl, ?_⟩
    rw [decode_list hf]
    cases f.readMembers ((Draft.list ds true).entries f.names) f.start with
    | error e => rfl
    | ok s =>
      simp only [ok_bind, hnone, List.isEmpty_nil, Bool.and_true, Bool.not_true, Bool.and_false,
        Bool.false_eq_true, if_false, if_true]
      cases f.finish s <;> rfl

/-- A record of the fields, each given once at most, is decoded to what its values say: their fault,
    or what is made of them in the end. -/
theorem decode_eq_of_recordOf (hf : f.Keeps Q) {d : Draft} (hd : d.RecordOf f.names)
    (honce : ∀ field ∈ f.fields, (d.valuesOf f.names field.name).length ≤ 1)
    (hknown : f.strict = true → ∀ k, some k ∈ (d.entries f.names).map Prod.fst → k ∈ f.names)
    {r : Except DecodeError α}
    (hstore : ∀ field ∈ f.fields, ∀ v ∈ d.valuesOf f.names field.name, ∀ s e,
      field.store v s = .error e → r = .error e)
    (hfinish : ∀ s, Q (d.entries f.names) s → f.finish s = r)
    (hshort : ∀ e, r = .error e → shortfall e = e) : f.decode d = r := by
  have hrun := readMembers_start hf (d.entries f.names)
  obtain ⟨g, hg, hdecode⟩ := decode_recordOf hf hd
  rw [hdecode]
  cases hr : f.readMembers (d.entries f.names) f.start with
  | ok s =>
    rw [ok_bind, hfinish s (hrun.1 s hr)]
    rcases hg with rfl | rfl
    · cases r <;> rfl
    · cases r with
      | ok a => rfl
      | error e => exact congrArg Except.error (hshort e rfl)
  | error e =>
    cases hrun.2 e hr with
    | key h => exact absurd h hd.none_not_mem
    | again hmem h =>
      have := honce _ hmem
      rw [Draft.valuesOf] at this
      omega
    | value hmem hv h => exact (hstore _ hmem _ hv _ _ h).symm
    | unknown hs hm hk => exact absurd (hknown hs _ hm) hk

end RecordFormat

/-! ### Fields that are kept as options -/

section Options

variable {σ α β : Type} {name : String} {decode : Decoder α} {get : σ → Option α}
  {set : σ → α → σ} {v : Draft} {s s' : σ} {e : DecodeError}

theorem store_ofOption_ok (h : (Field.ofOption name decode get set).store v s = .ok s') :
    ∃ a, decode v = .ok a ∧ s' = set s a := by
  rw [Field.ofOption] at h
  cases hv : decode v with
  | error e => simp [hv, Except.map] at h
  | ok a =>
    refine ⟨a, rfl, ?_⟩
    simpa [hv, Except.map] using h.symm

theorem store_ofOption_error :
    (Field.ofOption name decode get set).store v s = .error e ↔ decode v = .error e := by
  rw [Field.ofOption]
  cases hv : decode v <;> simp [hv, Except.map]

/-- What the entries give for two fields. -/
structure HeldPair (m n : String) (decodeFst : Decoder α) (decodeSnd : Decoder β)
    (es : List (Option String × Draft)) (s : Option α × Option β) : Prop where
  fst : Held decodeFst (valuesIn m es) s.1
  snd : Held decodeSnd (valuesIn n es) s.2

theorem keeps_pair {γ : Type} {f : RecordFormat (Option α × Option β) γ} {m n : String}
    {decodeFst : Decoder α} {decodeSnd : Decoder β}
    (hf : f.fields = [.ofOption m decodeFst (·.1) (fun s a => (some a, s.2)),
      .ofOption n decodeSnd (·.2) (fun s b => (s.1, some b))])
    (hs : f.start = (none, none)) (hmn : m ≠ n) :
    f.Keeps (HeldPair m n decodeFst decodeSnd) where
  nodup := by simpa [RecordFormat.names, hf, Field.ofOption] using hmn
  start := by
    rw [hs]
    exact ⟨.absent, .absent⟩
  store := by
    rw [hf]
    intro field hmem es s v s' h hp hst
    rcases List.mem_pair.mp hmem with rfl | rfl
    · obtain ⟨a, ha, rfl⟩ := store_ofOption_ok hst
      exact ⟨h.fst.give hp ha, h.snd.skip (by simpa [Field.ofOption] using hmn)⟩
    · obtain ⟨b, hb, rfl⟩ := store_ofOption_ok hst
      exact ⟨h.fst.skip (by simpa [Field.ofOption] using hmn.symm), h.snd.give hp hb⟩
  skip := by
    intro es s k v h hk
    have hnames : k ≠ m ∧ k ≠ n := by simpa [RecordFormat.names, hf, Field.ofOption] using hk
    exact ⟨h.fst.skip (by simp [hnames.1]), h.snd.skip (by simp [hnames.2])⟩
  present := by
    rw [hf]
    intro field hmem es s h
    rcases List.mem_pair.mp hmem with rfl | rfl
    · exact h.fst.isSome_iff
    · exact h.snd.isSome_iff

end Options

end LocalEndpoint.Json
