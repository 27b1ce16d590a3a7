import LocalEndpoint.Proofs.Json.Entries

/-! Configurations of which only a part is given. What a configuration's text gives for its
    fields is all that counts (`decode_of_heldConfig`); the rest has the values of the default
    configuration (`finish_config`). A length of time amounts to its seconds and nanoseconds
    (`decode_of_lasts`, `spans_of_decode`), and it alone can be too long (`spans_of_tooLong`): if
    its nanoseconds carry past the last second. -/

namespace LocalEndpoint

theorem Span.ofParts?_eq_some_iff {secs : Size} {nanos : UInt32} {s : Span} :
    Span.ofParts? secs nanos = some s ↔ s.nanos = secs.toNat * 1000000000 + nanos.toNat := by
  rw [Span.ofParts?]
  split
  · rw [Option.some.injEq, Span.ext_iff]
    exact eq_comm
  · next h =>
    refine iff_of_false (by simp) fun he => h ?_
    exact he ▸ s.nanos_lt

namespace Json

/-! ### Only lengths of time are too long -/

theorem bind_ne_error {α β : Type} {x : Except DecodeError α} {g : α → Except DecodeError β}
    {e : DecodeError} (hx : x ≠ .error e) (hg : ∀ a, g a ≠ .error e) : x >>= g ≠ .error e := by
  cases x with
  | error e' => exact fun he => hx (congrArg Except.error (Except.error.inj he))
  | ok a => exact hg a

theorem mismatch_ne_tooLong (d : Draft) : mismatch d ≠ .tooLong := by
  cases d with
  | text s => cases s <;> simp [mismatch]
  | number n =>
    rw [mismatch]
    split <;> simp
  | _ => simp [mismatch]

theorem decodeSize_ne_tooLong (d : Draft) : decodeSize d ≠ .error .tooLong := by
  rw [decodeSize.eq_def]
  split
  · split <;> simp
  · simpa using mismatch_ne_tooLong d

theorem decodeWord_ne_tooLong (d : Draft) : decodeWord d ≠ .error .tooLong := by
  refine bind_ne_error (decodeSize_ne_tooLong d) ?_
  intro n
  split <;> simp

theorem decodeNull_ne_tooLong (d : Draft) : decodeNull d ≠ .error .tooLong := by
  rw [decodeNull.eq_def]
  split
  · simp
  · simpa using mismatch_ne_tooLong d

theorem decodeName_ne_tooLong {α : Type} (all : List α) (name : α → String) (s : String) :
    decodeName all name s ≠ .error .tooLong := by
  rw [decodeName]
  split <;> simp

theorem decodeNamed_ne_tooLong {α : Type} (all : List α) (name : α → String) (d : Draft) :
    decodeNamed all name d ≠ .error .tooLong := by
  rw [decodeNamed.eq_def]
  split
  · exact decodeName_ne_tooLong all name _
  · refine bind_ne_error (decodeName_ne_tooLong all name _) fun a => ?_
    refine bind_ne_error (decodeNull_ne_tooLong _) fun _ => ?_
    split <;> simp
  · simp

namespace RecordFormat

variable {σ α : Type} {f : RecordFormat σ α} {Q : List (Option String × Draft) → σ → Prop}

/-- If a record is too long a time, the value of a field is, or what is made of them. -/
theorem exists_of_tooLong (hf : f.Keeps Q) {d : Draft} (h : f.decode d = .error .tooLong) :
    (∃ s, Q (d.entries f.names) s ∧ f.finish s = .error .tooLong) ∨
      ∃ field ∈ f.fields, ∃ v ∈ d.valuesOf f.names field.name, ∃ s,
        field.store v s = .error .tooLong := by
  have hcomes := comes_decode hf d
  rw [h] at hcomes
  generalize he : DecodeError.tooLong = e at hcomes
  cases hcomes with
  | flawed hflaw =>
    cases hflaw with
    | value hmem hv hs => exact .inr ⟨_, hmem, _, hv, _, hs⟩
    | _ => cases he
  | lacking hs hfinish => exact .inl ⟨_, hs, he ▸ hfinish⟩
  | @short s e hs hfinish =>
    have htooLong : e = .tooLong := by
      cases e <;> first | rfl | cases he
    exact .inl ⟨s, hs, htooLong ▸ hfinish⟩
  | other => exact absurd he.symm (mismatch_ne_tooLong d)
  | malformed => cases he

theorem exists_of_ok (hf : f.Keeps Q) {d : Draft} {a : α} (h : f.decode d = .ok a) :
    ∃ s, Q (d.entries f.names) s ∧ f.finish s = .ok a := by
  have hcomes := comes_decode hf d
  rw [h] at hcomes
  cases hcomes with
  | made hs hfinish => exact ⟨_, hs, hfinish⟩

end RecordFormat

/-! ### Lengths of time -/

theorem keeps_span : spanFormat.Keeps (HeldPair "secs" "nanos" decodeSize decodeWord) :=
  keeps_pair rfl rfl (by decide)

/-- A length of time as its text gives it. -/
structure Parts where
  secs : Size
  nanos : UInt32

namespace Parts

/-- What it amounts to, in nanoseconds. -/
def total (p : Parts) : Nat := p.secs.toNat * 1000000000 + p.nanos.toNat

/-- Whether the carry of the nanoseconds leads past the last second. -/
def Overflows (p : Parts) : Prop := UInt64.size ≤ p.secs.toNat + p.nanos.toNat / 1000000000

/-- What is read from it. -/
def span (p : Parts) : Except DecodeError Span :=
  (Span.ofParts? p.secs p.nanos).elim (.error .tooLong) .ok

variable {p : Parts}

theorem span_eq_ok_iff {s : Span} : p.span = .ok s ↔ s.nanos = p.total := by
  rw [total, ← Span.ofParts?_eq_some_iff, span]
  cases Span.ofParts? p.secs p.nanos <;> simp

theorem span_eq_error_iff {e : DecodeError} : p.span = .error e ↔ e = .tooLong ∧ p.Overflows := by
  rw [Overflows, ← Span.ofParts?_eq_none_iff, span]
  cases Span.ofParts? p.secs p.nanos <;> simp [eq_comm]

theorem exists_span (h : ¬p.Overflows) : ∃ s, p.span = .ok s := by
  cases hs : p.span with
  | ok s => exact ⟨s, rfl⟩
  | error e => exact absurd (span_eq_error_iff.mp hs).2 h

end Parts

/-- The draft gives these seconds and nanoseconds. -/
structure Draft.Spans (d : Draft) (p : Parts) : Prop where
  secs : Held decodeSize (d.valuesOf spanFormat.names "secs") (some p.secs)
  nanos : Held decodeWord (d.valuesOf spanFormat.names "nanos") (some p.nanos)

/-- The draft is a length of time: it gives seconds and nanoseconds, in either form, and nothing
    else. -/
structure Draft.Lasts (d : Draft) (p : Parts) : Prop extends d.Spans p where
  form : d.RecordOf spanFormat.names
  only : ∀ k, some k ∈ (d.entries spanFormat.names).map Prod.fst → k ∈ spanFormat.names

theorem finish_parts (p : Parts) : spanFormat.finish (some p.secs, some p.nanos) = p.span := by
  unfold spanFormat
  dsimp only
  rw [require, ok_bind, require, ok_bind, Parts.span]
  cases Span.ofParts? p.secs p.nanos <;> rfl

/-- A length of time is read as what it amounts to, if that is not too long. -/
theorem decode_of_lasts {d : Draft} {p : Parts} (h : d.Lasts p) :
    spanFormat.decode d = p.span := by
  refine RecordFormat.decode_eq_of_recordOf keeps_span h.form ?_ (fun _ => h.only) ?_ ?_ ?_
  · intro field hmem
    rcases List.mem_pair.mp hmem with rfl | rfl
    · exact h.secs.length_le
    · exact h.nanos.length_le
  · intro field hmem v hv s e he
    rcases List.mem_pair.mp hmem with rfl | rfl
    · exact absurd (store_ofOption_error.mp he) (h.secs.ne_error_of_mem hv)
    · exact absurd (store_ofOption_error.mp he) (h.nanos.ne_error_of_mem hv)
  · intro s hs
    have hsecs : s.1 = some p.secs := hs.fst.unique h.secs
    have hnanos : s.2 = some p.nanos := hs.snd.unique h.nanos
    rw [← finish_parts, ← hsecs, ← hnanos]
  · intro e he
    rw [(Parts.span_eq_error_iff.mp he).1]
    rfl

/-- Where no field is missing, the end depends on seconds and nanoseconds. -/
theorem exists_of_finish_span {d : Draft} {s : Option Size × Option UInt32}
    (hs : HeldPair "secs" "nanos" decodeSize decodeWord (d.entries spanFormat.names) s)
    {r : Except DecodeError Span} (h : spanFormat.finish s = r)
    (hr : ∀ name, r ≠ .error (.missingField name)) : ∃ p, d.Spans p ∧ p.span = r := by
  obtain ⟨secs, nanos⟩ := s
  cases secs with
  | none => exact absurd h.symm (hr "secs")
  | some secs =>
    cases nanos with
    | none => exact absurd h.symm (hr "nanos")
    | some nanos =>
      have hend := finish_parts ⟨secs, nanos⟩
      exact ⟨⟨secs, nanos⟩, ⟨hs.fst, hs.snd⟩, hend.symm.trans h⟩

/-- What is read as a length of time is what its seconds and nanoseconds amount to. -/
theorem spans_of_decode {d : Draft} {span : Span} (h : spanFormat.decode d = .ok span) :
    ∃ p, d.Spans p ∧ span.nanos = p.total := by
  obtain ⟨s, hs, hfinish⟩ := RecordFormat.exists_of_ok keeps_span h
  obtain ⟨p, hspans, hspan⟩ := exists_of_finish_span hs hfinish (by simp)
  exact ⟨p, hspans, Parts.span_eq_ok_iff.mp hspan⟩

/-- What is too long a time has seconds and nanoseconds that overflow. -/
theorem spans_of_tooLong {d : Draft} (h : spanFormat.decode d = .error .tooLong) :
    ∃ p, d.Spans p ∧ p.Overflows := by
  rcases RecordFormat.exists_of_tooLong keeps_span h with
    ⟨s, hs, hfinish⟩ | ⟨field, hmem, v, -, s, he⟩
  · obtain ⟨p, hspans, hspan⟩ := exists_of_finish_span hs hfinish (by simp)
    exact ⟨p, hspans, (Parts.span_eq_error_iff.mp hspan).2⟩
  · rcases List.mem_pair.mp hmem with rfl | rfl
    · exact absurd (store_ofOption_error.mp he) (decodeSize_ne_tooLong v)
    · exact absurd (store_ofOption_error.mp he) (decodeWord_ne_tooLong v)

/-! ### Timings -/

theorem keeps_timing : timingFormat.Keeps
    (HeldPair "initial_delay" "max_delay" spanFormat.decode spanFormat.decode) :=
  keeps_pair rfl rfl (by decide)

/-- The draft gives these two delays. -/
structure Draft.Delays (d x y : Draft) : Prop where
  initial : d.valuesOf timingFormat.names "initial_delay" = [x]
  maximum : d.valuesOf timingFormat.names "max_delay" = [y]

theorem Held.exists_of_some {α : Type} {decode : Decoder α} {vs : List Draft} {a : α}
    (h : Held decode vs (some a)) : ∃ v, vs = [v] ∧ decode v = .ok a := by
  cases h with
  | once h => exact ⟨_, rfl, h⟩

/-- A timing is read from two delays. -/
theorem delays_of_decode {d : Draft} {t : Timing} (h : timingFormat.decode d = .ok t) :
    ∃ x y, d.Delays x y ∧ spanFormat.decode x = .ok t.initial ∧
      spanFormat.decode y = .ok t.maximum := by
  obtain ⟨⟨initial, maximum⟩, hs, hfinish⟩ := RecordFormat.exists_of_ok keeps_timing h
  cases initial with
  | none => cases hfinish
  | some initial =>
    cases maximum with
    | none => cases hfinish
    | some maximum =>
      obtain rfl : ⟨initial, maximum⟩ = t := Except.ok.inj hfinish
      obtain ⟨x, hx, hinitial⟩ := hs.fst.exists_of_some
      obtain ⟨y, hy, hmaximum⟩ := hs.snd.exists_of_some
      exact ⟨x, y, ⟨hx, hy⟩, hinitial, hmaximum⟩

theorem exists_of_timing_tooLong {d : Draft} (h : timingFormat.decode d = .error .tooLong) :
    ∃ x ∈ d.valuesOf timingFormat.names "initial_delay" ++
        d.valuesOf timingFormat.names "max_delay",
      spanFormat.decode x = .error .tooLong := by
  rcases RecordFormat.exists_of_tooLong keeps_timing h with
    ⟨s, -, hfinish⟩ | ⟨field, hmem, v, hv, s, he⟩
  · obtain ⟨initial, maximum⟩ := s
    cases initial <;> cases maximum <;> cases hfinish
  · rcases List.mem_pair.mp hmem with rfl | rfl
    · exact ⟨v, List.mem_append_left _ hv, store_ofOption_error.mp he⟩
    · exact ⟨v, List.mem_append_right _ hv, store_ofOption_error.mp he⟩

/-- What is read from two delays. -/
def timingOf (p q : Parts) : Except DecodeError Timing := do
  let initial ← p.span
  let maximum ← q.span
  .ok ⟨initial, maximum⟩

theorem timingOf_of_overflows {p q : Parts} (h : p.Overflows ∨ q.Overflows) :
    timingOf p q = .error .tooLong := by
  have hoverflow : ∀ {p : Parts}, p.Overflows → p.span = .error .tooLong :=
    fun h => Parts.span_eq_error_iff.mpr ⟨rfl, h⟩
  rw [timingOf]
  cases hp : p.span with
  | error e =>
    obtain ⟨rfl, -⟩ := Parts.span_eq_error_iff.mp hp
    rfl
  | ok i =>
    rcases h with h | h
    · rw [hoverflow h] at hp
      cases hp
    · rw [hoverflow h]
      rfl

theorem exists_timingOf {p q : Parts} (h : ¬(p.Overflows ∨ q.Overflows)) :
    ∃ t : Timing, timingOf p q = .ok t ∧ t.initial.nanos = p.total ∧ t.maximum.nanos = q.total := by
  rw [not_or] at h
  obtain ⟨i, hi⟩ := Parts.exists_span h.1
  obtain ⟨m, hm⟩ := Parts.exists_span h.2
  refine ⟨⟨i, m⟩, ?_, Parts.span_eq_ok_iff.mp hi, Parts.span_eq_ok_iff.mp hm⟩
  rw [timingOf, hi, hm]
  rfl

/-- The draft is a timing of two lengths of time. -/
structure Draft.Times (d : Draft) (p q : Parts) : Prop where
  form : d.RecordOf timingFormat.names
  delays : ∃ x y, d.Delays x y ∧ x.Lasts p ∧ y.Lasts q

/-- A timing is read from its two delays. -/
theorem decode_of_times {d : Draft} {p q : Parts} (h : d.Times p q) :
    timingFormat.decode d = timingOf p q := by
  obtain ⟨hd, x, y, ⟨hinitial, hmaximum⟩, hx, hy⟩ := h
  have hfirst : spanFormat.decode x = p.span := decode_of_lasts hx
  have hsecond : spanFormat.decode y = q.span := decode_of_lasts hy
  have hlong : ∀ {e}, p.span = .error e ∨ q.span = .error e → timingOf p q = .error e := by
    rintro e (he | he)
    · obtain ⟨rfl, hp⟩ := Parts.span_eq_error_iff.mp he
      exact timingOf_of_overflows (.inl hp)
    · obtain ⟨rfl, hq⟩ := Parts.span_eq_error_iff.mp he
      exact timingOf_of_overflows (.inr hq)
  refine RecordFormat.decode_eq_of_recordOf keeps_timing hd ?_ (fun hs => by cases hs) ?_ ?_ ?_
  · intro field hmem
    rcases List.mem_pair.mp hmem with rfl | rfl
    · exact (congrArg List.length hinitial).le
    · exact (congrArg List.length hmaximum).le
  · intro field hmem v hv s e he
    rcases List.mem_pair.mp hmem with rfl | rfl
    · obtain rfl : v = x := List.mem_singleton.mp (hinitial ▸ hv)
      exact hlong (.inl (hfirst.symm.trans (store_ofOption_error.mp he)))
    · obtain rfl : v = y := List.mem_singleton.mp (hmaximum ▸ hv)
      exact hlong (.inr (hsecond.symm.trans (store_ofOption_error.mp he)))
  · rintro ⟨initial, maximum⟩ hs
    have hs1 : Held spanFormat.decode [x] initial := hinitial ▸ hs.fst
    have hs2 : Held spanFormat.decode [y] maximum := hmaximum ▸ hs.snd
    cases hs1 with
    | once hi =>
      cases hs2 with
      | once hm =>
        rw [timingOf, ← hfirst, ← hsecond, hi, hm]
        rfl
  · intro e he
    by_cases ho : p.Overflows ∨ q.Overflows
    · rw [timingOf_of_overflows ho] at he
      cases he
      rfl
    · obtain ⟨t, ht, -⟩ := exists_timingOf ho
      rw [ht] at he
      cases he

/-! ### Configurations -/

/-- What the entries give for the fields of a configuration. -/
structure HeldConfig (es : List (Option String × Draft)) (s : Config.Overrides) : Prop where
  timing : Held timingFormat.decode (valuesIn "backoff" es) s.timing
  rule : Held decodeRule (valuesIn "backlog_strategy" es) s.rule
  instances : Held decodeSize (valuesIn "pending_instances" es) s.pendingInstances

theorem mem_triple {α : Type} {a b c x : α} : x ∈ [a, b, c] ↔ x = a ∨ x = b ∨ x = c := by
  simp

theorem keeps_config : configFormat.Keeps HeldConfig where
  nodup := by decide
  start := ⟨.absent, .absent, .absent⟩
  store := by
    intro field hmem es s v s' h hp hst
    rcases mem_triple.mp hmem with rfl | rfl | rfl
    · obtain ⟨t, ht, rfl⟩ := store_ofOption_ok hst
      exact ⟨h.timing.give hp ht, h.rule.skip (by decide), h.instances.skip (by decide)⟩
    · obtain ⟨r, hr, rfl⟩ := store_ofOption_ok hst
      exact ⟨h.timing.skip (by decide), h.rule.give hp hr, h.instances.skip (by decide)⟩
    · obtain ⟨n, hn, rfl⟩ := store_ofOption_ok hst
      exact ⟨h.timing.skip (by decide), h.rule.skip (by decide), h.instances.give hp hn⟩
  skip := by
    intro es s k v h hk
    have hne : ∀ name ∈ configFormat.names, some k ≠ some name := by
      intro name hname he
      exact hk (Option.some.inj he ▸ hname)
    exact ⟨h.timing.skip (hne _ (by decide)), h.rule.skip (hne _ (by decide)),
      h.instances.skip (hne _ (by decide))⟩
  present := by
    intro field hmem es s h
    rcases mem_triple.mp hmem with rfl | rfl | rfl
    · exact h.timing.isSome_iff
    · exact h.rule.isSome_iff
    · exact h.instances.isSome_iff

/-- The default of each field is what the default configuration has there. -/
theorem finish_config (o : Config.Overrides) :
    configFormat.finish o = .ok (({} : Config).overlay o) := rfl

/-- A configuration that is too long a time has a timing that is. -/
theorem exists_of_config_tooLong {d : Draft} (h : configFormat.decode d = .error .tooLong) :
    ∃ b ∈ d.valuesOf configFormat.names "backoff", timingFormat.decode b = .error .tooLong := by
  rcases RecordFormat.exists_of_tooLong keeps_config h with
    ⟨s, -, hfinish⟩ | ⟨field, hmem, v, hv, s, he⟩
  · cases hfinish
  · rcases mem_triple.mp hmem with rfl | rfl | rfl
    · exact ⟨v, hv, store_ofOption_error.mp he⟩
    · exact absurd (store_ofOption_error.mp he) (decodeNamed_ne_tooLong _ _ v)
    · exact absurd (store_ofOption_error.mp he) (decodeSize_ne_tooLong v)

/-- With the other settings in order, a configuration is decoded to what its timing's value says:
    its fault, or a configuration with what is read from it. -/
theorem decode_config {d : Draft} {rule : Option BacklogRule} {instances : Option Size}
    {r : Except DecodeError Config} (hd : d.RecordOf configFormat.names)
    (honce : (d.valuesOf configFormat.names "backoff").length ≤ 1)
    (hrule : Held decodeRule (d.valuesOf configFormat.names "backlog_strategy") rule)
    (hinstances : Held decodeSize (d.valuesOf configFormat.names "pending_instances") instances)
    (hfault : ∀ v ∈ d.valuesOf configFormat.names "backoff", ∀ e,
      timingFormat.decode v = .error e → r = .error e)
    (hread : ∀ t, Held timingFormat.decode (d.valuesOf configFormat.names "backoff") t →
      r = .ok (({} : Config).overlay ⟨t, rule, instances⟩))
    (hshort : ∀ e, r = .error e → RecordFormat.shortfall e = e) : configFormat.decode d = r := by
  refine RecordFormat.decode_eq_of_recordOf keeps_config hd ?_ (fun hs => by cases hs) ?_ ?_ hshort
  · intro field hmem
    rcases mem_triple.mp hmem with rfl | rfl | rfl
    · exact honce
    · exact hrule.length_le
    · exact hinstances.length_le
  · intro field hmem v hv s e he
    rcases mem_triple.mp hmem with rfl | rfl | rfl
    · exact hfault v hv e (store_ofOption_error.mp he)
    · exact absurd (store_ofOption_error.mp he) (hrule.ne_error_of_mem hv)
    · exact absurd (store_ofOption_error.mp he) (hinstances.ne_error_of_mem hv)
  · intro s hs
    have hsame : s = ⟨s.timing, rule, instances⟩ := by
      rw [← hs.rule.unique hrule, ← hs.instances.unique hinstances]
    rw [finish_config, hread s.timing hs.timing, ← hsame]

/-- A configuration is read from what is given, with defaults for what is not. -/
theorem decode_of_heldConfig {d : Draft} {o : Config.Overrides} (hd : d.RecordOf configFormat.names)
    (h : HeldConfig (d.entries configFormat.names) o) :
    configFormat.decode d = .ok (({} : Config).overlay o) := by
  refine decode_config hd h.timing.length_le h.rule h.instances ?_ ?_ ?_
  · intro v hv e he
    exact absurd he (h.timing.ne_error_of_mem hv)
  · intro t ht
    rw [ht.unique h.timing]
  · intro e he
    cases he

/-- With a timing that is too long, so is the configuration, if the rest of it is in order. -/
theorem decode_of_tooLong {d b : Draft} {rule : Option BacklogRule} {instances : Option Size}
    (hd : d.RecordOf configFormat.names) (hb : d.valuesOf configFormat.names "backoff" = [b])
    (hlong : timingFormat.decode b = .error .tooLong)
    (hrule : Held decodeRule (d.valuesOf configFormat.names "backlog_strategy") rule)
    (hinstances : Held decodeSize (d.valuesOf configFormat.names "pending_instances") instances) :
    configFormat.decode d = .error .tooLong := by
  refine decode_config hd (congrArg List.length hb).le hrule hinstances ?_ ?_ ?_
  · intro v hv e he
    obtain rfl : v = b := List.mem_singleton.mp (hb ▸ hv)
    rw [Except.error.inj (hlong.symm.trans he)]
  · intro t ht
    rw [hb] at ht
    cases ht with
    | once h =>
      rw [hlong] at h
      cases h
  · intro e he
    cases he
    rfl

/-! ### Texts -/

theorem Draft.SpeltBy.decodeText_eq {α : Type} {d : Draft} {text : String} (h : d.SpeltBy text)
    (decode : Decoder α) : decodeText decode text = decode d :=
  decodeText_of_spaced decode h.1 h.2

/-- Nothing was given, or one value, from whose own text `decode` reads `a`. -/
inductive Given {α : Type} (decode : Decoder α) : List Draft → Option α → Prop
  | absent : Given decode [] none
  | once {d : Draft} {own : String} {a : α} (hd : d.SpeltBy own)
      (h : decodeText decode own = .ok a) : Given decode [d] (some a)

theorem Given.held {α : Type} {decode : Decoder α} {vs : List Draft} {o : Option α}
    (h : Given decode vs o) : Held decode vs o := by
  cases h with
  | absent => exact .absent
  | once hd h => exact .once ((hd.decodeText_eq decode).symm.trans h)

/-- The draft gives these settings of a configuration, and no others. -/
structure Draft.Configures (d : Draft) (o : Config.Overrides) : Prop where
  form : d.RecordOf configFormat.names
  timing : Given timingFormat.decode (d.valuesOf configFormat.names "backoff") o.timing
  rule : Given decodeRule (d.valuesOf configFormat.names "backlog_strategy") o.rule
  instances :
    Given decodeSize (d.valuesOf configFormat.names "pending_instances") o.pendingInstances

theorem Draft.Configures.decode_eq {d : Draft} {o : Config.Overrides} (h : d.Configures o) :
    configFormat.decode d = .ok (({} : Config).overlay o) :=
  decode_of_heldConfig h.form ⟨h.timing.held, h.rule.held, h.instances.held⟩

/-- Drafts that give the same give the same settings. -/
theorem Draft.Configures.of_valuesOf_eq {d d' : Draft} {o : Config.Overrides} (h : d.Configures o)
    (hd : d'.RecordOf configFormat.names)
    (hsame : ∀ name ∈ configFormat.names,
      d'.valuesOf configFormat.names name = d.valuesOf configFormat.names name) :
    d'.Configures o := by
  refine ⟨hd, ?_, ?_, ?_⟩
  · rw [hsame _ (by decide)]
    exact h.timing
  · rw [hsame _ (by decide)]
    exact h.rule
  · rw [hsame _ (by decide)]
    exact h.instances

/-- The list of the first fields is read as the record of them, in order or not. -/
theorem decode_items_eq {items : List Draft} (hlength : items.length ≤ configFormat.names.length) :
    configFormat.decode (.list items true) =
      configFormat.decode (.record ((configFormat.names.map some).zip items) true) := by
  obtain ⟨g, -, hdecode⟩ := RecordFormat.decode_recordOf keeps_config (.items hlength)
  rw [hdecode, RecordFormat.decode, Draft.entries]
  cases configFormat.readMembers ((configFormat.names.map some).zip items) configFormat.start <;>
    rfl

/-- A configuration depends on what is given of it alone. Let `text` spell out `d`. If `d` is a
    record of settings, each given once at most and with a value for its type, among any other
    members or as the list of the first fields, then it is read, each setting that is given as
    its own text is, each that is not as in the default configuration, whatever their order and
    whatever else is in it; a timing that is given has two delays, each of as many nanoseconds as
    its seconds and nanoseconds amount to. A list of the first fields is read as the record of
    just these. If the timing's text gives two lengths of time, and the other settings are in
    order, the configuration is too long if one of the two overflows, and is read otherwise; and
    nothing else in any text is too long. -/
theorem config_from_given {d : Draft} {text : String} (hd : d.SpeltBy text) :
    (∀ o, d.Configures o →
      decodeText configFormat.decode text = .ok (({} : Config).overlay o) ∧
      (∀ (d' : Draft) (text' : String), d'.SpeltBy text' → d'.RecordOf configFormat.names →
        (∀ name ∈ configFormat.names,
          d'.valuesOf configFormat.names name = d.valuesOf configFormat.names name) →
        decodeText configFormat.decode text' = decodeText configFormat.decode text) ∧
      ∀ t, o.timing = some t → ∃ b x y p q,
        d.valuesOf configFormat.names "backoff" = [b] ∧ b.Delays x y ∧ x.Spans p ∧ y.Spans q ∧
          t.initial.nanos = p.total ∧ t.maximum.nanos = q.total) ∧
    (∀ items text', d = .list items true → items.length ≤ configFormat.names.length →
      (Draft.record ((configFormat.names.map some).zip items) true).SpeltBy text' →
      decodeText configFormat.decode text' = decodeText configFormat.decode text) ∧
    (∀ b p q rule instances, d.RecordOf configFormat.names →
      d.valuesOf configFormat.names "backoff" = [b] → b.Times p q →
      Given decodeRule (d.valuesOf configFormat.names "backlog_strategy") rule →
      Given decodeSize (d.valuesOf configFormat.names "pending_instances") instances →
        (p.Overflows ∨ q.Overflows → decodeText configFormat.decode text = .error .tooLong) ∧
        (¬(p.Overflows ∨ q.Overflows) →
          ∃ t : Timing, t.initial.nanos = p.total ∧ t.maximum.nanos = q.total ∧
            decodeText configFormat.decode text =
              .ok (({} : Config).overlay ⟨some t, rule, instances⟩))) ∧
    (decodeText configFormat.decode text = .error .tooLong →
      ∃ b ∈ d.valuesOf configFormat.names "backoff",
        ∃ x ∈ b.valuesOf timingFormat.names "initial_delay" ++
          b.valuesOf timingFormat.names "max_delay", ∃ p, x.Spans p ∧ p.Overflows) := by
  have htext := hd.decodeText_eq configFormat.decode
  refine ⟨?given, ?items, ?times, ?tooLong⟩
  case given =>
    intro o ho
    refine ⟨htext.trans ho.decode_eq, ?_, ?_⟩
    · intro d' text' hd' hform hsame
      have hsettings := ho.of_valuesOf_eq hform hsame
      rw [htext, hd'.decodeText_eq, ho.decode_eq, hsettings.decode_eq]
    · intro t ht
      have htiming := ho.timing.held
      rw [ht] at htiming
      obtain ⟨b, hb, hdecode⟩ := htiming.exists_of_some
      obtain ⟨x, y, hdelays, hx, hy⟩ := delays_of_decode hdecode
      obtain ⟨p, hp, hinitial⟩ := spans_of_decode hx
      obtain ⟨q, hq, hmaximum⟩ := spans_of_decode hy
      exact ⟨b, x, y, p, q, hb, hdelays, hp, hq, hinitial, hmaximum⟩
  case items =>
    rintro items text' rfl hlength htext'
    rw [htext, htext'.decodeText_eq, decode_items_eq hlength]
  case times =>
    intro b p q rule instances hform hb htimes hrule hinstances
    have hdecode : timingFormat.decode b = timingOf p q := decode_of_times htimes
    refine ⟨?_, ?_⟩
    · intro hlong
      rw [timingOf_of_overflows hlong] at hdecode
      exact htext.trans (decode_of_tooLong hform hb hdecode hrule.held hinstances.held)
    · intro hshort
      obtain ⟨t, ht, hinitial, hmaximum⟩ := exists_timingOf hshort
      refine ⟨t, hinitial, hmaximum, htext.trans (decode_of_heldConfig hform ⟨?_, ?_, ?_⟩)⟩
      · have hgiven : Held timingFormat.decode [b] (some t) := .once (hdecode.trans ht)
        rwa [← hb] at hgiven
      · exact hrule.held
      · exact hinstances.held
  case tooLong =>
    intro h
    obtain ⟨b, hb, hlong⟩ := exists_of_config_tooLong (htext.symm.trans h)
    obtain ⟨x, hx, hspan⟩ := exists_of_timing_tooLong hlong
    obtain ⟨p, hp, hover⟩ := spans_of_tooLong hspan
    exact ⟨b, hb, x, hx, p, hp, hover⟩

/-- One setting, between members that are none. -/
def soleSetting : Draft :=
  .record [(some "later", .record [(some "a", .list [.null, .null] true)] true),
    (some "pending_instances", .number (.ofNat 9)), (some "later", .bool false)] true

def soleSettingText : String :=
  "\x7b\"later\":\x7b\"a\":[null,null]\x7d,\"pending_instances\": 9,\"later\":false\x7d"

theorem speltBy_soleSetting : soleSetting.SpeltBy soleSettingText := by
  refine ⟨.record ?_, ?_⟩
  · intro m hm
    rcases mem_triple.mp hm with rfl | rfl | rfl
    · refine .record fun m hm => ?_
      rw [List.mem_singleton.mp hm]
      refine .list fun d hd => ?_
      rcases List.mem_pair.mp hd with rfl | rfl <;> exact .null
    · exact .number _
    · exact .bool false
  · have hlist : Spaced _ _ := .token .openList (.token .null (.token .comma (.token .null
      (.token .closeList .nil))))
    have hlater : Spaced _ _ := .token .openRecord (.token (spelled_quote "a") (.token .colon
      (hlist.append (.token .closeRecord .nil))))
    have hall : Spaced _ _ := .token .openRecord (.token (spelled_quote "later") (.token .colon
      (hlater.append (.token .comma (.token (spelled_quote "pending_instances") (.token .colon
      (.blank (c := ' ') rfl (.token (.number (Numeral.spelled_ofNat 9)) (.token .comma
      (.token (spelled_quote "later") (.token .colon (.token .no
      (.token .closeRecord .nil)))))))))))))
    refine cast (congrArg₂ Spaced ?_ ?_) hall
    · rfl
    · decide +kernel

/-- Whatever comes later, a setting keeps its place, and the others their defaults. -/
theorem config_from_given_of_soleSetting : soleSetting.SpeltBy soleSettingText ∧
    decodeText configFormat.decode soleSettingText = .ok { pendingInstances := 9 } := by
  have hnine : Draft.SpeltBy (.number (.ofNat 9)) "9" := by
    refine ⟨.number _, ?_⟩
    exact (Token.Spelled.number (Numeral.spelled_ofNat 9)).spaced
  have hvalue : decodeText decodeSize "9" = .ok 9 := by
    rw [hnine.decodeText_eq]
    exact reads_size 9 (.number 9) (.number 9)
  have hsettings : soleSetting.Configures { pendingInstances := some 9 } :=
    ⟨.members [("later", _), ("pending_instances", _), ("later", _)], .absent, .absent,
      .once hnine hvalue⟩
  obtain ⟨hread, -, -⟩ := (config_from_given speltBy_soleSetting).1 _ hsettings
  exact ⟨speltBy_soleSetting, hread⟩

end Json

end LocalEndpoint
