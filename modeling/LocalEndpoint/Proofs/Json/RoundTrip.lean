import LocalEndpoint.Json.Formats
import LocalEndpoint.Proofs.Json.Rewriting

/-! Decoding undoes encoding. For each format the readers of its fields are put together, from
    counts over lengths of time to whole configurations, and what the fields read so far have stored
    is the property that the reading keeps. Every value then comes back from its own text and from
    every text that says the same in other words (`decode_undoes_encode`). -/

namespace LocalEndpoint.Json

/-! ### Records of two fields -/

/-- A record of two fields is read if each of them is. -/
theorem reads_pair {α β γ : Type} {f : RecordFormat (Option α × Option β) γ} {m n : String}
    {decodeFst : Decoder α} {decodeSnd : Decoder β} {v w : Value} {a : α} {b : β} {c : γ}
    (hf : f.fields = [.ofOption m decodeFst (·.1) (fun s a => (some a, s.2)),
      .ofOption n decodeSnd (·.2) (fun s b => (s.1, some b))])
    (hs : f.start = (none, none)) (hmn : m ≠ n) (ha : Reads decodeFst v a)
    (hb : Reads decodeSnd w b) (hc : f.finish (some a, some b) = .ok c) :
    Reads f.decode (.record [(m, v), (n, w)]) c := by
  refine RecordFormat.reads (P := fun done s => s.1 = given m a done ∧ s.2 = given n b done)
    ?_ ?_ ?_ ?_
  · rw [hf]
    simpa [Field.ofOption] using hmn
  · rw [hs]
    exact ⟨rfl, rfl⟩
  · rw [hf]
    refine .cons ⟨rfl, fun d hd => ?_⟩ (.cons ⟨rfl, fun d hd => ?_⟩ .nil)
    · refine Field.takes_ofOption (ha d hd) (fun _ _ h => h.1) fun done s h => ⟨?_, ?_⟩
      · rw [given_self]
      · rw [given_of_ne hmn.symm, h.2]
    · refine Field.takes_ofOption (hb d hd) (fun _ _ h => h.2) fun done s h => ⟨?_, ?_⟩
      · rw [given_of_ne hmn, h.1]
      · rw [given_self]
  · rintro done s ⟨h1, h2⟩ hall
    have hm : m ∈ done := hall m (by simp)
    have hn : n ∈ done := hall n (by simp)
    have heq : s = (some a, some b) :=
      Prod.ext (h1.trans (given_of_mem hm a)) (h2.trans (given_of_mem hn b))
    rw [heq, hc]

theorem ok_bind {ε α β : Type} (a : α) (f : α → Except ε β) : (Except.ok a >>= f) = f a := rfl

theorem finish_span {secs : Size} {nanos : UInt32} {s : Span}
    (h : Span.ofParts? secs nanos = some s) :
    spanFormat.finish (some secs, some nanos) = .ok s := by
  unfold spanFormat
  dsimp only
  -- Step by step: as one computation this would have `ofParts?` compare numbers of 94 bits.
  rw [require, ok_bind, require, ok_bind, h]

theorem reads_span (s : Span) : Reads spanFormat.decode (encodeSpan s) s :=
  reads_pair rfl rfl (by decide) (reads_size s.secs) (reads_word s.subsec)
    (finish_span s.ofParts?_parts)

theorem reads_timing (t : Timing) : Reads timingFormat.decode (encodeTiming t) t :=
  reads_pair rfl rfl (by decide) (reads_span t.initial) (reads_span t.maximum) rfl

theorem reads_settings (s : Unix.Settings) : Reads settingsFormat.decode (encodeSettings s) s :=
  reads_pair rfl rfl (by decide) (reads_bool s.removeStale) (reads_bool s.cleanupOnClose) rfl

/-! ### Configurations -/

theorem reads_rule (r : BacklogRule) : Reads decodeRule (.text (BacklogRule.name r)) r :=
  reads_name (by decide) (by cases r <;> decide)

/-- What has been read of `c` once these fields have been read. -/
structure PartOf (c : Config) (done : List String) (s : Config.Overrides) : Prop where
  timing : s.timing = given "backoff" c.timing done
  rule : s.rule = given "backlog_strategy" c.rule done
  instances : s.pendingInstances = given "pending_instances" c.pendingInstances done

theorem reads_config (c : Config) : Reads configFormat.decode (encodeConfig c) c := by
  refine RecordFormat.reads (P := PartOf c) (by decide) ⟨rfl, rfl, rfl⟩ ?_ ?_
  · refine .cons ⟨rfl, fun d hd => ?_⟩ (.cons ⟨rfl, fun d hd => ?_⟩
      (.cons ⟨rfl, fun d hd => ?_⟩ .nil))
    · refine Field.takes_ofOption (reads_timing c.timing d hd) (fun _ _ h => h.timing) ?_
      intro done s h
      exact ⟨(given_self _ _ _).symm, by rw [given_of_ne (by decide), h.rule],
        by rw [given_of_ne (by decide), h.instances]⟩
    · refine Field.takes_ofOption (reads_rule c.rule d hd) (fun _ _ h => h.rule) ?_
      intro done s h
      exact ⟨by rw [given_of_ne (by decide), h.timing], (given_self _ _ _).symm,
        by rw [given_of_ne (by decide), h.instances]⟩
    · refine Field.takes_ofOption (reads_size c.pendingInstances d hd)
        (fun _ _ h => h.instances) ?_
      intro done s h
      exact ⟨by rw [given_of_ne (by decide), h.timing], by rw [given_of_ne (by decide), h.rule],
        (given_self _ _ _).symm⟩
  · intro done s h hall
    have htiming := h.timing.trans (given_of_mem (hall "backoff" (by simp)) _)
    have hrule := h.rule.trans (given_of_mem (hall "backlog_strategy" (by simp)) _)
    have hinstances := h.instances.trans (given_of_mem (hall "pending_instances" (by simp)) _)
    simp only [configFormat, htiming, hrule, hinstances, Option.getD_some]

/-! ### Counters -/

theorem Counter.name_injective {c d : Counter} (h : c.name = d.name) : c = d := by
  revert h
  cases c <;> cases d <;> decide

theorem finish_tally {s : PartialTally} {t : Tally} (h : ∀ c, s.lookup c = some (t.get c)) :
    tallyFormat.finish s = .ok t := by
  simp only [tallyFormat, Counter.all, List.foldlM_cons, List.foldlM_nil, h, require]
  rfl

theorem reads_tally (t : Tally) : Reads tallyFormat.decode (encodeTally t) t := by
  refine RecordFormat.reads (P := fun done s =>
    ∀ c : Counter, s.lookup c = given c.name (t.get c) done) ?_ ?_ ?_ ?_
  · decide
  · intro c
    rfl
  · refine List.forall₂_map_left_iff.2 (List.forall₂_map_right_iff.2 (List.forall₂_same.2 ?_))
    intro c _
    refine ⟨rfl, fun d hd => ?_⟩
    refine Field.takes_ofOption (reads_size (t.get c) d hd) (fun _ _ h => h c) ?_
    intro done s h c'
    by_cases hc : c' = c
    · subst hc
      rw [given_self, List.lookup_cons_self]
    · have hne : c'.name ≠ c.name := fun he => hc (Counter.name_injective he)
      rw [given_of_ne hne, List.lookup_cons, beq_false_of_ne hc, h]
  · intro done s h hall
    refine finish_tally fun c => ?_
    have hmem : c.name ∈ done := by
      refine hall c.name ?_
      rw [List.map_map]
      exact List.mem_map.2 ⟨c, by cases c <;> decide, rfl⟩
    rw [h c, given_of_mem hmem]

/-! ### One text in other words -/

/-- Every count and the first length of time at the top of its range. -/
def topmost : Config where
  timing := ⟨Span.longest, ⟨1, by decide⟩⟩
  rule := .pendingInstances
  pendingInstances := Size.top

/-- Its members in another order, some records as lists, and the name as a key. -/
def topmostRespelled : Value :=
  .record [("pending_instances", .number Size.top.toNat),
    ("backoff", .list [.record [("nanos", .number 999999999), ("secs", .number Size.top.toNat)],
      .list [.number 0, .number 1]]),
    ("backlog_strategy", .record [("pending_instances", .null)])]

/-- The text of that, with blanks between tokens and the name's first letter by number. -/
def topmostText : String :=
  "\x7b \"pending_instances\":18446744073709551615,\t\"backoff\": [\x7b\"nanos\" :999999999," ++
    "\"secs\":18446744073709551615\x7d,[0 ,1] ],\n\"backlog_strategy\":" ++
    "\x7b\"\\u0070ending_instances\":null\x7d\x7d "

theorem respelled_topmost : (encodeConfig topmost).Respelled topmostRespelled := by
  have hlongest : (encodeSpan Span.longest).Respelled
      (.record [("nanos", .number 999999999), ("secs", .number Size.top.toNat)]) :=
    .record (.cons (.number _) (.cons (.number _) .nil)) (.swap _ _ _)
  have hshort : (encodeSpan ⟨1, by decide⟩).Respelled (.list [.number 0, .number 1]) :=
    .items (.cons (.number _) (.cons (.number _) .nil))
  exact .record (.cons (.items (.cons hlongest (.cons hshort .nil)))
    (.cons (.key _) (.cons (.number _) .nil)))
    (List.perm_append_comm : ([_, _] ++ [_]).Perm ([_] ++ [_, _]))

theorem spaced_topmost : Spaced topmostRespelled.draft.tokens topmostText.toList := by
  obtain ⟨ps, hps, hds⟩ := spelled_quoteChars "ending_instances".toList
  have hname : Token.Spelled (.text (some "pending_instances")) _ :=
    .text (Denotes.unit (c := 'p') (by decide) hds)
      (.cons (.unit (a := '0') (b := '0') (c := '7') (d := '0') rfl) hps)
  have hspan : Spaced _ _ := .token .openRecord (.token (spelled_quote "nanos")
    (.blank (c := ' ') rfl (.token .colon (.token (.number (Numeral.spelled_ofNat 999999999))
    (.token .comma (.token (spelled_quote "secs") (.token .colon
    (.token (.number (Numeral.spelled_ofNat Size.top.toNat)) (.token .closeRecord .nil)))))))))
  have hlist : Spaced _ _ := .token .openList (.token (.number (Numeral.spelled_ofNat 0))
    (.blank (c := ' ') rfl (.token .comma (.token (.number (Numeral.spelled_ofNat 1))
    (.token .closeList .nil)))))
  have hrule : Spaced _ _ := .token .openRecord (.token hname (.token .colon (.token .null
    (.token .closeRecord .nil))))
  have hbackoff : Spaced _ _ := .token (spelled_quote "backoff") (.token .colon
    (.blank (c := ' ') rfl (.token .openList (hspan.append (.token .comma (hlist.append
    (.blank (c := ' ') rfl (.token .closeList .nil))))))))
  have hall : Spaced _ _ := .token .openRecord (.blank (c := ' ') rfl
    (.token (spelled_quote "pending_instances") (.token .colon
    (.token (.number (Numeral.spelled_ofNat Size.top.toNat)) (.token .comma
    (.blank (c := '\t') rfl (hbackoff.append (.token .comma (.blank (c := '\n') rfl
    (.token (spelled_quote "backlog_strategy") (.token .colon (hrule.append
    (.token .closeRecord (.blank (c := ' ') rfl .nil))))))))))))))
  refine cast (congrArg₂ Spaced ?_ ?_) hall
  · rfl
  · decide +kernel

/-! ### All formats -/

/-- A value comes back from the text that `encode` makes of it, and from every text that says the
    same in other words. -/
def Undoes {α : Type} (decode : Decoder α) (encode : α → Value) : Prop :=
  ∀ a, decodeText decode (encode a).render = .ok a ∧
    ∀ text, (encode a).Rewrites text → decodeText decode text = .ok a

theorem undoes_of_reads {α : Type} {decode : Decoder α} {encode : α → Value}
    (h : ∀ a, Reads decode (encode a) a) : Undoes decode encode :=
  fun a => ⟨(h a).decodeText_eq (encode a).rewrites_render, fun _ ht => (h a).decodeText_eq ht⟩

/-- Configurations, timings, counters and settings come back from their text, also with blanks
    between its tokens, members in another order, records as the lists of their fields, the name of
    a rule as a key, and characters of keys and names by number. -/
theorem decode_undoes_encode : Undoes configFormat.decode encodeConfig ∧
    Undoes timingFormat.decode encodeTiming ∧ Undoes tallyFormat.decode encodeTally ∧
    Undoes settingsFormat.decode encodeSettings :=
  ⟨undoes_of_reads reads_config, undoes_of_reads reads_timing, undoes_of_reads reads_tally,
    undoes_of_reads reads_settings⟩

theorem decode_undoes_encode_of_topmost : (encodeConfig topmost).Rewrites topmostText ∧
    decodeText configFormat.decode topmostText = .ok topmost := by
  have h : (encodeConfig topmost).Rewrites topmostText :=
    ⟨topmostRespelled, respelled_topmost, spaced_topmost⟩
  exact ⟨h, (decode_undoes_encode.1 topmost).2 topmostText h⟩

end LocalEndpoint.Json
