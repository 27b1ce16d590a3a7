import LocalEndpoint.Retry
import LocalEndpoint.Proofs.Runs
import Mathlib.Algebra.Order.Ring.Nat
import Mathlib.Data.List.DropRight
import Mathlib.Data.List.Induction

/-! The delays of a retry in closed form. Of those handed out since the start or the last reset
    (`Retry.Handed`) the one with `n` before it is `2 ^ n` times the shortest, up to the longest
    (`Timing.delayAfter`). Doubling stops at the longest span there is, which no configured delay
    exceeds, so that limit never shows; `delays_in_closed_form` says all this of every sequence of
    requests. -/

namespace LocalEndpoint

namespace Span

theorem nanos_le_longest (s : Span) : s.nanos ≤ longest.nanos := Nat.le_pred_of_lt s.nanos_lt

theorem nanos_max (s t : Span) : (s.max t).nanos = Max.max s.nanos t.nanos := by
  rw [Span.max]
  split <;> omega

theorem nanos_min (s t : Span) : (s.min t).nanos = Min.min s.nanos t.nanos := by
  rw [Span.min]
  split <;> omega

/-- Doubling seconds and rest with a carry gives the seconds of the double. -/
theorem secs_twice (s : Span) :
    2 * s.secs.toNat + 2 * s.subsec.toNat / 1000000000 = 2 * s.nanos / 1000000000 := by
  rw [toNat_secs, toNat_subsec]
  omega

end Span

namespace Timing

/-- The shortest delay, in nanoseconds. -/
def floor (t : Timing) : Nat := max 1000000 (min t.initial.nanos t.maximum.nanos)

/-- The longest delay, in nanoseconds. -/
def ceiling (t : Timing) : Nat := max 1000000 (max t.initial.nanos t.maximum.nanos)

/-- The delay that follows `n` others, in nanoseconds. -/
def delayAfter (t : Timing) (n : Nat) : Nat := min (t.floor * 2 ^ n) t.ceiling

theorem eq_of_nanos {t u : Timing} (hinitial : t.initial.nanos = u.initial.nanos)
    (hmaximum : t.maximum.nanos = u.maximum.nanos) : t = u := by
  cases t
  cases u
  rw [Timing.mk.injEq]
  exact ⟨Span.ext hinitial, Span.ext hmaximum⟩

variable (t : Timing)

theorem nanos_normalized :
    t.normalized.initial.nanos = t.floor ∧ t.normalized.maximum.nanos = t.ceiling := by
  have hmilli : (Span.ofMillis 1).nanos = 1000000 := by decide
  have ha := t.initial.nanos_max (Span.ofMillis 1)
  have hb := t.maximum.nanos_max (Span.ofMillis 1)
  rw [hmilli] at ha hb
  simp only [normalized, floor, ceiling]
  split <;> simp only <;> omega

theorem floor_le_ceiling : t.floor ≤ t.ceiling := by rw [floor, ceiling]; omega

theorem ceiling_le_longest : t.ceiling ≤ Span.longest.nanos := by
  rw [← t.nanos_normalized.2]
  exact Span.nanos_le_longest _

/-- Normalizing changes a normalized timing no more. -/
theorem normalized_normalized : t.normalized.normalized = t.normalized := by
  obtain ⟨hinitial, hmaximum⟩ := t.nanos_normalized
  obtain ⟨hinitial', hmaximum'⟩ := t.normalized.nanos_normalized
  rw [floor, hinitial, hmaximum] at hinitial'
  rw [ceiling, hinitial, hmaximum] at hmaximum'
  have hle := t.floor_le_ceiling
  have hmilli : 1000000 ≤ t.floor := Nat.le_max_left ..
  exact eq_of_nanos (by omega) (by omega)

theorem delayAfter_zero : t.delayAfter 0 = t.floor := by
  rw [delayAfter, Nat.pow_zero, Nat.mul_one, Nat.min_eq_left t.floor_le_ceiling]

theorem delayAfter_succ (n : Nat) :
    t.delayAfter (n + 1) = min (2 * t.delayAfter n) t.ceiling := by
  rw [delayAfter, delayAfter, Nat.pow_succ, ← Nat.mul_assoc]
  omega

theorem delayAfter_le_succ (n : Nat) : t.delayAfter n ≤ t.delayAfter (n + 1) := by
  have hle : t.delayAfter n ≤ t.ceiling := Nat.min_le_right ..
  rw [delayAfter_succ]
  omega

theorem delayAfter_mono {m n : Nat} (h : m ≤ n) : t.delayAfter m ≤ t.delayAfter n := by
  induction h with
  | refl => exact Nat.le_refl _
  | step _ ih => exact Nat.le_trans ih (t.delayAfter_le_succ _)

theorem delayAfter_mem (n : Nat) : t.floor ≤ t.delayAfter n ∧ t.delayAfter n ≤ t.ceiling := by
  refine ⟨?_, Nat.min_le_right ..⟩
  rw [← t.delayAfter_zero]
  exact t.delayAfter_mono n.zero_le

example : (List.range 5).map (delayAfter ⟨.ofMillis 50, .ofMillis 10⟩) =
    [10000000, 20000000, 40000000, 50000000, 50000000] := by decide

end Timing

/-- The delays are those that follow each other from the shortest on. -/
def Timing.Spells (t : Timing) (delays : List Span) : Prop :=
  ∀ (n : Nat) (d : Span), delays[n]? = some d → d.nanos = t.delayAfter n

namespace Timing.Spells

variable {t : Timing} {delays : List Span}

theorem nil (t : Timing) : t.Spells [] := nofun

theorem concat {d : Span} (h : t.Spells delays) (hd : d.nanos = t.delayAfter delays.length) :
    t.Spells (delays ++ [d]) := by
  intro n d' hd'
  rcases Nat.lt_trichotomy n delays.length with hn | rfl | hn
  · rw [List.getElem?_append_left hn] at hd'
    exact h n d' hd'
  · rw [List.getElem?_concat_length] at hd'
    cases hd'
    exact hd
  · rw [List.getElem?_eq_none (by rw [List.length_append, List.length_singleton]; omega)] at hd'
    cases hd'

/-- They never decrease. -/
theorem pairwise (h : t.Spells delays) : delays.Pairwise (·.nanos ≤ ·.nanos) := by
  rw [List.pairwise_iff_getElem]
  intro m n hm hn hmn
  rw [h m _ (List.getElem?_eq_getElem hm), h n _ (List.getElem?_eq_getElem hn)]
  exact t.delayAfter_mono (Nat.le_of_lt hmn)

theorem bounds (h : t.Spells delays) {d : Span} (hd : d ∈ delays) :
    t.floor ≤ d.nanos ∧ d.nanos ≤ t.ceiling := by
  obtain ⟨n, hn⟩ := List.mem_iff_getElem?.mp hd
  rw [h n d hn]
  exact t.delayAfter_mem n

end Timing.Spells

namespace Retry

/-- `delays` are those handed out since the start or the last reset. -/
structure Handed (t : Timing) (r : Retry) (delays : List Span) : Prop where
  timing : r.timing = t.normalized
  current : r.current = delays.getLast?
  spells : t.Spells delays

namespace Handed

variable {t : Timing} {r : Retry} {delays : List Span}

theorem ofTiming (t : Timing) : Handed t (.ofTiming t) [] := ⟨rfl, rfl, .nil t⟩

theorem reset (h : Handed t r delays) : Handed t r.reset [] := ⟨h.timing, rfl, .nil t⟩

/-- The last delay doubles as if there were no longest span. -/
theorem nanos_next_of_current (h : Handed t r delays) {s : Span} (hs : r.current = some s) :
    r.next.nanos = min (2 * s.nanos) t.ceiling := by
  have htop := t.ceiling_le_longest
  rw [next, hs, h.timing]
  simp only [Span.nanos_min, t.nanos_normalized.2, Span.double, Span.clamp]
  omega

/-- The next delay is the one that follows those handed out. -/
theorem nanos_next (h : Handed t r delays) : r.next.nanos = t.delayAfter delays.length := by
  cases delays using List.reverseRecOn with
  | nil =>
    have hnone : r.current = none := h.current
    rw [next, hnone, h.timing]
    exact t.nanos_normalized.1.trans t.delayAfter_zero.symm
  | append_singleton ds d _ =>
    have hd : d.nanos = t.delayAfter ds.length := h.spells ds.length d (by simp)
    have hlast : r.current = some d := h.current.trans List.getLast?_concat
    rw [h.nanos_next_of_current hlast, hd, List.length_append, List.length_singleton,
      t.delayAfter_succ]

theorem advance (h : Handed t r delays) : Handed t r.advance (delays ++ [r.next]) :=
  ⟨h.timing, by rw [List.getLast?_concat]; rfl, h.spells.concat h.nanos_next⟩

/-- The last delay handed out is the one that follows those before it. -/
theorem nanos_current (h : Handed t r delays) :
    r.current.map (·.nanos) =
      if delays.length = 0 then none else some (t.delayAfter (delays.length - 1)) := by
  rw [h.current]
  cases delays using List.reverseRecOn with
  | nil => rfl
  | append_singleton ds d _ =>
    have hd : d.nanos = t.delayAfter ds.length := h.spells ds.length d (by simp)
    simp [hd]

end Handed

/-! ### Any sequence of requests -/

/-- What can be asked of a retry. -/
inductive Request where
  /-- The next delay. -/
  | next
  /-- To start over. -/
  | reset
  deriving DecidableEq

/-- The retry after one request. -/
def serve (r : Retry) : Request → Retry
  | .next => r.advance
  | .reset => r.reset

/-- The retry after a sequence of requests. -/
def after (r : Retry) (qs : List Request) : Retry := qs.foldl serve r

instance : Runs after serve := ⟨fun _ _ => rfl⟩

/-- How many delays have been asked for since the last reset. -/
def asked (qs : List Request) : Nat := (qs.rtakeWhile (· = .next)).length

theorem asked_concat (qs : List Request) (q : Request) :
    asked (qs ++ [q]) = if q = .next then asked qs + 1 else 0 := by
  cases q <;> simp [asked]

/-- As many delays have been handed out as have been asked for since the last reset. -/
theorem handed_after (t : Timing) (qs : List Request) :
    ∃ delays, Handed t ((ofTiming t).after qs) delays ∧ delays.length = asked qs := by
  induction qs using List.reverseRecOn with
  | nil => exact ⟨[], .ofTiming t, rfl⟩
  | append_singleton qs q ih =>
    obtain ⟨delays, hhanded, hlength⟩ := ih
    rw [Runs.concat after, asked_concat]
    cases q with
    | next => exact ⟨_, hhanded.advance, by simp [hlength]⟩
    | reset => exact ⟨[], hhanded.reset, rfl⟩

/-- The delays in closed form. After any sequence of requests, with `n` delays asked for since the
    last reset, the next delay is `2 ^ n` times the shortest, up to the longest, and the last one is
    the one before it. Each delay after the first is twice the last as if spans had no end: where
    the seconds of the double leave their range, the longest delay is handed out. The timing is the
    configured one, in order and with a millisecond at least, and normalizing changes it no more. -/
theorem delays_in_closed_form (t : Timing) (qs : List Request) :
    let shortest := max 1000000 (min t.initial.nanos t.maximum.nanos)
    let longest := max 1000000 (max t.initial.nanos t.maximum.nanos)
    let r := (ofTiming t).after qs
    let n := asked qs
    r.next.nanos = min (shortest * 2 ^ n) longest ∧
    r.next.secs.toNat = min (shortest * 2 ^ n) longest / 1000000000 ∧
    r.next.subsec.toNat = min (shortest * 2 ^ n) longest % 1000000000 ∧
    r.current.map (·.nanos) =
      (if n = 0 then none else some (min (shortest * 2 ^ (n - 1)) longest)) ∧
    (∀ s, r.current = some s → r.next.nanos = min (2 * s.nanos) longest ∧
      (2 * s.secs.toNat + 2 * s.subsec.toNat / 1000000000 < UInt64.size ∨
        r.next = r.timing.maximum)) ∧
    r.timing.initial.nanos = shortest ∧ r.timing.maximum.nanos = longest ∧
    r.timing.normalized = r.timing := by
  intro shortest longest r n
  obtain ⟨delays, hhanded, hlength⟩ := handed_after t qs
  obtain ⟨hinitial, hmaximum⟩ := t.nanos_normalized
  have hnext : r.next.nanos = min (shortest * 2 ^ n) longest := by
    rw [hhanded.nanos_next, hlength]
    rfl
  have hcurrent := hhanded.nanos_current
  rw [hlength] at hcurrent
  refine ⟨hnext, ?_, ?_, hcurrent, ?_, ?_, ?_, ?_⟩
  · rw [Span.toNat_secs, hnext]
  · rw [Span.toNat_subsec, hnext]
  · intro s hs
    have hdouble : r.next.nanos = min (2 * s.nanos) longest := hhanded.nanos_next_of_current hs
    refine ⟨hdouble, ?_⟩
    rw [s.secs_twice]
    by_cases hrange : 2 * s.nanos < UInt64.size * 1000000000
    · exact .inl ((Nat.div_lt_iff_lt_mul (by decide)).mpr hrange)
    · have hlongest : r.next.nanos = longest := by
        have htop := t.ceiling_le_longest
        rw [hdouble]
        refine Nat.min_eq_right (Nat.le_trans htop ?_)
        exact Nat.le_trans (Nat.sub_le ..) (Nat.le_of_not_lt hrange)
      refine .inr (Span.ext ?_)
      rw [hlongest, hhanded.timing]
      exact hmaximum.symm
  · rw [hhanded.timing]
    exact hinitial
  · rw [hhanded.timing]
    exact hmaximum
  · rw [hhanded.timing, t.normalized_normalized]

end Retry

end LocalEndpoint
