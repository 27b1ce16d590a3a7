import LocalEndpoint.Backlog
import LocalEndpoint.Proofs.Grant
import Mathlib.Algebra.Order.Ring.Nat
import Mathlib.Order.Bounds.Defs

/-! How the rule of powers of two rounds a request up. One more than the request is rounded to the
    least power of two that is not below it (`isLeast_leastPowerOfTwo`), and neither leaves the
    range of a count: what would be above it becomes the largest count (`toNat_effective`). So a
    provider is never asked for fewer places than its caller asked for. -/

namespace LocalEndpoint

/-! ### Powers of two -/

/-- The next power of two is twice as much. -/
theorem double_le_of_lt {p q : Nat} (hp : p.isPowerOfTwo) (hq : q.isPowerOfTwo) (h : p < q) :
    p * 2 ≤ q := by
  obtain ⟨i, rfl⟩ := hp
  obtain ⟨j, rfl⟩ := hq
  have hij : i < j := (Nat.pow_lt_pow_iff_right (by decide)).mp h
  rw [← Nat.pow_succ]
  exact Nat.pow_le_pow_right (by decide) hij

/-- The highest bit of `n - 1` is below `n`, and twice as much is not. -/
theorem isLeast_leastPowerOfTwo (n : Nat) :
    IsLeast {q | n ≤ q ∧ q.isPowerOfTwo} (leastPowerOfTwo n) := by
  rw [leastPowerOfTwo]
  split
  · next hn => exact ⟨⟨hn, Nat.isPowerOfTwo_one⟩, fun q hq => Nat.pos_of_isPowerOfTwo hq.2⟩
  · next hn =>
    have hbelow : 2 ^ (n - 1).log2 ≤ n - 1 := Nat.log2_self_le (by omega)
    have habove : n - 1 < 2 ^ ((n - 1).log2 + 1) := Nat.lt_log2_self
    rw [Nat.one_shiftLeft]
    refine ⟨⟨by omega, _, rfl⟩, ?_⟩
    rintro q ⟨hq, hpow⟩
    rw [Nat.pow_succ]
    exact double_le_of_lt ⟨(n - 1).log2, rfl⟩ hpow (by omega)

theorem leastPowerOfTwo_mono {m n : Nat} (h : m ≤ n) : leastPowerOfTwo m ≤ leastPowerOfTwo n := by
  obtain ⟨hle, hpow⟩ := (isLeast_leastPowerOfTwo n).1
  exact (isLeast_leastPowerOfTwo m).2 ⟨h.trans hle, hpow⟩

/-- Rounding up less than doubles a number: else half of the result would do. -/
theorem leastPowerOfTwo_lt_double {n : Nat} (hn : 0 < n) : leastPowerOfTwo n < 2 * n := by
  obtain ⟨⟨hle, k, hk⟩, hleast⟩ := isLeast_leastPowerOfTwo n
  rw [hk] at hle hleast ⊢
  cases k with
  | zero => omega
  | succ k =>
    by_contra hge
    have hhalf : n ≤ 2 ^ k := by omega
    have hsmaller : 2 ^ (k + 1) ≤ 2 ^ k := hleast ⟨hhalf, k, rfl⟩
    omega

/-! ### The rule -/

namespace BacklogRule

/-- The rule rounds exactly, up to the largest count. -/
theorem toNat_effective (requested instances : Size) :
    (powerOfTwo.effective requested instances).toNat =
      min (leastPowerOfTwo (Size.up requested).toNat) Size.top.toNat := by
  have htop : Size.top.toNat = UInt64.size - 1 := Size.toNat_top
  rw [effective]
  split
  · next hlt =>
    rw [UInt64.toNat_ofNat_of_lt' hlt, min_eq_left]
    omega
  · next hge =>
    rw [min_eq_right]
    omega

theorem effective_mono {requested requested' : Size} (h : requested ≤ requested')
    (instances instances' : Size) :
    powerOfTwo.effective requested instances ≤ powerOfTwo.effective requested' instances' := by
  have hup : (Size.up requested).toNat ≤ (Size.up requested').toNat := by
    rw [Size.toNat_up, Size.toNat_up]
    exact min_le_min_right _ (Nat.succ_le_succ (UInt64.le_iff_toNat_le.mp h))
  rw [UInt64.le_iff_toNat_le, toNat_effective, toNat_effective]
  exact min_le_min_right _ (leastPowerOfTwo_mono hup)

/-- Half of the range above a request there still is a power of two to round to. -/
theorem toNat_effective_of_lt {requested : Size} (h : requested.toNat < 2 ^ 63)
    (instances : Size) :
    (powerOfTwo.effective requested instances).toNat = leastPowerOfTwo (requested.toNat + 1) := by
  have hup : (Size.up requested).toNat = requested.toNat + 1 := by
    rw [Size.toNat_up, min_eq_left]
    simp only [UInt64.size]
    omega
  have hfits : leastPowerOfTwo (requested.toNat + 1) ≤ 2 ^ 63 :=
    (isLeast_leastPowerOfTwo _).2 ⟨h, 63, rfl⟩
  rw [toNat_effective, hup, min_eq_left]
  rw [Size.toNat_top, UInt64.size]
  omega

/-- From the middle of the range on there is none. -/
theorem effective_of_le {requested : Size} (h : 2 ^ 63 ≤ requested.toNat) (instances : Size) :
    powerOfTwo.effective requested instances = Size.top := by
  have hup : 2 ^ 63 < (Size.up requested).toNat := by
    rw [Size.toNat_up, UInt64.size]
    omega
  obtain ⟨⟨hle, hpow⟩, -⟩ := isLeast_leastPowerOfTwo (Size.up requested).toNat
  have hbeyond : 2 ^ 63 * 2 ≤ leastPowerOfTwo (Size.up requested).toNat :=
    double_le_of_lt ⟨63, rfl⟩ hpow (hup.trans_le hle)
  rw [← UInt64.toNat_inj, toNat_effective, min_eq_right]
  rw [Size.toNat_top, UInt64.size]
  omega

theorem succ_le_effective_iff (requested instances : Size) :
    requested.toNat + 1 ≤ (powerOfTwo.effective requested instances).toNat ↔
      requested ≠ Size.top := by
  have htop : Size.top.toNat = 2 ^ 64 - 1 := rfl
  have hrange := requested.toNat_lt
  rw [ne_eq, ← UInt64.toNat_inj, htop]
  by_cases h : requested.toNat < 2 ^ 63
  · rw [toNat_effective_of_lt h]
    have hle := (isLeast_leastPowerOfTwo (requested.toNat + 1)).1.1
    omega
  · rw [effective_of_le (by omega), htop]
    omega

end BacklogRule

/-! ### What the provider is asked for -/

namespace Scene

variable {C : Type} [Located C]

/-- Whatever is asked for is what the configured rule makes of the request. -/
theorem eq_effective_of_asked (role : Role) (ipc : Bool) (config : Config) (ms : List (Move C))
    {inRuntime : Bool} {requested : Size} {answer : Except Failure String} {address : String}
    {b : Size}
    (h : (address, b) ∈ (((start role ipc config).after ms).step
      (.listen inRuntime requested answer)).2.filterMap Occurrence.asked?) :
    b = config.rule.effective requested (config.instancesAfter ms) := by
  obtain ⟨hconfig, hinstances⟩ := Prod.mk.inj (settings_after role ipc config ms)
  generalize (start role ipc config).after ms = s at h hconfig hinstances
  obtain ⟨hready, hnot⟩ := s.endpoint.asked_listen inRuntime requested answer
  rw [step, put] at h
  by_cases hr : s.endpoint.Ready inRuntime
  · obtain ⟨_, -, hasked⟩ := hready hr
    rw [hasked, List.mem_singleton] at h
    rw [(Prod.mk.inj h).2, hconfig, hinstances]
    rfl
  · rw [hnot hr] at h
    cases h

/-- The rule of powers of two derives the least sufficient backlog `b` from a request of `r` places,
    whatever the pending instances are. No step leaves the range of a count: one more than `r` is
    taken, and rounded up to a power of two, but at most up to the largest count. Below 2^63, `b` is
    the least power of two greater than `r`, and less than twice as much as `r + 1`; from there on
    it is the largest count. It grows with `r`, and it is at least `r + 1` unless `r` is the largest
    count itself. So in every run of an endpoint with this rule, the provider is asked for `r`
    places at least. -/
theorem power_of_two_suffices (requested instances : Size) :
    let r := requested.toNat
    let b := BacklogRule.powerOfTwo.effective requested instances
    ((Size.up requested).toNat = min (r + 1) Size.top.toNat ∧
      b.toNat = min (leastPowerOfTwo (Size.up requested).toNat) Size.top.toNat) ∧
    (r < 2 ^ 63 → IsLeast {p | r < p ∧ p.isPowerOfTwo} b.toNat ∧ b.toNat < 2 * (r + 1)) ∧
    (2 ^ 63 ≤ r → b = Size.top) ∧
    (∀ requested' instances', requested ≤ requested' →
      b ≤ BacklogRule.powerOfTwo.effective requested' instances') ∧
    (r + 1 ≤ b.toNat ↔ requested ≠ Size.top) ∧
    ∀ role ipc (config : Config) (ms : List (Move C)) inRuntime answer,
      config.rule = .powerOfTwo →
      ∀ asked ∈ (((start role ipc config).after ms).step
        (.listen inRuntime requested answer)).2.filterMap Occurrence.asked?,
        requested ≤ asked.2 := by
  intro r b
  refine ⟨⟨Size.toNat_up requested, BacklogRule.toNat_effective requested instances⟩,
    fun hr => ?_, fun hr => BacklogRule.effective_of_le hr instances,
    fun _ instances' h => BacklogRule.effective_mono h instances instances',
    BacklogRule.succ_le_effective_iff requested instances, ?_⟩
  · have hb : b.toNat = leastPowerOfTwo (r + 1) :=
      BacklogRule.toNat_effective_of_lt hr instances
    rw [hb]
    exact ⟨isLeast_leastPowerOfTwo (r + 1), leastPowerOfTwo_lt_double r.succ_pos⟩
  · intro role ipc config ms inRuntime answer hrule ⟨address, granted⟩ hasked
    rw [eq_effective_of_asked role ipc config ms hasked, hrule, UInt64.le_iff_toNat_le]
    by_cases htop : requested = Size.top
    · rw [BacklogRule.effective_of_le (by rw [htop]; decide)]
      exact htop ▸ le_refl _
    · have hmore := (BacklogRule.succ_le_effective_iff requested
        (config.instancesAfter ms)).mpr htop
      exact Nat.le_of_succ_le hmore

end Scene

end LocalEndpoint
