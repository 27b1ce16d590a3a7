/-! A count as wide as the machine's word, with steps that stay at the ends of the range.
    `toNat_up` and `toNat_down` say what the steps do to the number. -/

namespace LocalEndpoint

/-- A count from 0 to 2⁶⁴ - 1. -/
abbrev Size := UInt64

namespace Size

/-- The largest count. -/
def top : Size := 18446744073709551615

/-- One more, staying at the top. -/
def up (n : Size) : Size := if n = top then top else n + 1

/-- One less, staying at zero. -/
def down (n : Size) : Size := if n = 0 then 0 else n - 1

theorem toNat_top : top.toNat = UInt64.size - 1 := rfl

theorem toNat_up (n : Size) : (up n).toNat = min (n.toNat + 1) (UInt64.size - 1) := by
  have hn := n.toNat_lt
  by_cases h : n = top
  · subst h; decide
  · have ht : n.toNat ≠ UInt64.size - 1 := fun e => h (UInt64.toNat_inj.1 (e.trans toNat_top.symm))
    simp only [up, if_neg h, UInt64.toNat_add, UInt64.toNat_one, UInt64.size] at ht ⊢
    omega

theorem toNat_down (n : Size) : (down n).toNat = n.toNat - 1 := by
  by_cases h : n = 0
  · subst h; decide
  · have hz : n.toNat ≠ 0 := fun e => h (UInt64.toNat_inj.1 e)
    have hle : (1 : UInt64) ≤ n := UInt64.le_iff_toNat_le.2 (by simp; omega)
    simp only [down, if_neg h, UInt64.toNat_sub_of_le n 1 hle, UInt64.toNat_one]

end Size

end LocalEndpoint
