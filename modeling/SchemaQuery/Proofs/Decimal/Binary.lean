import Mathlib.Algebra.Order.Field.Power
import Mathlib.Data.Rat.Cast.Order
import Mathlib.Tactic.Linarith
import Mathlib.Tactic.NormNum
import Mathlib.Tactic.Positivity
import Mathlib.Tactic.Ring

/-!
# Rounding to a double

The absolute values of doubles are the whole numbers below `2 ^ 53` times powers of two from
`2 ^ (-1074)` on. A rational rounds to the nearest of them, and to one with an even significand if
two are equally near. How far a number is from its neighbours hangs on its significand: below a
power of two the distance is half of what it is above.
-/

set_option autoImplicit false

namespace SchemaQuery

namespace Binary

structure Canonical (m : ℕ) (q : ℤ) : Prop where
  lt : m < 2 ^ 53
  least_le : -1074 ≤ q
  full : 2 ^ 52 ≤ m ∨ q = -1074

/-- The absolute value of a double, if exponents went on for ever. -/
def OnGrid (z : ℚ) : Prop := ∃ (m : ℕ) (q : ℤ), m < 2 ^ 53 ∧ -1074 ≤ q ∧ z = m * 2 ^ q

/-- No other number is as near, but for one with an odd significand. -/
def RoundsTo (v : ℚ) (m : ℕ) (q : ℤ) : Prop :=
  ∀ z, OnGrid z → z ≠ m * 2 ^ q →
    |v - m * 2 ^ q| < |v - z| ∨ |v - m * 2 ^ q| = |v - z| ∧ Even m

def Narrow (m : ℕ) (q : ℤ) : Prop := m = 2 ^ 52 ∧ q ≠ -1074

instance (m : ℕ) (q : ℤ) : Decidable (Narrow m q) :=
  inferInstanceAs (Decidable (m = 2 ^ 52 ∧ q ≠ -1074))

def gapBelow (m : ℕ) (q : ℤ) : ℚ := if Narrow m q then 2 ^ (q - 1) else 2 ^ q

variable {m : ℕ} {q : ℤ} {v z : ℚ}

theorem two_zpow_eq (q : ℤ) : (2 : ℚ) ^ q = 2 ^ (q - 1) * 2 := by
  rw [← zpow_add_one₀ two_ne_zero, sub_add_cancel]

theorem two_zpow_pos (q : ℤ) : (0 : ℚ) < 2 ^ q := zpow_pos two_pos q

theorem gapBelow_pos : 0 < gapBelow m q := by
  unfold gapBelow
  split
  · exact two_zpow_pos _
  · exact two_zpow_pos _

theorem gapBelow_le : gapBelow m q ≤ 2 ^ q := by
  have hhalf := two_zpow_eq q
  have hpos := two_zpow_pos (q - 1)
  unfold gapBelow
  split
  · linarith
  · exact le_refl _

/-- A number with a greater exponent is a multiple of the power of two. -/
theorem exists_mul_of_le {n : ℕ} {p : ℤ} (h : q ≤ p) :
    ∃ k : ℕ, (n : ℚ) * 2 ^ p = k * 2 ^ q := by
  obtain ⟨j, rfl⟩ := Int.le.dest h
  refine ⟨n * 2 ^ j, ?_⟩
  rw [zpow_add₀ two_ne_zero, zpow_natCast]
  push_cast
  ring

/-- Nothing lies between a number and its neighbours. -/
theorem gap (h : Canonical m q) (hz : OnGrid z) (hne : z ≠ m * 2 ^ q) :
    m * 2 ^ q + 2 ^ q ≤ z ∨ z ≤ m * 2 ^ q - gapBelow m q := by
  obtain ⟨n, p, hn, hp, rfl⟩ := hz
  have hpos := two_zpow_pos q
  by_cases hle : q ≤ p
  · obtain ⟨k, hk⟩ := exists_mul_of_le (n := n) hle
    rw [hk] at hne ⊢
    have hkm : k ≠ m := by
      rintro rfl
      exact hne rfl
    rcases Nat.lt_or_gt_of_ne hkm with hlt | hgt
    · right
      have hstep : (k : ℚ) + 1 ≤ m := by exact_mod_cast hlt
      have hmul := mul_le_mul_of_nonneg_right hstep hpos.le
      have hbelow := gapBelow_le (m := m) (q := q)
      linarith
    · left
      have hstep : (m : ℚ) + 1 ≤ k := by exact_mod_cast hgt
      have hmul := mul_le_mul_of_nonneg_right hstep hpos.le
      linarith
  · -- With a smaller exponent even the greatest significand stays below.
    right
    have hfull : 2 ^ 52 ≤ m := h.full.resolve_right (by omega)
    have hexponent : (2 : ℚ) ^ p ≤ 2 ^ (q - 1) :=
      zpow_le_zpow_right₀ one_le_two (by omega)
    have hsignificand : (n : ℚ) ≤ 2 ^ 53 - 1 := by
      have hnext : (n : ℚ) + 1 ≤ 2 ^ 53 := by exact_mod_cast hn
      linarith
    have hgreatest : (n : ℚ) * 2 ^ p ≤ (2 ^ 53 - 1) * 2 ^ (q - 1) :=
      mul_le_mul hsignificand hexponent (two_zpow_pos p).le (by norm_num)
    have hhalf := two_zpow_eq q
    unfold gapBelow
    split
    · rename_i hnarrow
      have hm : (m : ℚ) = 2 ^ 52 := by exact_mod_cast hnarrow.1
      rw [hm, hhalf]
      linarith
    · rename_i hwide
      have hmore : 2 ^ 52 + 1 ≤ m := by
        rcases Nat.lt_or_eq_of_le hfull with hlt | heq
        · exact hlt
        · exact absurd ⟨heq.symm, by omega⟩ hwide
      have hm : (2 : ℚ) ^ 52 + 1 ≤ m := by exact_mod_cast hmore
      have hmul := mul_le_mul_of_nonneg_right hm hpos.le
      have hsmall := two_zpow_pos (q - 1)
      rw [hhalf] at hmul ⊢
      linarith

/-- What is not beyond the middle on either side rounds to the number, and the middle itself does if
the significand is even. -/
theorem roundsTo_of_between (h : Canonical m q)
    (hlow : m * 2 ^ q - gapBelow m q / 2 ≤ v) (hhigh : v ≤ m * 2 ^ q + 2 ^ q / 2)
    (hodd : ¬ Even m → m * 2 ^ q - gapBelow m q / 2 < v ∧ v < m * 2 ^ q + 2 ^ q / 2) :
    RoundsTo v m q := by
  intro z hz hne
  have hbelow := gapBelow_pos (m := m) (q := q)
  have hpos := two_zpow_pos q
  have hgap := gap h hz hne
  generalize (m : ℚ) * 2 ^ q = y at *
  generalize gapBelow m q = b at *
  generalize (2 : ℚ) ^ q = p at *
  have hnear : |v - y| ≤ |v - z| := by
    rcases hgap with habove | hunder
    · rw [abs_sub_comm v z, abs_of_nonneg (by linarith : 0 ≤ z - v), abs_le]
      constructor
      · linarith
      · linarith
    · rw [abs_of_nonneg (by linarith : 0 ≤ v - z), abs_le]
      constructor
      · linarith
      · linarith
  rcases hnear.lt_or_eq with hlt | heq
  · exact Or.inl hlt
  · refine Or.inr ⟨heq, ?_⟩
    by_contra hm
    obtain ⟨hlow', hhigh'⟩ := hodd hm
    rcases hgap with habove | hunder
    · rw [abs_sub_comm v z, abs_of_nonneg (by linarith : 0 ≤ z - v)] at heq
      rcases abs_cases (v - y) with ⟨hv, -⟩ | ⟨hv, -⟩ <;> linarith
    · rw [abs_of_nonneg (by linarith : 0 ≤ v - z)] at heq
      rcases abs_cases (v - y) with ⟨hv, -⟩ | ⟨hv, -⟩ <;> linarith

/-- A number of the grid rounds to itself. -/
theorem roundsTo_self (h : Canonical m q) : RoundsTo (m * 2 ^ q) m q := by
  have hbelow := gapBelow_pos (m := m) (q := q)
  have hpos := two_zpow_pos q
  refine roundsTo_of_between h ?_ ?_ fun _ => ⟨?_, ?_⟩
  all_goals linarith

/-- Two points on both sides of a number are so near to each other that one of them lies short of the
middle to the next number. -/
theorem inside_of_near (h : Canonical m q) {a s : ℚ} (hs : 0 < s) (hsize : s * 10 ^ 16 ≤ m * 2 ^ q)
    (hdown : a ≤ m * 2 ^ q) (hup : m * 2 ^ q < a + s) :
    (m * 2 ^ q - gapBelow m q / 2 < a ∧ a < m * 2 ^ q + 2 ^ q / 2) ∨
    (m * 2 ^ q - gapBelow m q / 2 < a + s ∧ a + s < m * 2 ^ q + 2 ^ q / 2) := by
  have hpos := two_zpow_pos q
  by_cases hn : Narrow m q
  · -- Below a power of two the interval is short, but the point above is near enough.
    right
    have hhalf := two_zpow_eq q
    have hfull : (m : ℚ) = 2 ^ 52 := by exact_mod_cast hn.1
    rw [gapBelow, if_pos hn]
    rw [hfull] at hdown hup hsize ⊢
    generalize (2 : ℚ) ^ (q - 1) = g at *
    rw [hhalf] at hdown hup hsize hpos ⊢
    norm_num at hdown hup hsize ⊢
    exact ⟨by linarith, by linarith⟩
  · -- The points lie closer than the ends of the interval, so one of the two is inside.
    have hlt : (m : ℚ) < 2 ^ 53 := by exact_mod_cast h.lt
    have hbound : (m : ℚ) * 2 ^ q < 2 ^ 53 * 2 ^ q := mul_lt_mul_of_pos_right hlt hpos
    rw [gapBelow, if_neg hn]
    generalize (m : ℚ) * 2 ^ q = y at *
    generalize (2 : ℚ) ^ q = p at *
    norm_num at hbound hsize
    have hclose : s < p := by linarith
    rcases lt_or_ge (y - p / 2) a with hinside | houtside
    · exact Or.inl ⟨hinside, by linarith⟩
    · exact Or.inr ⟨by linarith, by linarith⟩

end Binary

end SchemaQuery
