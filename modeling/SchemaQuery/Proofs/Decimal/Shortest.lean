import SchemaQuery.Decimal.Shortest
import SchemaQuery.Proofs.Decimal.Binary
import Mathlib.Data.Nat.Cast.Order.Field
import Mathlib.Tactic.Set

/-!
# The shortest decimal rounds back

The search ends with a decimal that is accepted, since on the grid of 17 digits the points lie
nearer to each other than the numbers of a double. What is accepted rounds to the number it stands
for.
-/

set_option autoImplicit false

namespace SchemaQuery.Decimal

open Binary

def value (d : Decimal) : ℚ := d.digits * 10 ^ d.exponent

theorem zpow_eq_div {b : ℕ} (hb : 0 < b) (e : ℤ) :
    (b : ℚ) ^ e = (b : ℚ) ^ e.toNat / (b : ℚ) ^ (-e).toNat := by
  have hne : (b : ℚ) ≠ 0 := by exact_mod_cast hb.ne'
  rw [← zpow_natCast, ← zpow_natCast, ← zpow_sub₀ hne]
  congr 1
  omega

namespace Target

variable (t : Target)

def lower : ℚ := t.low / t.denominator

def middle : ℚ := t.value / t.denominator

def upper : ℚ := t.high / t.denominator

def Holds (v : ℚ) : Prop :=
  t.lower ≤ v ∧ v ≤ t.upper ∧ (t.closed = false → t.lower < v ∧ v < t.upper)

theorem Holds.of_inside {t : Target} {v : ℚ} (h : t.lower < v ∧ v < t.upper) : t.Holds v :=
  ⟨h.1.le, h.2.le, fun _ => h⟩

end Target

variable {t : Target}

theorem accepts_iff (ht : 0 < t.denominator) (d : Decimal) :
    accepts t d = true ↔ t.Holds d.value := by
  have hden : (0 : ℚ) < t.denominator := by exact_mod_cast ht
  have hup : (0 : ℚ) < (10 : ℚ) ^ (-d.exponent).toNat := by positivity
  have hvalue : d.value =
      d.digits * (10 ^ d.exponent.toNat / 10 ^ (-d.exponent).toNat) := by
    have hpower := zpow_eq_div (b := 10) (by decide) d.exponent
    push_cast at hpower
    rw [value, hpower]
  have hle (n : ℕ) : n * 10 ^ (-d.exponent).toNat ≤
      d.digits * 10 ^ d.exponent.toNat * t.denominator ↔ (n : ℚ) / t.denominator ≤ d.value := by
    rw [hvalue, div_le_iff₀ hden, ← mul_div_assoc, div_mul_eq_mul_div, le_div_iff₀ hup]
    exact_mod_cast Iff.rfl
  have hge (n : ℕ) : d.digits * 10 ^ d.exponent.toNat * t.denominator ≤
      n * 10 ^ (-d.exponent).toNat ↔ d.value ≤ (n : ℚ) / t.denominator := by
    rw [hvalue, le_div_iff₀ hden, ← mul_div_assoc, div_mul_eq_mul_div, div_le_iff₀ hup]
    exact_mod_cast Iff.rfl
  have hlow := hle t.low
  have hhigh := hge t.high
  have hlow' := not_congr (hge t.low)
  have hhigh' := not_congr (hle t.high)
  rw [not_le, not_le] at hlow' hhigh'
  unfold accepts Target.Holds Target.lower Target.upper
  simp only [Nat.pow_eq]
  cases hclosed : t.closed with
  | true => simp [hlow, hhigh]
  | false =>
    simp only [Bool.false_eq_true, if_false, Bool.and_eq_true, decide_eq_true_eq, forall_const]
    rw [hlow', hhigh']
    exact ⟨fun h => ⟨h.1.le, h.2.le, h⟩, fun h => h.2.2⟩

section Binary

variable {m : ℕ} {q : ℤ} {narrow : Bool}

theorem denominator_pos (m : ℕ) (q : ℤ) (narrow : Bool) :
    0 < (Target.ofBinary m q narrow).denominator := by
  simp [Target.ofBinary]

theorem scaled (n : ℕ) (q : ℤ) :
    ((n * 2 ^ (q - 2).toNat : ℕ) : ℚ) / ((2 ^ (2 - q).toNat : ℕ) : ℚ) = n / 4 * 2 ^ q := by
  have hpower := zpow_eq_div (b := 2) (by decide) (q - 2)
  have hfour : (2 : ℚ) ^ q = 2 ^ (q - 2) * 4 := by
    have hsplit : (2 : ℚ) ^ (q - 2 + 2) = 2 ^ (q - 2) * 2 ^ (2 : ℤ) := zpow_add₀ two_ne_zero _ _
    rw [sub_add_cancel] at hsplit
    rw [hsplit]
    norm_num
  rw [neg_sub] at hpower
  push_cast at hpower ⊢
  rw [hfour, hpower]
  ring

theorem middle_ofBinary (m : ℕ) (q : ℤ) (narrow : Bool) :
    (Target.ofBinary m q narrow).middle = m * 2 ^ q := by
  have h := scaled (4 * m) q
  simp only [Target.middle, Target.ofBinary, Nat.pow_eq]
  rw [h]
  push_cast
  ring

theorem upper_ofBinary (m : ℕ) (q : ℤ) (narrow : Bool) :
    (Target.ofBinary m q narrow).upper = m * 2 ^ q + 2 ^ q / 2 := by
  have h := scaled (4 * m + 2) q
  simp only [Target.upper, Target.ofBinary, Nat.pow_eq]
  rw [h]
  push_cast
  ring

theorem lower_ofBinary (hm : 0 < m) (hnarrow : narrow = true ↔ Narrow m q) :
    (Target.ofBinary m q narrow).lower = m * 2 ^ q - gapBelow m q / 2 := by
  have h := scaled (4 * m - if narrow then 1 else 2) q
  have hhalf := two_zpow_eq q
  simp only [Target.lower, Target.ofBinary, Nat.pow_eq]
  rw [h, gapBelow]
  by_cases hn : narrow = true
  · rw [if_pos hn, if_pos (hnarrow.1 hn), Nat.cast_sub (by omega), hhalf]
    push_cast
    ring
  · rw [if_neg hn, if_neg (mt hnarrow.2 hn), Nat.cast_sub (by omega)]
    push_cast
    ring

/-- What is accepted for a number rounds to it. -/
theorem roundsTo_of_accepts (h : Canonical m q) (hm : 0 < m) (hnarrow : narrow = true ↔ Narrow m q)
    {d : Decimal} (hd : accepts (.ofBinary m q narrow) d = true) : RoundsTo d.value m q := by
  obtain ⟨hlow, hhigh, hopen⟩ := (accepts_iff (denominator_pos m q narrow) d).1 hd
  rw [lower_ofBinary hm hnarrow, upper_ofBinary] at hopen
  rw [lower_ofBinary hm hnarrow] at hlow
  rw [upper_ofBinary] at hhigh
  refine roundsTo_of_between h hlow hhigh fun hodd => hopen ?_
  show (m % 2 == 0) = false
  rw [Nat.even_iff] at hodd
  exact beq_false_of_ne hodd

end Binary

section Search

theorem accepts_of_onGrid? {exponent : Int} {d : Decimal} (h : onGrid? t exponent = some d) :
    accepts t d = true := by
  unfold onGrid? at h
  dsimp only at h
  split at h
  · rename_i hdown hup
    cases h
    split
    · exact hdown
    · exact hup
  · cases h
    assumption
  · cases h
    assumption
  · cases h

theorem exists_onGrid? {exponent : Int}
    (h : accepts t ⟨below t exponent, exponent⟩ = true ∨
      accepts t ⟨below t exponent + 1, exponent⟩ = true) :
    ∃ d, onGrid? t exponent = some d := by
  unfold onGrid?
  dsimp only
  rcases h with hdown | hup
  · rw [hdown]
    cases accepts t ⟨below t exponent + 1, exponent⟩ <;> exact ⟨_, rfl⟩
  · rw [hup]
    cases accepts t ⟨below t exponent, exponent⟩ <;> exact ⟨_, rfl⟩

/-- If one of the grids has a point that is accepted, the search ends with such a point. -/
theorem accepts_search {grids count more : ℕ} (hmore : more < grids)
    (h : ∃ d, onGrid? t (leading t - (count + more : ℕ) + 1) = some d) :
    accepts t (search t grids count) = true := by
  induction grids generalizing count more with
  | zero => exact absurd hmore (Nat.not_lt_zero _)
  | succ grids ih =>
    rw [search]
    cases hgrid : onGrid? t (leading t - count + 1) with
    | some d => exact accepts_of_onGrid? hgrid
    | none =>
      obtain ⟨before, rfl⟩ : ∃ before, more = before + 1 := by
        cases more with
        | zero =>
          rw [Nat.add_zero, hgrid] at h
          obtain ⟨d, hd⟩ := h
          cases hd
        | succ before => exact ⟨before, rfl⟩
      apply ih (Nat.lt_of_succ_lt_succ hmore)
      rwa [Nat.add_right_comm, Nat.add_assoc]

theorem le_middle_iff (ht : 0 < t.denominator) (n : ℕ) (e : Int) :
    (n : ℚ) * 10 ^ e ≤ t.middle ↔
      n * (t.denominator * 10 ^ e.toNat) ≤ t.value * 10 ^ (-e).toNat := by
  have hden : (0 : ℚ) < t.denominator := by exact_mod_cast ht
  have hup : (0 : ℚ) < (10 : ℚ) ^ (-e).toNat := by positivity
  have hpower := zpow_eq_div (b := 10) (by decide) e
  push_cast at hpower
  rw [hpower, Target.middle, ← mul_div_assoc, div_le_div_iff₀ hup hden, mul_assoc,
    mul_comm ((10 : ℚ) ^ e.toNat)]
  exact_mod_cast Iff.rfl

/-- The grid points next to the number. -/
theorem below_spec (ht : 0 < t.denominator) (e : Int) :
    (below t e : ℚ) * 10 ^ e ≤ t.middle ∧ t.middle < (below t e + 1 : ℕ) * 10 ^ e := by
  have hstep : 0 < t.denominator * 10 ^ e.toNat := by positivity
  constructor
  · rw [le_middle_iff ht]
    exact Nat.div_mul_le_self _ _
  · rw [← not_le, le_middle_iff ht, not_le]
    exact (Nat.div_lt_iff_lt_mul hstep).1 (Nat.lt_succ_self _)

theorem lt_pow_width (n : ℕ) : n < 10 ^ width n :=
  (Nat.length_toDigits_le_iff (by decide) Nat.length_toDigits_pos).1 (le_refl _)

theorem pow_width_le {n : ℕ} (hn : 0 < n) : 10 ^ (width n - 1) ≤ n := by
  by_cases hone : width n = 1
  · rw [hone]
    exact hn
  · have hpos : 0 < width n := Nat.length_toDigits_pos
    have hlong := mt (Nat.length_toDigits_le_iff (b := 10) (n := n) (by decide)
      (by omega : 0 < width n - 1)).2
    exact not_lt.1 (hlong (by unfold width at hpos ⊢; omega))

/-- The number has a digit at its leading place. -/
theorem leading_spec (ht : 0 < t.denominator) (hvalue : 0 < t.value) :
    (10 : ℚ) ^ leading t ≤ t.middle := by
  have hden : (0 : ℚ) < t.denominator := by exact_mod_cast ht
  unfold leading Target.middle
  split
  · rename_i hle
    have hwhole : 0 < t.value / t.denominator := Nat.div_pos hle ht
    have hpos : 0 < width (t.value / t.denominator) := Nat.length_toDigits_pos
    have hpower : (10 : ℚ) ^ (width (t.value / t.denominator) - 1) ≤
        (t.value / t.denominator : ℕ) := by
      exact_mod_cast pow_width_le hwhole
    have hexponent : (width (t.value / t.denominator) : Int) - 1 =
        (width (t.value / t.denominator) - 1 : ℕ) := by
      omega
    rw [hexponent, zpow_natCast]
    exact hpower.trans Nat.cast_div_le
  · rename_i hlt
    have hbound := lt_pow_width ((t.denominator - 1) / t.value)
    generalize width ((t.denominator - 1) / t.value) = w at *
    have hmul : t.denominator ≤ 10 ^ w * t.value := by
      have hless := (Nat.div_lt_iff_lt_mul hvalue).1 hbound
      omega
    have hpow : (0 : ℚ) < (10 : ℚ) ^ w := by positivity
    have hcast : (t.denominator : ℚ) ≤ 10 ^ w * t.value := by exact_mod_cast hmul
    rw [zpow_neg, zpow_natCast, le_div_iff₀ hden, inv_mul_le_iff₀ hpow]
    exact hcast

end Search

variable {m : ℕ} {q : ℤ} {narrow : Bool}

/-- On the grid of 17 digits a neighbour of the number is always accepted. -/
theorem exists_onGrid?_seventeen (h : Canonical m q) (hm : 0 < m)
    (hnarrow : narrow = true ↔ Narrow m q) :
    ∃ d, onGrid? (.ofBinary m q narrow)
      (leading (.ofBinary m q narrow) - (1 + 16 : ℕ) + 1) = some d := by
  generalize ht : Target.ofBinary m q narrow = t
  have hden : 0 < t.denominator := ht ▸ denominator_pos m q narrow
  have hvalue : 0 < t.value := by
    rw [← ht]
    simp [Target.ofBinary, hm]
  have hmiddle : t.middle = m * 2 ^ q := ht ▸ middle_ofBinary m q narrow
  have hlower : t.lower = m * 2 ^ q - gapBelow m q / 2 := ht ▸ lower_ofBinary hm hnarrow
  have hupper : t.upper = m * 2 ^ q + 2 ^ q / 2 := ht ▸ upper_ofBinary m q narrow
  have hleading := leading_spec hden hvalue
  generalize he : leading t - (1 + 16 : ℕ) + 1 = e
  have hstep : (10 : ℚ) ^ leading t = 10 ^ e * 10 ^ 16 := by
    have hsum : leading t = e + 16 := by omega
    rw [hsum, zpow_add₀ (by norm_num)]
    norm_num
  obtain ⟨hdown, hup⟩ := below_spec hden e
  have hnext : ((below t e + 1 : ℕ) : ℚ) * 10 ^ e = below t e * 10 ^ e + 10 ^ e := by
    push_cast
    ring
  rw [hmiddle] at hdown hup hleading
  rw [hstep] at hleading
  rw [hnext] at hup
  apply exists_onGrid?
  rw [accepts_iff hden, accepts_iff hden]
  refine (inside_of_near h (zpow_pos (by norm_num) e) hleading hdown hup).imp ?_ ?_
  · intro hinside
    rw [← hlower, ← hupper] at hinside
    exact .of_inside hinside
  · intro hinside
    rw [← hlower, ← hupper, ← hnext] at hinside
    exact .of_inside hinside

/-- The search ends with a decimal that rounds to the number. -/
theorem roundsTo_shortest (h : Canonical m q) (hm : 0 < m) (hnarrow : narrow = true ↔ Narrow m q) :
    RoundsTo (shortest m q narrow).value m q :=
  roundsTo_of_accepts h hm hnarrow
    (accepts_search (by decide) (exists_onGrid?_seventeen h hm hnarrow))

section Double

open Float.Model (UnpackedFloat Format)
open Float.Model.UnpackedFloat (unpackMantissa unpackExponent)

def unpackedMagnitude : UnpackedFloat → ℚ
  | .finite _ m q _ => m * 2 ^ q
  | _ => 0

theorem unpackedMagnitude_finite (sign : UnpackedFloat.Sign) (m : ℕ) (q : ℤ) (h : 0 < m) :
    unpackedMagnitude (.finite sign m q h) = m * 2 ^ q := rfl

def magnitude (x : Float) : ℚ := unpackedMagnitude x.toModel.unpack

theorem toNat_unpackMantissa (b : BitVec 64) :
    (@unpackMantissa .binary64 b).toNat = b.toNat % 2 ^ 63 % 2 ^ 52 := by
  simp [unpackMantissa]

theorem toNat_unpackExponent (b : BitVec 64) :
    (@unpackExponent .binary64 b).toNat = b.toNat % 2 ^ 63 / 2 ^ 52 := by
  simp [unpackExponent, Nat.shiftRight_eq_div_pow]
  omega

/-- What is unpacked is told by the two fields of the bits. -/
theorem unpackedMagnitude_unpack {b : BitVec 64}
    (h : (UnpackedFloat.unpack Format.binary64 b).isFinite = true) {field fraction : ℕ}
    (hfield : b.toNat % 2 ^ 63 / 2 ^ 52 = field)
    (hfraction : b.toNat % 2 ^ 63 % 2 ^ 52 = fraction) :
    (field = 0 ∧
      unpackedMagnitude (UnpackedFloat.unpack Format.binary64 b) = fraction * 2 ^ (-1074 : ℤ)) ∨
    (field ≠ 0 ∧ unpackedMagnitude (UnpackedFloat.unpack Format.binary64 b) =
      (2 ^ 52 + fraction : ℕ) * 2 ^ ((field : ℤ) - 1075)) := by
  have hmantissa := (toNat_unpackMantissa b).trans hfraction
  have hexponent := (toNat_unpackExponent b).trans hfield
  have hbias : Format.binary64.exponentBias = 1023 := rfl
  delta UnpackedFloat.unpack at h ⊢
  dsimp only at h ⊢
  set mantissa := @unpackMantissa .binary64 b
  set exponent := @unpackExponent .binary64 b
  by_cases hlast : exponent = -1#11
  · -- These bits stand for no number.
    rw [if_pos hlast] at h
    by_cases hnone : mantissa = 0#52
    · rw [if_pos hnone] at h
      cases h
    · rw [if_neg hnone] at h
      cases h
  · rw [if_neg hlast]
    by_cases hzero : exponent = 0#11
    · have hf : field = 0 := hexponent.symm.trans (congrArg BitVec.toNat hzero)
      refine Or.inl ⟨hf, ?_⟩
      rw [if_pos hzero]
      by_cases hnone : mantissa = 0#52
      · have hm : fraction = 0 := hmantissa.symm.trans (congrArg BitVec.toNat hnone)
        rw [dif_pos hnone, hm, Nat.cast_zero, zero_mul]
        rfl
      · have he : (exponent.toNat : ℤ) - (Format.binary64.exponentBias + (52 : ℕ)) + 1 = -1074 := by
          rw [hzero, hbias]
          rfl
        rw [dif_neg hnone, unpackedMagnitude_finite, hmantissa, he]
    · have hf : field ≠ 0 := by
        rintro rfl
        exact hzero (BitVec.eq_of_toNat_eq hexponent)
      have hm : (1#1 ++ mantissa).toNat = 2 ^ 52 + fraction := by
        rw [BitVec.toNat_append, ← Nat.shiftLeft_add_eq_or_of_lt mantissa.isLt, hmantissa]
        rfl
      have he : (exponent.toNat : ℤ) - (Format.binary64.exponentBias + (52 : ℕ)) =
          (field : ℤ) - 1075 := by
        rw [hbias, hexponent]
        rfl
      refine Or.inr ⟨hf, ?_⟩
      rw [if_neg hzero, unpackedMagnitude_finite, hm, he]

def Rounds (v : ℚ) (x : Float) : Prop :=
  ∃ m q, Canonical m q ∧ magnitude x = m * 2 ^ q ∧ RoundsTo v m q

/-- The decimal that is written for a double rounds to it. -/
theorem rounds_ofFloat {x : Float} (h : x.isFinite = true) : Rounds (ofFloat x).value x := by
  have hcases :
      (x.toBits.toNat % 2 ^ 63 / 2 ^ 52 = 0 ∧
        magnitude x = (x.toBits.toNat % 2 ^ 63 % 2 ^ 52 : ℕ) * 2 ^ (-1074 : ℤ)) ∨
      (x.toBits.toNat % 2 ^ 63 / 2 ^ 52 ≠ 0 ∧
        magnitude x = (2 ^ 52 + x.toBits.toNat % 2 ^ 63 % 2 ^ 52 : ℕ) *
          2 ^ (((x.toBits.toNat % 2 ^ 63 / 2 ^ 52 : ℕ) : ℤ) - 1075)) :=
    unpackedMagnitude_unpack (b := x.toBits.toBitVec) h rfl rfl
  have hfraction : x.toBits.toNat % 2 ^ 63 % 2 ^ 52 < 2 ^ 52 := Nat.mod_lt _ (by decide)
  have hsplit := Nat.div_add_mod' (x.toBits.toNat % 2 ^ 63) (2 ^ 52)
  unfold ofFloat
  simp only [Nat.pow_eq]
  generalize x.toBits.toNat % 2 ^ 63 = bits at *
  generalize bits / 2 ^ 52 = field at *
  generalize bits % 2 ^ 52 = fraction at *
  rcases hcases with ⟨rfl, hx⟩ | ⟨hfield, hx⟩
  · have hcanonical : Canonical fraction (-1074) := ⟨by omega, le_refl _, Or.inr rfl⟩
    refine ⟨fraction, -1074, hcanonical, hx, ?_⟩
    rw [if_pos rfl]
    split
    · have hzero : fraction = 0 := by omega
      have hself := roundsTo_self hcanonical
      rw [hzero, Nat.cast_zero, zero_mul] at hself
      rw [hzero, value, Nat.cast_zero, zero_mul]
      exact hself
    · have hwide : false = true ↔ Narrow fraction (-1074) := by simp [Narrow]
      exact roundsTo_shortest hcanonical (by omega) hwide
  · have hcanonical : Canonical (2 ^ 52 + fraction) ((field : ℤ) - 1075) :=
      ⟨by omega, by omega, Or.inl (Nat.le_add_right _ _)⟩
    refine ⟨_, _, hcanonical, hx, ?_⟩
    rw [if_neg (by omega), if_neg hfield]
    have hnarrow : (fraction == 0 && field != 1) = true ↔
        Narrow (2 ^ 52 + fraction) ((field : ℤ) - 1075) := by
      simp only [Bool.and_eq_true, beq_iff_eq, bne_iff_ne, Narrow]
      omega
    exact roundsTo_shortest hcanonical (by omega) hnarrow

end Double

end SchemaQuery.Decimal
