import SchemaQuery.Json.Print
import SchemaQuery.Proofs.Decimal.Shortest
import SchemaQuery.Proofs.Json.WholeNumber

/-!
# Numbers denote what they were written for

The text of a decimal follows the grammar of numbers, and what it denotes is the decimal, wherever
the point stands and whichever zeros are left out. So a whole number is denoted by its digits, and
a double by digits that round to it.
-/

set_option autoImplicit false

namespace SchemaQuery.Json

open SchemaQuery.Unicode

open Decimal (Rounds)

namespace NumberText

def digitsValue (ds : List Char) : Nat := Nat.ofDigitChars 10 ds 0

def exponentShift : Option (Bool × List Char) → Int
  | none => 0
  | some (down, ds) => if down then -(digitsValue ds : Int) else digitsValue ds

def magnitude (n : NumberText) : ℚ :=
  digitsValue (n.whole ++ n.fraction) * 10 ^ (exponentShift n.exponent - n.fraction.length)

/-- A whole number is denoted exactly, and a double by what rounds to it. Zeros have signs too. -/
def Denotes (n : NumberText) : Number → Prop
  | .int k => (if n.negative then -n.magnitude else n.magnitude) = k
  | .float x => (n.negative = true ↔ signedLimit ≤ x.toBits.toNat) ∧ Rounds n.magnitude x

theorem digitsValue_append (ds es : List Char) :
    digitsValue (ds ++ es) = digitsValue ds * 10 ^ es.length + digitsValue es := by
  rw [digitsValue, Nat.ofDigitChars_append, Nat.ofDigitChars_eq_ofDigitChars_zero, digitsValue,
    digitsValue, Nat.mul_comm]

theorem digitsValue_replicate (n : Nat) : digitsValue (List.replicate n '0') = 0 := by
  rw [digitsValue, Nat.ofDigitChars_replicate_zero, Nat.mul_zero]

theorem digitsValue_toDigits (n : Nat) : digitsValue (Nat.toDigits 10 n) = n :=
  Nat.ofDigitChars_ten_toDigits

theorem magnitude_plain (negative : Bool) (whole fraction : List Char) :
    magnitude ⟨negative, whole, fraction, none⟩ =
      digitsValue (whole ++ fraction) * 10 ^ (-(fraction.length : Int)) := by
  rw [magnitude, exponentShift, zero_sub]

theorem denotes_ofInt (n : Int) : (ofInt n).Denotes (.int n) := by
  have hmagnitude : (ofInt n).magnitude = n.natAbs := by
    rw [ofInt, magnitude_plain, List.append_nil, digitsValue_toDigits]
    simp
  show (if decide (n < 0) = true then -(ofInt n).magnitude else (ofInt n).magnitude) = n
  rw [hmagnitude]
  by_cases hn : n < 0
  · have habs : n = -(n.natAbs : Int) := by omega
    rw [if_pos (decide_eq_true hn), ← Int.cast_natCast, ← Int.cast_neg, ← habs]
  · have habs : n = (n.natAbs : Int) := by omega
    rw [if_neg (by simpa using hn), ← Int.cast_natCast, ← habs]

end NumberText

open NumberText (digitsValue digitsValue_append digitsValue_replicate)

structure Leading (ds : List Char) : Prop where
  ne_nil : ds ≠ []
  digits : AllDigits ds
  head : ds.head? ≠ some '0'

theorem allDigits_replicate (n : Nat) : AllDigits (List.replicate n '0') := by
  intro c hc
  rw [List.eq_of_mem_replicate hc]
  rfl

theorem allDigits_append {ds es : List Char} (hd : AllDigits ds) (he : AllDigits es) :
    AllDigits (ds ++ es) := by
  intro c hc
  rcases List.mem_append.1 hc with hc | hc
  · exact hd c hc
  · exact he c hc

/-- Zeros at the end can be dropped without touching the first digit. -/
theorem leading_dropZeros {ds : List Char} (h : Leading ds) :
    Leading (ds.reverse.dropWhile (· == '0')).reverse := by
  obtain ⟨hne, hdigits, hhead⟩ := h
  cases ds with
  | nil => exact absurd rfl hne
  | cons d ds =>
    have hd : d ≠ '0' := fun he => hhead (congrArg some he)
    have hkept : ∃ kept, ((d :: ds).reverse.dropWhile (· == '0')).reverse = d :: kept ∧
        kept.Sublist ds := by
      rw [List.reverse_cons, List.dropWhile_append]
      split
      · refine ⟨[], ?_, List.nil_sublist _⟩
        rw [List.dropWhile_cons_of_neg (by simp [hd])]
        rfl
      · refine ⟨(ds.reverse.dropWhile (· == '0')).reverse, by simp, ?_⟩
        rw [List.reverse_sublist.symm, List.reverse_reverse]
        exact List.dropWhile_sublist _
    obtain ⟨kept, heq, hsub⟩ := hkept
    rw [heq]
    refine ⟨by simp, ?_, hhead⟩
    intro c hc
    rcases List.mem_cons.1 hc with rfl | hc
    · exact hdigits _ List.mem_cons_self
    · exact hdigits _ (List.mem_cons_of_mem _ (hsub.subset hc))

/-- The zeros that are dropped move the point. -/
theorem digitsValue_dropZeros (ds : List Char) :
    (digitsValue ds : ℚ) = digitsValue (ds.reverse.dropWhile (· == '0')).reverse *
      10 ^ (ds.length - (ds.reverse.dropWhile (· == '0')).reverse.length) := by
  have hsplit : ds = (ds.reverse.dropWhile (· == '0')).reverse ++
      (ds.reverse.takeWhile (· == '0')).reverse := by
    rw [← List.reverse_append, List.takeWhile_append_dropWhile, List.reverse_reverse]
  have hzeros : (ds.reverse.takeWhile (· == '0')).reverse =
      List.replicate (ds.reverse.takeWhile (· == '0')).length '0' := by
    rw [List.eq_replicate_iff, List.length_reverse]
    refine ⟨rfl, fun c hc => ?_⟩
    simpa using List.mem_takeWhile_imp (List.mem_reverse.1 hc)
  rw [hzeros] at hsplit
  generalize (ds.reverse.dropWhile (· == '0')).reverse = kept at *
  generalize (ds.reverse.takeWhile (· == '0')).length = count at *
  rw [hsplit, digitsValue_append, digitsValue_replicate]
  simp

theorem leading_toDigits {n : Nat} (hn : 0 < n) : Leading (Nat.toDigits 10 n) :=
  ⟨Nat.toDigits_ne_nil, allDigits_toDigits n, toDigits_head hn⟩

def Unsigned (s : String) (v : ℚ) : Prop :=
  ∃ n : NumberText, n.Proper ∧ n.negative = false ∧ s.toList = n.chars ∧ n.magnitude = v

section Digits

variable {ds : List Char}

theorem leading_append {es : List Char} (h : Leading ds) (he : AllDigits es) :
    Leading (ds ++ es) := by
  refine ⟨?_, allDigits_append h.digits he, ?_⟩
  · intro hnil
    exact h.ne_nil (List.append_eq_nil_iff.1 hnil).1
  · obtain ⟨d, rest, rfl⟩ := List.exists_cons_of_ne_nil h.ne_nil
    exact h.head

theorem leading_take (h : Leading ds) {n : Nat} (hn : 0 < n) : Leading (ds.take n) := by
  refine ⟨?_, fun c hc => h.digits c (List.mem_of_mem_take hc), ?_⟩
  · intro hnil
    rcases List.take_eq_nil_iff.1 hnil with hz | hz
    · omega
    · exact h.ne_nil hz
  · rw [List.head?_take, if_neg (by omega)]
    exact h.head

theorem allDigits_drop (h : Leading ds) (n : Nat) : AllDigits (ds.drop n) :=
  fun c hc => h.digits c (List.mem_of_mem_drop hc)

theorem proper_of_leading {fraction : List Char} {exponent : Option (Bool × List Char)}
    (h : Leading ds) (hf : AllDigits fraction) (he : ∀ e ∈ exponent, e.2 ≠ [] ∧ AllDigits e.2) :
    NumberText.Proper ⟨false, ds, fraction, exponent⟩ :=
  ⟨h.ne_nil, h.digits, fun hz => absurd hz h.head, hf, he⟩

theorem proper_plain {fraction : List Char} (h : Leading ds) (hf : AllDigits fraction) :
    NumberText.Proper ⟨false, ds, fraction, none⟩ :=
  proper_of_leading h hf fun _ he => by cases he

theorem proper_zero {fraction : List Char} (hf : AllDigits fraction) :
    NumberText.Proper ⟨false, ['0'], fraction, none⟩ :=
  ⟨by simp, allDigits_replicate 1, fun _ => rfl, hf, fun _ he => by cases he⟩

theorem fractionChars_eq (h : ds ≠ []) : NumberText.fractionChars ds = '.' :: ds := by
  cases ds with
  | nil => exact absurd rfl h
  | cons d ds => rfl

theorem unsigned_positional (h : Leading ds) (exponent : Int) :
    Unsigned (positional (String.ofList ds) exponent) (digitsValue ds * 10 ^ exponent) := by
  have hcount : (String.ofList ds).length = ds.length := String.length_ofList
  unfold positional
  dsimp only
  rw [hcount]
  split
  · have hwhole := leading_append h (allDigits_replicate exponent.toNat)
    refine ⟨_, proper_plain hwhole (allDigits_replicate 1), rfl, ?_, ?_⟩
    · simp [zeros, NumberText.chars, NumberText.fractionChars, NumberText.exponentChars]
    · rename_i hexponent
      lift exponent to ℕ using hexponent
      rw [NumberText.magnitude_plain, digitsValue_append, digitsValue_append,
        digitsValue_replicate, digitsValue_replicate]
      simp
  · split
    · rename_i hneg hplaces
      have hfraction : ds.drop (ds.length - (-exponent).toNat) ≠ [] := by
        intro hnil
        have hlen := List.drop_eq_nil_iff.1 hnil
        omega
      have hwhole : Leading (ds.take (ds.length - (-exponent).toNat)) := leading_take h (by omega)
      refine ⟨_, proper_plain hwhole (allDigits_drop h (ds.length - (-exponent).toNat)), rfl,
        ?_, ?_⟩
      · simp [NumberText.chars, fractionChars_eq hfraction, NumberText.exponentChars]
      · have hlength : -((ds.drop (ds.length - (-exponent).toNat)).length : Int) = exponent := by
          rw [List.length_drop]
          omega
        rw [NumberText.magnitude_plain, List.take_append_drop, hlength]
    · have hfraction : AllDigits (List.replicate ((-exponent).toNat - ds.length) '0' ++ ds) :=
        allDigits_append (allDigits_replicate _) h.digits
      refine ⟨_, proper_zero hfraction, rfl, ?_, ?_⟩
      · have hne : List.replicate ((-exponent).toNat - ds.length) '0' ++ ds ≠ [] := by
          simp [h.ne_nil]
        simp [zeros, NumberText.chars, fractionChars_eq hne, NumberText.exponentChars]
      · have hlength : -((List.replicate ((-exponent).toNat - ds.length) '0' ++ ds).length : Int) =
            exponent := by
          rw [List.length_append, List.length_replicate]
          omega
        have hzero : digitsValue ['0'] = 0 := digitsValue_replicate 1
        rw [NumberText.magnitude_plain, hlength, digitsValue_append, digitsValue_append, hzero,
          digitsValue_replicate]
        simp

theorem unsigned_scientific (h : Leading ds) (leading : Int) :
    Unsigned (scientific (String.ofList ds) leading)
      (digitsValue ds * 10 ^ (leading - (ds.length - 1 : ℕ))) := by
  have hexponent : ∀ e ∈ some (decide (leading < 0), Nat.toDigits 10 leading.natAbs),
      e.2 ≠ [] ∧ AllDigits e.2 := by
    intro e he
    cases he
    exact ⟨Nat.toDigits_ne_nil, allDigits_toDigits _⟩
  refine ⟨_, proper_of_leading (leading_take h (by omega : 0 < 1)) (allDigits_drop h 1) hexponent,
    rfl, ?_, ?_⟩
  · have hsign : (if leading < 0 then "-" else "+").toList =
        [if decide (leading < 0) then '-' else '+'] := by
      by_cases hl : leading < 0
      · simp [hl]
      · simp [hl]
    have hdigits : (toString leading.natAbs).toList = Nat.toDigits 10 leading.natAbs :=
      Nat.toList_repr
    unfold scientific
    simp only [String.toList_append, String.toList_ofList, hsign, hdigits, NumberText.chars,
      NumberText.exponentChars]
    by_cases hrest : ds.drop 1 = []
    · simp only [if_true, hrest, NumberText.fractionChars]
      simp
    · have hfull : ¬ String.ofList (ds.drop 1) = "" := by
        intro he
        apply hrest
        simpa using congrArg String.toList he
      simp only [hfull, if_false, String.toList_append, String.toList_ofList,
        fractionChars_eq hrest]
      simp
  · have hshift : NumberText.exponentShift
        (some (decide (leading < 0), Nat.toDigits 10 leading.natAbs)) = leading := by
      rw [NumberText.exponentShift, NumberText.digitsValue_toDigits]
      split
      · rename_i hneg
        have := of_decide_eq_true hneg
        omega
      · rename_i hpos
        rw [decide_eq_true_eq] at hpos
        omega
    rw [NumberText.magnitude, hshift, List.take_append_drop, List.length_drop]

end Digits

theorem unsigned_decimalText (d : Decimal) : Unsigned (decimalText d) d.value := by
  unfold decimalText
  by_cases hd : d.digits = 0
  · have hzero : digitsValue (['0'] ++ List.replicate 1 '0') = 0 := digitsValue_replicate 2
    rw [if_pos hd]
    refine ⟨_, proper_zero (allDigits_replicate 1), rfl, rfl, ?_⟩
    rw [NumberText.magnitude_plain, hzero, Decimal.value, hd, Nat.cast_zero, zero_mul, zero_mul]
  · have hkept := leading_dropZeros (leading_toDigits (Nat.pos_of_ne_zero hd))
    have hdrop := digitsValue_dropZeros (Nat.toDigits 10 d.digits)
    rw [NumberText.digitsValue_toDigits] at hdrop
    rw [if_neg hd]
    unfold significant
    dsimp only
    generalize ((Nat.toDigits 10 d.digits).reverse.dropWhile (· == '0')).reverse = kept at *
    generalize (Nat.toDigits 10 d.digits).length - kept.length = dropped at *
    have hvalue : d.value = digitsValue kept * 10 ^ (d.exponent + dropped) := by
      rw [Decimal.value, hdrop, add_comm, zpow_add₀ (by norm_num), zpow_natCast, mul_assoc]
    rw [hvalue, String.length_ofList]
    split
    · exact unsigned_positional hkept _
    · have hscientific := unsigned_scientific hkept (d.exponent + dropped + kept.length - 1)
      have hlength : 0 < kept.length := List.length_pos_iff.2 hkept.ne_nil
      have hshift : d.exponent + dropped + kept.length - 1 - (kept.length - 1 : ℕ) =
          d.exponent + dropped := by
        omega
      rwa [hshift] at hscientific

/-- The text of a finite double is that of a number, and it denotes the double. -/
theorem floatText_denotes {x : Float} (h : x.isFinite = true) :
    ∃ n : NumberText, n.Proper ∧ (floatText x).toList = n.chars ∧ n.Denotes (.float x) := by
  obtain ⟨n, hn, hsign, hchars, hvalue⟩ := unsigned_decimalText (.ofFloat x)
  have hrounds := Decimal.rounds_ofFloat h
  rw [← hvalue] at hrounds
  rw [floatText, if_pos h, String.toList_append, hchars]
  by_cases hpos : x.toBits.toNat < signedLimit
  · rw [if_pos hpos]
    exact ⟨n, hn, rfl, by simp [hsign, hpos], hrounds⟩
  · rw [if_neg hpos]
    refine ⟨{ n with negative := true }, ⟨hn.1, hn.2, hn.3, hn.4, hn.5⟩, ?_, ?_, hrounds⟩
    · rw [NumberText.chars, NumberText.chars, hsign]
      rfl
    · simpa using hpos

end SchemaQuery.Json
