import SchemaQuery.Proofs.Json.NumberSpelling
import SchemaQuery.Proofs.Json.Spacing

/-!
# Whole numbers are read back

A whole number is written with its decimal digits, and the digits are gathered to the number again
if it fits into 64 bits.
-/

set_option autoImplicit false

namespace SchemaQuery.Json

open SchemaQuery.Unicode

theorem isDecimalDigit_of_isDigit {c : Char} (h : c.isDigit = true) : isDecimalDigit c = true := by
  simp only [Char.isDigit, Bool.and_eq_true, decide_eq_true_eq] at h
  exact isDecimalDigit_iff.2 ⟨UInt32.le_iff_toNat_le.1 h.1, UInt32.le_iff_toNat_le.1 h.2⟩

theorem allDigits_toDigits (n : Nat) : AllDigits (Nat.toDigits 10 n) := fun _ hc =>
  isDecimalDigit_of_isDigit (Nat.isDigit_of_mem_toDigits (by decide) (by decide) hc)

/-- No zero stands before another digit. -/
theorem toDigits_head {n : Nat} (hn : 0 < n) : (Nat.toDigits 10 n).head? ≠ some '0' := by
  induction n using Nat.strongRecOn with
  | _ n ih =>
    rw [Nat.toDigits_eq_if (by decide)]
    by_cases h : n < 10
    · rw [if_pos h, List.head?_cons]
      intro he
      have hz := Nat.digitChar_eq_zero.1 (Option.some.inj he)
      omega
    · have hpos : 0 < n / 10 := by omega
      have hrest := ih (n / 10) (by omega) hpos
      rw [if_neg h]
      cases hd : Nat.toDigits 10 (n / 10) with
      | nil => exact absurd hd Nat.toDigits_ne_nil
      | cons d ds =>
        rw [hd] at hrest
        exact hrest

namespace NumberText

def ofInt (n : Int) : NumberText := ⟨decide (n < 0), Nat.toDigits 10 n.natAbs, [], none⟩

theorem toList_toString (n : Int) : (toString n).toList = (ofInt n).chars := by
  have htail : fractionChars (ofInt n).fraction ++ exponentChars (ofInt n).exponent = [] := rfl
  rw [chars, htail, List.append_nil]
  cases n with
  | ofNat m =>
    have hn : ¬ (Int.ofNat m < 0) := by simp
    rw [ofInt, decide_eq_false hn]
    exact Nat.toList_repr
  | negSucc m =>
    have hn : Int.negSucc m < 0 := by omega
    rw [ofInt, decide_eq_true hn]
    show ("-" ++ (m + 1).repr).toList = _
    rw [String.toList_append, Nat.toList_repr]
    rfl

theorem proper_ofInt (n : Int) : (ofInt n).Proper where
  whole_ne := Nat.toDigits_ne_nil
  whole_digits := allDigits_toDigits _
  whole_zero := by
    intro hhead
    by_cases hn : n.natAbs = 0
    · show Nat.toDigits 10 n.natAbs = ['0']
      rw [hn, Nat.toDigits_zero]
    · exact absurd hhead (toDigits_head (Nat.pos_of_ne_zero hn))
  fraction_digits := fun _ hc => by cases hc
  exponent_digits := fun _ he => by cases he

theorem read_toString (n : Int) {rest : List Char} (h : Stops rest) :
    read ((toString n).toList ++ rest) = .ok (ofInt n, rest) := by
  rw [toList_toString]
  exact read_chars (proper_ofInt n) h

theorem le_ofDigitChars (ds : List Char) (n : Nat) : n ≤ Nat.ofDigitChars 10 ds n := by
  induction ds generalizing n with
  | nil => rw [Nat.ofDigitChars_nil]
  | cons d ds ih =>
    rw [Nat.ofDigitChars_cons]
    have hnext := ih (10 * n + (d.toNat - '0'.toNat))
    omega

theorem gather_of_lt {ds : List Char} {n : Nat} (h : Nat.ofDigitChars 10 ds n < unsignedLimit) :
    gather n ds = (Nat.ofDigitChars 10 ds n, []) := by
  induction ds generalizing n with
  | nil => rw [gather, Nat.ofDigitChars_nil]
  | cons d ds ih =>
    have hstep : n * 10 + (d.toNat - '0'.toNat) = 10 * n + (d.toNat - '0'.toNat) := by omega
    rw [Nat.ofDigitChars_cons] at h ⊢
    have hle := le_ofDigitChars ds (10 * n + (d.toNat - '0'.toNat))
    rw [gather, hstep, if_pos (Nat.lt_of_le_of_lt hle h), ih h]

/-- A number that fits into 64 bits has its own value. -/
theorem value_ofInt {n : Int} (hlow : -signedLimit ≤ n) (hhigh : n < unsignedLimit) :
    (ofInt n).value = some (.int n) := by
  have hnat : n.natAbs < unsignedLimit := by
    have hs : signedLimit < unsignedLimit := by decide
    omega
  have hgather : gather 0 (ofInt n).whole = (n.natAbs, []) := by
    have hvalue : Nat.ofDigitChars 10 (Nat.toDigits 10 n.natAbs) 0 = n.natAbs :=
      Nat.ofDigitChars_ten_toDigits
    have hg := gather_of_lt (hvalue.symm ▸ hnat)
    rwa [hvalue] at hg
  unfold value
  rw [hgather]
  show some (wholeNumber (decide (n < 0)) n.natAbs) = _
  by_cases hn : n < 0
  · have hfits : 0 < n.natAbs ∧ n.natAbs ≤ signedLimit := by omega
    have hneg : -(n.natAbs : Int) = n := by omega
    rw [decide_eq_true hn, wholeNumber, if_pos rfl, if_pos hfits, hneg]
  · have hpos : (n.natAbs : Int) = n := by omega
    rw [decide_eq_false hn, wholeNumber, if_neg (by simp), hpos]

end NumberText

end SchemaQuery.Json
