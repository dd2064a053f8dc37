import SchemaQuery.Unicode.Classes

/-!
# How the character classes lie to each other

White space is foreign to words, and the ten digits do not open any. The characters of the smaller
class are few, so each of them is looked up in the tables of the larger one.
-/

set_option autoImplicit false

namespace SchemaQuery.Unicode

theorem whiteSpace_foreign : ∀ r ∈ whiteSpace, ∀ n ∈ List.range' r.1 (r.2 + 1 - r.1),
    alphabetic.contains n = false ∧ numeric.contains n = false ∧ n ≠ '_'.toNat := by
  decide +kernel

theorem isWordChar_of_isWhite {c : Char} (h : isWhite c = true) : isWordChar c = false := by
  obtain ⟨r, hr, hlow, hhigh⟩ := Ranges.exists_mem_of_contains h
  have hn : c.toNat ∈ List.range' r.1 (r.2 + 1 - r.1) := by
    rw [List.mem_range'_1]
    omega
  obtain ⟨ha, hd, hu⟩ := whiteSpace_foreign r hr c.toNat hn
  have hc : c ≠ '_' := fun e => hu (e ▸ rfl)
  simp [isWordChar, isAlphanumeric, isLetter, ha, hd, hc]

theorem isWhite_of_isWordChar {c : Char} (h : isWordChar c = true) : isWhite c = false := by
  cases hw : isWhite c with
  | false => rfl
  | true => rw [isWordChar_of_isWhite hw] at h; exact absurd h (by simp)

theorem ne_of_isWordChar {c d : Char} (hc : isWordChar c = true) (hd : isWordChar d = false) :
    c ≠ d := by
  rintro rfl
  rw [hc] at hd
  cases hd

theorem digits_foreign : ∀ n ∈ List.range' 48 10, alphabetic.contains n = false := by
  decide +kernel

theorem isDecimalDigit_iff {c : Char} : isDecimalDigit c = true ↔ 48 ≤ c.toNat ∧ c.toNat ≤ 57 := by
  simp only [isDecimalDigit, Bool.and_eq_true, decide_eq_true_eq]
  exact Iff.rfl

theorem isWordChar_of_isDecimalDigit {c : Char} (h : isDecimalDigit c = true) :
    isWordChar c = true := by
  obtain ⟨hlow, hhigh⟩ := isDecimalDigit_iff.1 h
  have hnumeric : numeric.contains c.toNat = true := by
    show (if c.toNat < 0x30 then false else if c.toNat ≤ 0x39 then true else _) = true
    rw [if_neg (by omega), if_pos hhigh]
  simp [isWordChar, isAlphanumeric, hnumeric]

theorem isDecimalDigit_of_isWordStart {c : Char} (h : isWordStart c = true) :
    isDecimalDigit c = false := by
  cases hd : isDecimalDigit c with
  | false => rfl
  | true =>
    obtain ⟨hlow, hhigh⟩ := isDecimalDigit_iff.1 hd
    have hn : c.toNat ∈ List.range' 48 10 := by
      rw [List.mem_range'_1]
      omega
    simp only [isWordStart, isLetter, digits_foreign c.toNat hn, Bool.false_or, beq_iff_eq] at h
    subst h
    exact absurd hhigh (by decide)

end SchemaQuery.Unicode
