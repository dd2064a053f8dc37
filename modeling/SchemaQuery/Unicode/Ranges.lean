/-!
# Code point ranges

A character class of Unicode is a table of closed ranges in ascending order. Looking a code point
up walks the table and stops at the first range that lies above it, so that characters near the
start of the code space are decided in a few steps.
-/

set_option autoImplicit false

namespace SchemaQuery.Unicode

abbrev Ranges := List (Nat × Nat)

def Ranges.contains : Ranges → Nat → Bool
  | [], _ => false
  | (low, high) :: rest, n =>
    if n < low then false else if n ≤ high then true else Ranges.contains rest n

theorem Ranges.exists_mem_of_contains {table : Ranges} {n : Nat} (h : table.contains n = true) :
    ∃ r ∈ table, r.1 ≤ n ∧ n ≤ r.2 := by
  induction table with
  | nil => simp [Ranges.contains] at h
  | cons r rest ih =>
    obtain ⟨low, high⟩ := r
    by_cases hl : n < low
    · simp [Ranges.contains, hl] at h
    · by_cases hh : n ≤ high
      · exact ⟨(low, high), by simp, by omega, hh⟩
      · simp only [Ranges.contains, if_neg hl, if_neg hh] at h
        obtain ⟨r, hr, hb⟩ := ih h
        exact ⟨r, List.mem_cons_of_mem _ hr, hb⟩

end SchemaQuery.Unicode
