import SchemaQuery.Unicode.Width

/-!
# Widths add up

A text never takes less than no columns, although some characters take columns back from those on
their right. A space merges with nothing, so the width of a text is that of its parts between spaces
with one column more for each of them.
-/

set_option autoImplicit false

namespace SchemaQuery.Unicode

namespace Right

def least : Right → Int
  | khmerLetter | tifinaghJoiner | joinedFlagLetter | joinedFlagsOdd => 1
  | _ => 0

theorem least_nonneg (r : Right) : 0 ≤ r.least := by
  unfold least
  split <;> decide

theorem least_le_one (r : Right) : r.least ≤ 1 := by
  unfold least
  split <;> decide

theorem least_join_le (r : Right) : r.join.least ≤ r.least := by
  unfold join
  split <;> exact Int.le_refl _

end Right

theorem columns_nonneg (c : Char) : 0 ≤ columns c := by
  simp only [columns]
  repeat' split
  all_goals decide

theorem khmerSubscripts_columns : ∀ r ∈ khmerSubscripts, ∀ n ∈ List.range' r.1 (r.2 + 1 - r.1),
    zeroWidth.contains n = false := by
  decide +kernel

/-- A Khmer letter that can stand below another one takes a column of its own. -/
theorem one_le_columns_of_khmer {c : Char} (h : khmerSubscripts.contains c.toNat = true) :
    1 ≤ columns c := by
  obtain ⟨r, hr, hlow, hhigh⟩ := Ranges.exists_mem_of_contains h
  have hn : c.toNat ∈ List.range' r.1 (r.2 + 1 - r.1) := by
    rw [List.mem_range'_1]
    omega
  simp only [columns, khmerSubscripts_columns r hr c.toNat hn]
  repeat' split
  all_goals first
    | decide
    | contradiction

theorem least_rightOf_le (c : Char) : (rightOf c).least ≤ columns c := by
  by_cases hkhmer : khmerSubscripts.contains c.toNat = true
  · exact Int.le_trans (rightOf c).least_le_one (one_le_columns_of_khmer hkhmer)
  · have hnone : (rightOf c).least = 0 := by
      simp only [rightOf, if_neg hkhmer]
      repeat' split
      all_goals rfl
    rw [hnone]
    exact columns_nonneg c

/-- What two make up holds what the one on the right held, less what the other takes back. -/
theorem least_merge?_le {c : Char} {right next : Right} {w : Int}
    (h : merge? c right = some (w, next)) : next.least ≤ right.least + w := by
  unfold merge? at h
  split at h
  all_goals
    simp only at h
    repeat' split at h
  all_goals
    cases h
    try simp [Right.least]

theorem least_addPlain_le (c : Char) (right : Right) :
    (addPlain c right).2.right.least ≤ right.least + (addPlain c right).1 := by
  unfold addPlain
  split
  · simpa using right.least_join_le
  · split
    · simp
    · split
      · rename_i h
        exact least_merge?_le h
      · have hown := least_rightOf_le c
        have hright := right.least_nonneg
        show (rightOf c).least ≤ right.least + columns c
        omega

section Selectors

variable (next : Following)

theorem least_visible_le : next.visible.right.least ≤ next.right.least := by
  unfold Following.visible
  split
  · exact Int.le_refl _
  · exact next.right.least_nonneg

theorem least_dropPicture_le : next.dropPicture.right.least ≤ next.right.least := by
  unfold Following.dropPicture
  split
  · exact least_visible_le next
  · exact Int.le_refl _

theorem least_requestPicture_le : next.requestPicture.right.least ≤ next.right.least := by
  unfold Following.requestPicture
  split
  · exact Int.le_refl _
  · exact least_visible_le next

theorem least_addUnpictured_le (c : Char) :
    (addUnpictured c next).2.right.least ≤ next.right.least + (addUnpictured c next).1 := by
  have hright := next.right.least_nonneg
  have hvisible := least_visible_le next
  have hrequest := least_requestPicture_le next
  have hplain := least_addPlain_le c next.right
  have hfeed : Right.lineFeed.least = 0 := rfl
  have hnone : Right.plain.least = 0 := rfl
  simp only [addUnpictured]
  repeat' split
  all_goals first
    | exact hplain
    | dsimp only
      omega

/-- One character keeps the bound. -/
theorem least_add_le (c : Char) :
    (add c next).2.right.least ≤ next.right.least + (add c next).1 := by
  unfold add
  split
  · have hright := next.right.least_nonneg
    have hemoji : Right.emoji.least = 0 := rfl
    dsimp only
    split <;> omega
  · have hdrop := least_dropPicture_le next
    have hadd := least_addUnpictured_le next.dropPicture c
    omega

end Selectors

theorem least_addAll_le (s : List Char) : (addAll s).2.right.least ≤ (addAll s).1 := by
  induction s with
  | nil => exact Int.le_refl _
  | cons c s ih =>
    have hadd := least_add_le (addAll s).2 c
    show (add c (addAll s).2).2.right.least ≤ (addAll s).1 + (add c (addAll s).2).1
    omega

/-- No text takes less than no columns. -/
theorem addAll_nonneg (s : List Char) : 0 ≤ (addAll s).1 :=
  Int.le_trans (addAll s).2.right.least_nonneg (least_addAll_le s)

def spaces (n : Nat) : String := String.ofList (List.replicate n ' ')

/-- A space takes one column and lets nothing through. -/
theorem add_space (next : Following) : add ' ' next = (1, {}) := by
  have hsymbol : emojiOnRequest.contains ' '.toNat = false := by decide
  rw [add, hsymbol, Bool.and_false, if_neg Bool.false_ne_true]
  rfl

theorem addAll_append_space (s t : List Char) :
    addAll (s ++ ' ' :: t) = ((addAll s).1 + 1 + (addAll t).1, (addAll s).2) := by
  induction s with
  | nil =>
    show ((addAll t).1 + (add ' ' (addAll t).2).1, (add ' ' (addAll t).2).2) =
      (0 + 1 + (addAll t).1, {})
    rw [add_space]
    exact Prod.ext (by dsimp only; omega) rfl
  | cons c s ih =>
    rw [List.cons_append, addAll, ih, addAll]
    exact Prod.ext (by dsimp only; omega) rfl

theorem addAll_spaces (n : Nat) (t : List Char) :
    (addAll (List.replicate n ' ' ++ t)).1 = n + (addAll t).1 := by
  induction n with
  | zero => simp
  | succ n ih =>
    have hspace := addAll_append_space [] (List.replicate n ' ' ++ t)
    rw [List.nil_append] at hspace
    rw [List.replicate_succ, List.cons_append, hspace, ih]
    simp only [addAll]
    omega

/-- The width of two texts with spaces between them. -/
theorem width_append_spaces (s t : String) {n : Nat} (hn : 0 < n) :
    width (s ++ spaces n ++ t) = width s + n + width t := by
  obtain ⟨k, rfl⟩ := Nat.exists_eq_add_of_lt hn
  have hchars : (s ++ spaces (0 + k + 1) ++ t).toList =
      s.toList ++ ' ' :: (List.replicate k ' ' ++ t.toList) := by
    simp [spaces, List.replicate_succ]
  have hs := addAll_nonneg s.toList
  have ht := addAll_nonneg t.toList
  rw [width, hchars, addAll_append_space, addAll_spaces, width, width]
  dsimp only
  omega

end SchemaQuery.Unicode
