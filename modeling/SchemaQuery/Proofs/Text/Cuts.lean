import Mathlib.Data.List.TakeWhile
import SchemaQuery.Proofs.Unicode.Classes
import SchemaQuery.Text.Trim

/-!
# Cuts of longer texts

A reader cuts a text at a character that stops it. If such a character stands in the text already,
what follows the text has no influence on the cut. White space and word characters never meet, so
a word between blanks is cut out whole.
-/

set_option autoImplicit false

namespace SchemaQuery.Text

open SchemaQuery.Unicode

variable {α : Type} {p : α → Bool}

theorem dropWhile_append_of_mem {s : List α} {c : α} (hc : c ∈ s) (hp : p c = false)
    (t : List α) : (s ++ t).dropWhile p = s.dropWhile p ++ t := by
  induction s with
  | nil => simp at hc
  | cons x s ih =>
    by_cases hx : p x = true
    · have hcs : c ∈ s := by
        rcases List.mem_cons.1 hc with rfl | h
        · simp [hp] at hx
        · exact h
      simpa [hx] using ih hcs
    · simp [hx]

/-- A character that stops a cut is not cut away. -/
theorem mem_dropWhile_of_mem {s : List α} {c : α} (hc : c ∈ s) (hp : p c = false) :
    c ∈ s.dropWhile p := by
  induction s with
  | nil => simp at hc
  | cons x s ih =>
    by_cases hx : p x = true
    · rcases List.mem_cons.1 hc with rfl | h
      · simp [hp] at hx
      · simpa [hx] using ih h
    · simpa [hx] using hc

theorem takeWhile_append_cons {s t : List α} {c : α} (hs : ∀ x ∈ s, p x = true)
    (hc : p c = false) : (s ++ c :: t).takeWhile p = s := by
  rw [List.takeWhile_append_of_pos hs]
  simp [hc]

theorem dropWhile_append_cons {s t : List α} {c : α} (hs : ∀ x ∈ s, p x = true)
    (hc : p c = false) : (s ++ c :: t).dropWhile p = c :: t := by
  rw [List.dropWhile_append_of_pos hs]
  simp [hc]

theorem of_mem_head?_dropWhile {s : List α} {c : α} (h : c ∈ (s.dropWhile p).head?) :
    p c = false := by
  have hnot := List.head?_dropWhile_not p s
  rw [Option.mem_def.1 h] at hnot
  exact hnot

/-- A cut falls between characters that pass and one that does not. -/
theorem cut_append {s t : List α} (hs : ∀ x ∈ s, p x = true) (ht : ∀ x ∈ t.head?, p x = false) :
    (s ++ t).takeWhile p = s ∧ (s ++ t).dropWhile p = t := by
  cases t with
  | nil =>
    rw [List.append_nil]
    exact ⟨List.takeWhile_eq_self_iff.2 hs, List.dropWhile_eq_nil_iff.2 hs⟩
  | cons c t => exact ⟨takeWhile_append_cons hs (ht c rfl), dropWhile_append_cons hs (ht c rfl)⟩

theorem guard_of_pos {q : Prop} [Decidable q] (h : q) : (guard q : Option Unit) = some () :=
  if_pos h

theorem guard_of_neg {q : Prop} [Decidable q] (h : ¬ q) : (guard q : Option Unit) = none :=
  if_neg h

theorem after?_append (word rest : List Char) : after? word (word ++ rest) = some rest :=
  after?_eq_some_iff.2 rfl

theorem isBlank_append (s t : List Char) : isBlank (s ++ t) = (isBlank s && isBlank t) := by
  simp [isBlank]

theorem isWhite_of_isBlank {s : List Char} (h : isBlank s = true) {c : Char} (hc : c ∈ s) :
    isWhite c = true := by
  simp only [isBlank, List.all_eq_true] at h
  exact h c hc

theorem opensWord_cons {c : Char} (h : isWordChar c = false) (s : List Char) :
    opensWord (c :: s) = false := h

theorem isWhite_space : isWhite ' ' = true := by decide

theorem isBlank_nil : isBlank [] = true := rfl

theorem isBlank_space : isBlank [' '] = true := by decide

def isWord (s : List Char) : Bool := s != [] && s.all isWordChar

theorem isWordChar_of_isWord {s : List Char} (h : isWord s = true) {c : Char} (hc : c ∈ s) :
    isWordChar c = true := by
  simp only [isWord, Bool.and_eq_true, List.all_eq_true] at h
  exact h.2 c hc

theorem ne_nil_of_isWord {s : List Char} (h : isWord s = true) : s ≠ [] := by
  simp only [isWord, Bool.and_eq_true, bne_iff_ne] at h
  exact h.1

/-- A word is cut out whole where no word goes on behind it. -/
theorem word?_append {s rest : List Char} (hs : isWord s = true) (hrest : opensWord rest = false) :
    word? (s ++ rest) = some (s, rest) := by
  have hall : ∀ c ∈ s, isWordChar c = true := fun c hc => isWordChar_of_isWord hs hc
  have hcut : (s ++ rest).takeWhile isWordChar = s ∧ (s ++ rest).dropWhile isWordChar = rest := by
    cases rest with
    | nil =>
      rw [List.append_nil]
      exact ⟨List.takeWhile_eq_self_iff.2 hall, List.dropWhile_eq_nil_iff.2 hall⟩
    | cons c rest => exact ⟨takeWhile_append_cons hall hrest, dropWhile_append_cons hall hrest⟩
  unfold word?
  rw [hcut.1, hcut.2]
  cases s with
  | nil => exact absurd rfl (ne_nil_of_isWord hs)
  | cons c s => rfl

theorem word?_eq_some_iff {s w rest : List Char} :
    word? s = some (w, rest) ↔ isWord w = true ∧ opensWord rest = false ∧ s = w ++ rest := by
  constructor
  · intro h
    have hs := eq_append_of_word? h
    unfold word? at h
    split at h
    · cases h
    · rename_i hne
      cases h
      refine ⟨?_, ?_, hs⟩
      · rw [isWord, Bool.and_eq_true, bne_iff_ne]
        exact ⟨hne, List.all_takeWhile⟩
      · cases hr : s.dropWhile isWordChar with
        | nil => rfl
        | cons c rest =>
          have hstop := of_mem_head?_dropWhile (p := isWordChar) (s := s) (c := c)
            (by rw [hr]; rfl)
          exact hstop
  · rintro ⟨hw, hrest, rfl⟩
    exact word?_append hw hrest

theorem trimLeft_word {s : List Char} (hs : isWord s = true) (rest : List Char) :
    trimLeft (s ++ rest) = s ++ rest := by
  cases s with
  | nil => exact absurd rfl (ne_nil_of_isWord hs)
  | cons c s =>
    have hc : isWhite c = false :=
      isWhite_of_isWordChar (isWordChar_of_isWord hs List.mem_cons_self)
    simp [trimLeft, hc]

theorem trimLeft_of_isBlank {s : List Char} (h : isBlank s = true) : trimLeft s = [] := by
  simp only [isBlank, List.all_eq_true] at h
  exact List.dropWhile_eq_nil_iff.2 h

theorem trimLeft_append_of_mem {s : List Char} {c : Char} (hc : c ∈ s) (hw : isWhite c = false)
    (t : List Char) : trimLeft (s ++ t) = trimLeft s ++ t :=
  dropWhile_append_of_mem hc hw t

theorem exists_trimLeft (s : List Char) :
    ∃ margin, isBlank margin = true ∧ s = margin ++ trimLeft s :=
  ⟨s.takeWhile isWhite, List.all_takeWhile, List.takeWhile_append_dropWhile.symm⟩

theorem exists_trimRight (s : List Char) :
    ∃ ending, isBlank ending = true ∧ s = trimRight s ++ ending := by
  obtain ⟨ending, hending, hr⟩ := exists_trimLeft s.reverse
  have hs := congrArg List.reverse hr
  rw [List.reverse_reverse, List.reverse_append] at hs
  refine ⟨ending.reverse, ?_, hs⟩
  rw [isBlank, List.all_reverse]
  exact hending

theorem exists_trim (s : List Char) :
    ∃ margin ending, isBlank margin = true ∧ isBlank ending = true ∧
      s = margin ++ (trim s ++ ending) := by
  obtain ⟨margin, hmargin, hs⟩ := exists_trimLeft s
  obtain ⟨ending, hending, hr⟩ := exists_trimRight (trimLeft s)
  refine ⟨margin, ending, hmargin, hending, ?_⟩
  rw [trim, ← hr]
  exact hs

/-- What is not white stands before the white end of a text. -/
theorem of_append_isBlank {s blanks front rest : List Char} {c : Char}
    (hb : isBlank blanks = true) (hc : isWhite c = false) (h : s ++ blanks = front ++ c :: rest) :
    ∃ rest', s = front ++ c :: rest' := by
  rcases List.append_eq_append_iff.1 h with ⟨more, -, hmore⟩ | ⟨more, hs, hmore⟩
  · have hwhite := isWhite_of_isBlank hb (c := c) (by rw [hmore]; simp)
    rw [hc] at hwhite
    cases hwhite
  · cases more with
    | nil =>
      have hwhite := isWhite_of_isBlank hb (c := c) (by
        rw [List.nil_append] at hmore
        rw [← hmore]
        simp)
      rw [hc] at hwhite
      cases hwhite
    | cons d more =>
      rw [List.cons_append, List.cons.injEq] at hmore
      exact ⟨more, by rw [hs, hmore.1]⟩

/-- What is not white stands behind the white front of a text. -/
theorem of_isBlank_append {s blanks front rest : List Char} {c : Char}
    (hb : isBlank blanks = true) (hc : isWhite c = false) (h : blanks ++ s = front ++ c :: rest) :
    ∃ front', front = blanks ++ front' ∧ s = front' ++ c :: rest := by
  rcases List.append_eq_append_iff.1 h with ⟨more, hfront, hs⟩ | ⟨more, hblanks, hs⟩
  · exact ⟨more, hfront, hs⟩
  · cases more with
    | nil => exact ⟨[], by rw [hblanks, List.append_nil, List.append_nil], hs.symm⟩
    | cons d more =>
      rw [List.cons_append, List.cons.injEq] at hs
      have hwhite := isWhite_of_isBlank hb (c := c) (by rw [hblanks, hs.1]; simp)
      rw [hc] at hwhite
      cases hwhite

/-- Behind white space the text begins with that word, which white space does not begin. -/
theorem after?_trimLeft_iff {c : Char} (hc : isWhite c = false) {word s rest : List Char} :
    after? (c :: word) (trimLeft s) = some rest ↔
      ∃ gap, isBlank gap = true ∧ s = gap ++ c :: (word ++ rest) := by
  rw [after?_eq_some_iff]
  constructor
  · intro h
    obtain ⟨gap, hgap, hs⟩ := exists_trimLeft s
    exact ⟨gap, hgap, hs.trans (congrArg (gap ++ ·) h)⟩
  · rintro ⟨gap, hgap, rfl⟩
    exact dropWhile_append_cons (fun x hx => isWhite_of_isBlank hgap hx) hc

theorem opensWhite_append_word {gap word : List Char} (hgap : isBlank gap = true)
    (hword : isWord word = true) (rest : List Char) :
    opensWhite (gap ++ (word ++ rest)) = true ↔ gap ≠ [] := by
  cases gap with
  | cons c gap => exact iff_of_true (isWhite_of_isBlank hgap List.mem_cons_self) (by simp)
  | nil =>
    cases word with
    | nil => exact absurd rfl (ne_nil_of_isWord hword)
    | cons c word =>
      have hc : isWhite c = false :=
        isWhite_of_isWordChar (isWordChar_of_isWord hword List.mem_cons_self)
      exact iff_of_false (by simp [opensWhite, hc]) (by simp)

theorem opensWord_append_of_isBlank {gap : List Char} (hgap : isBlank gap = true) {c : Char}
    (hc : isWordChar c = false) (rest : List Char) : opensWord (gap ++ c :: rest) = false := by
  cases gap with
  | nil => exact hc
  | cons d gap => exact isWordChar_of_isWhite (isWhite_of_isBlank hgap List.mem_cons_self)

end SchemaQuery.Text
