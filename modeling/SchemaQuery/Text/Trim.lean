import SchemaQuery.Unicode.Classes

/-!
# Cutting text

Texts are read as lists of characters, and every reader hands on what it has not used. This module
holds the cuts that all readers share: white space at either end, a given word at the front, and the
longest run of word characters.
-/

set_option autoImplicit false

namespace SchemaQuery.Text

open SchemaQuery.Unicode

theorem length_dropWhile_le {α : Type} (p : α → Bool) (s : List α) :
    (s.dropWhile p).length ≤ s.length :=
  (List.dropWhile_suffix p).length_le

def trimLeft (s : List Char) : List Char := s.dropWhile isWhite

def trimRight (s : List Char) : List Char := (s.reverse.dropWhile isWhite).reverse

def trim (s : List Char) : List Char := trimRight (trimLeft s)

def isBlank (s : List Char) : Bool := s.all isWhite

def after? : (word text : List Char) → Option (List Char)
  | [], s => some s
  | _ :: _, [] => none
  | w :: word, c :: s => if w = c then after? word s else none

theorem after?_eq_some_iff {word s rest : List Char} :
    after? word s = some rest ↔ s = word ++ rest := by
  induction word generalizing s with
  | nil => simp [after?]
  | cons w word ih =>
    cases s with
    | nil => simp [after?]
    | cons c s =>
      by_cases h : w = c
      · simp [after?, h, ih]
      · simp [after?, h, Ne.symm h]

def word? (s : List Char) : Option (List Char × List Char) :=
  match s.takeWhile isWordChar with
  | [] => none
  | w => some (w, s.dropWhile isWordChar)

theorem eq_append_of_word? {s w rest : List Char} (h : word? s = some (w, rest)) :
    s = w ++ rest := by
  unfold word? at h
  split at h
  · simp at h
  · simp only [Option.some.injEq, Prod.mk.injEq] at h
    rw [← h.1, ← h.2, List.takeWhile_append_dropWhile]

def opensWhite : List Char → Bool
  | [] => false
  | c :: _ => isWhite c

def opensWord : List Char → Bool
  | [] => false
  | c :: _ => isWordChar c

end SchemaQuery.Text
