/-!
# Pieces and lines

A text is cut at every occurrence of a separator; there is always one piece more than there are
separators. Lines are the pieces between line feeds, except that a carriage return right before a
line feed belongs to the line's end, and that no empty line follows a line feed at the end.
-/

set_option autoImplicit false

namespace SchemaQuery.Text

def pieces (separator : Char) : List Char → List (List Char)
  | [] => [[]]
  | c :: s =>
    if c = separator then [] :: pieces separator s
    else
      match pieces separator s with
      | [] => [[c]]
      | piece :: rest => (c :: piece) :: rest

def joinPieces (separator : Char) : List (List Char) → List Char
  | [] => []
  | [piece] => piece
  | piece :: rest => piece ++ separator :: joinPieces separator rest

theorem pieces_ne_nil (separator : Char) (s : List Char) : pieces separator s ≠ [] := by
  induction s with
  | nil => simp [pieces]
  | cons c s ih =>
    rw [pieces]
    split
    · simp
    · split <;> simp

theorem joinPieces_pieces (separator : Char) (s : List Char) :
    joinPieces separator (pieces separator s) = s := by
  induction s with
  | nil => rfl
  | cons c s ih =>
    rw [pieces]
    cases hp : pieces separator s with
    | nil => exact absurd hp (pieces_ne_nil separator s)
    | cons piece rest =>
      rw [hp] at ih
      by_cases hc : c = separator
      · rw [if_pos hc, joinPieces, List.nil_append, ih, hc]
        simp
      · simp only [if_neg hc]
        cases rest with
        | nil => simpa [joinPieces] using ih
        | cons next rest => simpa [joinPieces] using ih

def dropReturn : List Char → List Char
  | [] => []
  | ['\r'] => []
  | c :: s => c :: dropReturn s

def endLines : List (List Char) → List (List Char)
  | [] => []
  | [last] => if last = [] then [] else [last]
  | piece :: rest => dropReturn piece :: endLines rest

def lines (s : List Char) : List (List Char) := endLines (pieces '\n' s)

end SchemaQuery.Text
