import SchemaQuery.Text.Trim
import SchemaQuery.Attribute.Basic

/-!
# Finding attributes in a line

The part of a declaration after its type is read from left to right. A quoted text hides what it
holds, a comment ends the line, an attribute takes its whole argument text with it, and any other
character is passed over.
-/

set_option autoImplicit false

namespace SchemaQuery.Attribute

open SchemaQuery.Unicode SchemaQuery.Text

def skipQuoted : List Char → List Char
  | [] => []
  | ['\\'] => []
  | '\\' :: _ :: s => skipQuoted s
  | c :: s => if c = '"' then s else skipQuoted s

/-- The text up to the parenthesis that closes a group, and what follows it. `depth` counts the
parentheses opened inside the group, and those between quotes do not count. An open group runs to
the end. -/
def splitGroup : (depth : Nat) → (quoted : Bool) → List Char → List Char × List Char
  | _, _, [] => ([], [])
  | depth, true, ['\\'] => keep '\\' (splitGroup depth true [])
  | depth, true, '\\' :: c :: s => keep '\\' (keep c (splitGroup depth true s))
  | depth, true, c :: s => keep c (splitGroup depth (c != '"') s)
  | depth, false, c :: s =>
    if c = '"' then keep c (splitGroup depth true s)
    else if c = '(' then keep c (splitGroup (depth + 1) false s)
    else if c = ')' then
      match depth with
      | 0 => ([], s)
      | depth + 1 => keep c (splitGroup depth false s)
    else keep c (splitGroup depth false s)
where
  keep (c : Char) (r : List Char × List Char) : List Char × List Char := (c :: r.1, r.2)

def isNameChar (c : Char) : Bool := isWordChar c || c == '.'

def argsAfterName (s : List Char) : Option String × List Char :=
  match s with
  | '(' :: s =>
    let group := splitGroup 0 false s
    (some (String.ofList group.1), group.2)
  | s => (none, s)

def afterMarks (block : Bool) (s : List Char) : Option Attribute × List Char :=
  match s.takeWhile isNameChar with
  | [] => (none, s)
  | name =>
    let args := argsAfterName (s.dropWhile isNameChar)
    (some ⟨String.ofList name, args.1, block⟩, args.2)

def step (c : Char) (s : List Char) : Option Attribute × List Char :=
  if c = '"' then (none, skipQuoted s)
  else if c = '@' then
    match s with
    | '@' :: s => afterMarks true s
    | s => afterMarks false s
  else if c = '/' ∧ s.head? = some '/' then (none, [])
  else (none, s)

theorem length_skipQuoted_le (s : List Char) : (skipQuoted s).length ≤ s.length := by
  fun_induction skipQuoted s <;> simp_all <;> omega

theorem length_splitGroup_le (depth : Nat) (quoted : Bool) (s : List Char) :
    (splitGroup depth quoted s).2.length ≤ s.length := by
  fun_induction splitGroup depth quoted s <;> simp_all [splitGroup.keep] <;> omega

theorem length_argsAfterName_le (s : List Char) : (argsAfterName s).2.length ≤ s.length := by
  unfold argsAfterName
  split
  · exact Nat.le_succ_of_le (length_splitGroup_le 0 false _)
  · exact Nat.le_refl _

theorem length_afterMarks_le (block : Bool) (s : List Char) :
    (afterMarks block s).2.length ≤ s.length := by
  unfold afterMarks
  split
  · exact Nat.le_refl _
  · exact Nat.le_trans (length_argsAfterName_le _) (length_dropWhile_le isNameChar s)

theorem length_step_le (c : Char) (s : List Char) : (step c s).2.length ≤ s.length := by
  unfold step
  split
  · exact length_skipQuoted_le s
  · split
    · split
      · exact Nat.le_trans (length_afterMarks_le _ _) (Nat.le_succ _)
      · exact length_afterMarks_le _ _
    · split
      · exact Nat.zero_le _
      · exact Nat.le_refl _

def occurrences : List Char → List Attribute
  | [] => []
  | c :: s => (step c s).1.toList ++ occurrences (step c s).2
termination_by s => s.length
decreasing_by exact Nat.lt_succ_of_le (length_step_le c s)

@[simp]
theorem occurrences_nil : occurrences [] = [] := by rw [occurrences]

theorem occurrences_cons (c : Char) (s : List Char) :
    occurrences (c :: s) = (step c s).1.toList ++ occurrences (step c s).2 := by rw [occurrences]

def scan (s : List Char) : Attributes := Attributes.ofList (occurrences s)

end SchemaQuery.Attribute
