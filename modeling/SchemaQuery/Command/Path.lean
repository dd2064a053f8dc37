import SchemaQuery.Text.Lines

/-!
# Paths

A path is a sequence of names between slashes, and it is absolute if a slash comes first. The name
of a single dot stands for the place where it is met. Which directory a path lies in is a matter of
its text: dots at its end are passed over, but a dot in front of all other names is a name like any
other.
-/

set_option autoImplicit false

namespace SchemaQuery.Path

def names (path : String) : List String :=
  ((Text.pieces '/' path.toList).filter (· != [])).map String.ofList

def isAbsolute (path : String) : Bool := path.toList.head? == some '/'

def endsInSlash (path : String) : Bool := path.toList.getLast? == some '/'

def join (directory file : String) : String :=
  if directory = "" ∨ endsInSlash directory then directory ++ file else directory ++ "/" ++ file

def dropDots : List String → List String
  | [] => []
  | name :: rest => name :: (rest.reverse.dropWhile (· == ".")).reverse

def parent (ns : List String) : List String := dropDots (dropDots ns).dropLast

theorem length_dropDots_le (ns : List String) : (dropDots ns).length ≤ ns.length := by
  cases ns with
  | nil => exact Nat.le_refl _
  | cons name rest =>
    have h := (List.dropWhile_suffix (l := rest.reverse) (· == ".")).length_le
    simpa [dropDots] using h

theorem length_parent_lt {ns : List String} (h : ns ≠ []) : (parent ns).length < ns.length := by
  have hd := length_dropDots_le ns
  have hp := length_dropDots_le (dropDots ns).dropLast
  have hn : 0 < ns.length := List.length_pos_iff.2 h
  rw [List.length_dropLast] at hp
  unfold parent
  omega

def parents (ns : List String) : List (List String) :=
  if _h : ns = [] then []
  else if parent ns = [] then []
  else parent ns :: parents (parent ns)
termination_by ns.length
decreasing_by exact length_parent_lt _h

def lineage (path : String) : List String :=
  path :: (parents (names path)).map fun ns =>
    (if isAbsolute path then "/" else "") ++ String.intercalate "/" ns

end SchemaQuery.Path
