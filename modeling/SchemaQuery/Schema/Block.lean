import SchemaQuery.Text.Trim

/-!
# Blocks of a schema

A block is a keyword that opens its line, a header of words and white space, and a body in braces
that ends at the first closing brace. The blocks of one kind are taken from left to right; a keyword
that opens no block is passed over, and so is one inside a block that was taken.
-/

set_option autoImplicit false

namespace SchemaQuery

open SchemaQuery.Unicode SchemaQuery.Text

inductive BlockKind where
  | model
  | enumeration
  deriving DecidableEq, Repr

namespace BlockKind

def keyword : BlockKind → String
  | model => "model"
  | enumeration => "enum"

def isHeaderChar (c : Char) : Bool := isWordChar c || isWhite c

def block? (kind : BlockKind) (s : List Char) : Option (List Char × List Char) :=
  match after? kind.keyword.toList s with
  | none => none
  | some s =>
    if opensWord s then none
    else
      match s.dropWhile isHeaderChar with
      | '{' :: body =>
        match body.dropWhile (· != '}') with
        | close :: rest =>
          some (kind.keyword.toList ++ s.takeWhile isHeaderChar
            ++ '{' :: body.takeWhile (· != '}') ++ [close], rest)
        | [] => none
      | _ => none

/-- A block is a piece at the front of the text. -/
theorem eq_append_of_block? {kind : BlockKind} {s text rest : List Char}
    (h : kind.block? s = some (text, rest)) : s = text ++ rest := by
  unfold block? at h
  split at h
  · simp at h
  · rename_i tail ht
    rw [after?_eq_some_iff.1 ht]
    split at h
    · simp at h
    · split at h
      · rename_i body hb
        split at h
        · rename_i close after hc
          simp only [Option.some.injEq, Prod.mk.injEq] at h
          rw [← h.1, ← h.2]
          have hbody : body = body.takeWhile (· != '}') ++ close :: after := by
            rw [← hc, List.takeWhile_append_dropWhile]
          have htail : tail = tail.takeWhile isHeaderChar ++ '{' :: body := by
            rw [← hb, List.takeWhile_append_dropWhile]
          conv => lhs; rw [htail, hbody]
          simp
        · simp at h
      · simp at h

theorem length_block?_lt {kind : BlockKind} {s text rest : List Char}
    (h : kind.block? s = some (text, rest)) : rest.length < s.length := by
  have he := eq_append_of_block? h
  have ht : 0 < text.length := by
    unfold block? at h
    split at h
    · simp at h
    · split at h
      · simp at h
      · split at h
        · split at h
          · simp only [Option.some.injEq, Prod.mk.injEq] at h
            rw [← h.1]
            simp only [List.length_append, List.length_cons, List.length_nil]
            omega
          · simp at h
        · simp at h
  rw [he, List.length_append]
  omega

/-- The blocks of one kind; `opening` says that only white space stands before this point on its
line. -/
def blocksFrom (kind : BlockKind) (opening : Bool) (s : List Char) : List (List Char) :=
  match s with
  | [] => []
  | c :: s =>
    match _h : if opening then kind.block? (c :: s) else none with
    | some (text, rest) => text :: blocksFrom kind false rest
    | none => blocksFrom kind (c == '\n' || (opening && isWhite c)) s
termination_by s.length
decreasing_by
  · split at _h
    · exact length_block?_lt _h
    · simp at _h
  · simp

@[simp]
theorem blocksFrom_nil (kind : BlockKind) (opening : Bool) : kind.blocksFrom opening [] = [] := by
  rw [blocksFrom]

theorem blocksFrom_of_block? {kind : BlockKind} {s text rest : List Char}
    (h : kind.block? s = some (text, rest)) :
    kind.blocksFrom true s = text :: kind.blocksFrom false rest := by
  cases s with
  | nil => cases kind <;> simp [block?, keyword, after?] at h
  | cons c s =>
    rw [blocksFrom]
    split <;> simp_all

theorem blocksFrom_true_cons {kind : BlockKind} {c : Char} {s : List Char}
    (h : kind.block? (c :: s) = none) :
    kind.blocksFrom true (c :: s) = kind.blocksFrom (c == '\n' || isWhite c) s := by
  rw [blocksFrom]
  split <;> simp_all

theorem blocksFrom_false_cons (kind : BlockKind) (c : Char) (s : List Char) :
    kind.blocksFrom false (c :: s) = kind.blocksFrom (c == '\n') s := by
  rw [blocksFrom]
  split <;> simp_all

def blocks (kind : BlockKind) (s : List Char) : List (List Char) := kind.blocksFrom true s

end BlockKind

end SchemaQuery
