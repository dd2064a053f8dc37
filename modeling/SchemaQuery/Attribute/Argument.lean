import SchemaQuery.Token.Reader

/-!
# Arguments of an attribute

An argument text is a sequence of values between commas, each with or without a name before it.
Texts, words, numbers and bracketed lists of words are kept; calls and all other values are passed
over. A word may be dotted. Whatever stands between a value and the next comma is ignored.
-/

set_option autoImplicit false

namespace SchemaQuery

inductive ArgumentValue where
  | text (readValue : String)
  | word (name : String)
  | number (digits : String)
  | list (words : List String)
  | other
  deriving DecidableEq, Repr

structure Argument where
  name : Option String
  value : ArgumentValue
  deriving DecidableEq, Repr

namespace Argument

open Token

def opens : Token → Bool
  | .leftParen | .leftBracket => true
  | _ => false

def closes : Token → Bool
  | .rightParen | .rightBracket => true
  | _ => false

/-- What follows the bracketed group that the tokens open with. Parentheses and brackets count
alike, and an open group runs to the end. -/
def skipGroup : (depth : Nat) → List Token → List Token
  | _, [] => []
  | depth, token :: rest =>
    if opens token then skipGroup (depth + 1) rest
    else if closes token then
      if depth ≤ 1 then rest else skipGroup (depth - 1) rest
    else skipGroup depth rest

def listWords : (depth : Nat) → List Token → List String × List Token
  | _, [] => ([], [])
  | 0, .rightBracket :: rest => ([], rest)
  | 0, .word name :: rest => keep name (listWords 0 rest)
  | depth, token :: rest =>
    if opens token then listWords (depth + 1) rest
    else if closes token then listWords (depth - 1) rest
    else listWords depth rest
where
  keep (name : String) (r : List String × List Token) : List String × List Token :=
    (name :: r.1, r.2)

def dotted (name : String) : List Token → String × List Token
  | .dot :: .word part :: rest => dotted (name ++ "." ++ part) rest
  | .dot :: _ :: rest => dotted name rest
  | .dot :: [] => (name, [])
  | rest => (name, rest)

def readValue : List Token → ArgumentValue × List Token
  | [] => (.other, [])
  | .text s :: rest => (.text s, rest)
  | .number s :: rest => (.number s, rest)
  | .word name :: rest =>
    match dotted name rest with
    | (_, .leftParen :: rest) => (.other, skipGroup 1 rest)
    | (name, rest) => (.word name, rest)
  | .leftBracket :: rest =>
    let r := listWords 0 rest
    (.list r.1, r.2)
  | .leftParen :: rest => (.other, skipGroup 1 rest)
  | _ :: rest => (.other, rest)

def skipToComma : List Token → List Token
  | [] => []
  | .comma :: rest => .comma :: rest
  | _ :: rest => skipToComma rest

def next : List Token → Argument × List Token
  | .word name :: .colon :: rest =>
    let r := readValue rest
    (⟨some name, r.1⟩, skipToComma r.2)
  | tokens =>
    let r := readValue tokens
    (⟨none, r.1⟩, skipToComma r.2)

/-- What a reader leaves stands at the end of what it was given. -/
theorem skipGroup_suffix (depth : Nat) (tokens : List Token) :
    skipGroup depth tokens <:+ tokens := by
  fun_induction skipGroup depth tokens with
  | case1 => exact List.suffix_rfl
  | case3 => exact List.suffix_cons _ _
  | case2 _ _ _ _ ih | case4 _ _ _ _ _ _ ih | case5 _ _ _ _ _ ih =>
    exact ih.trans (List.suffix_cons _ _)

theorem listWords_suffix (depth : Nat) (tokens : List Token) :
    (listWords depth tokens).2 <:+ tokens := by
  fun_induction listWords depth tokens with
  | case1 => exact List.suffix_rfl
  | case2 => exact List.suffix_cons _ _
  | case3 _ _ ih => exact ih.trans (List.suffix_cons _ _)
  | case4 _ _ _ _ _ _ ih | case5 _ _ _ _ _ _ _ ih | case6 _ _ _ _ _ _ _ ih =>
    exact ih.trans (List.suffix_cons _ _)

theorem dotted_suffix (name : String) (tokens : List Token) :
    (dotted name tokens).2 <:+ tokens := by
  fun_induction dotted name tokens with
  | case1 _ _ _ ih | case2 _ _ _ _ ih =>
    exact ih.trans ((List.suffix_cons _ _).trans (List.suffix_cons _ _))
  | case3 => exact List.suffix_cons _ _
  | case4 => exact List.suffix_rfl

theorem skipToComma_suffix (tokens : List Token) : skipToComma tokens <:+ tokens := by
  fun_induction skipToComma tokens with
  | case1 | case2 => exact List.suffix_rfl
  | case3 _ _ _ ih => exact ih.trans (List.suffix_cons _ _)

/-- A value uses at least one token. -/
theorem readValue_cons_suffix (token : Token) (tokens : List Token) :
    (readValue (token :: tokens)).2 <:+ tokens := by
  cases token with
  | word name =>
    have hd := dotted_suffix name tokens
    rw [readValue]
    split
    · rename_i rest h
      rw [h] at hd
      exact ((skipGroup_suffix 1 rest).trans (List.suffix_cons _ _)).trans hd
    · rename_i h
      rw [h] at hd
      exact hd
  | leftParen => exact skipGroup_suffix 1 tokens
  | leftBracket => exact listWords_suffix 0 tokens
  | _ => exact List.suffix_rfl

theorem readValue_suffix (tokens : List Token) : (readValue tokens).2 <:+ tokens := by
  cases tokens with
  | nil => exact List.suffix_rfl
  | cons token tokens => exact (readValue_cons_suffix token tokens).trans (List.suffix_cons _ _)

/-- An argument uses at least one token. -/
theorem next_cons_suffix (token : Token) (tokens : List Token) :
    (next (token :: tokens)).2 <:+ tokens := by
  unfold next
  split
  · rename_i name rest h
    rw [(List.cons.inj h).2]
    have hvalue := (skipToComma_suffix _).trans (readValue_suffix rest)
    exact hvalue.trans (List.suffix_cons _ _)
  · exact (skipToComma_suffix _).trans (readValue_cons_suffix token tokens)

def ofTokens : List Token → List Argument
  | [] => []
  | .comma :: rest => ofTokens rest
  | token :: rest => (next (token :: rest)).1 :: ofTokens (next (token :: rest)).2
termination_by tokens => tokens.length
decreasing_by
  · simp
  · exact Nat.lt_succ_of_le (next_cons_suffix token rest).length_le

@[simp]
theorem ofTokens_nil : ofTokens [] = [] := by rw [ofTokens]

@[simp]
theorem ofTokens_comma_cons (tokens : List Token) :
    ofTokens (.comma :: tokens) = ofTokens tokens := by rw [ofTokens]

theorem ofTokens_cons {token : Token} (h : token ≠ .comma) (tokens : List Token) :
    ofTokens (token :: tokens) =
      (next (token :: tokens)).1 :: ofTokens (next (token :: tokens)).2 := by
  rw [ofTokens]
  exact h

def readAll (s : List Char) : Except TokenError (List Argument) := (Token.readAll s).map ofTokens

def find? (arguments : List Argument) (name : String) (positional : Bool) : Option ArgumentValue :=
  match arguments.find? (·.name == some name) with
  | some a => some a.value
  | none => if positional then (arguments.find? (·.name == none)).map (·.value) else none

end Argument

end SchemaQuery
