/-!
# Tokens

The notation inside the parentheses of an attribute, such as
`fields: [authorId], references: [id]`, is made of words, quoted texts, numbers and eight marks.
-/

set_option autoImplicit false

namespace SchemaQuery

inductive Token where
  | word (name : String)
  | text (value : String)
  | number (digits : String)
  | leftParen
  | rightParen
  | leftBracket
  | rightBracket
  | comma
  | colon
  | equals
  | dot
  deriving DecidableEq, Repr

inductive TokenError where
  | unexpected (c : Char)
  | unterminated
  deriving DecidableEq, Repr

def TokenError.message : TokenError → String
  | .unexpected c => "Unexpected character: " ++ String.singleton c
  | .unterminated => "Unterminated string"

namespace Token

def mark? (c : Char) : Option Token :=
  match c with
  | '(' => some leftParen
  | ')' => some rightParen
  | '[' => some leftBracket
  | ']' => some rightBracket
  | ',' => some comma
  | ':' => some colon
  | '=' => some equals
  | '.' => some dot
  | _ => none

end Token

end SchemaQuery
