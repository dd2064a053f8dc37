import SchemaQuery.Json.Tree

/-!
# Quoted texts in JSON

Behind its opening quote a text is cut into characters and 16-bit code units written in hexadecimal.
Passing over a text needs no more than that. Decoding it also puts surrogate pairs together and
refuses half of one.
-/

set_option autoImplicit false

namespace SchemaQuery.Json

inductive Unit16 where
  | char (c : Char)
  | unit (n : Nat)
  deriving DecidableEq, Repr

def hexDigit? (c : Char) : Option Nat :=
  if '0' ≤ c ∧ c ≤ '9' then some (c.toNat - '0'.toNat)
  else if 'a' ≤ c ∧ c ≤ 'f' then some (c.toNat - 'a'.toNat + 10)
  else if 'A' ≤ c ∧ c ≤ 'F' then some (c.toNat - 'A'.toNat + 10)
  else none

def hexUnit? (a b c d : Char) : Option Nat := do
  return ((← hexDigit? a) * 16 + (← hexDigit? b)) * 256 + ((← hexDigit? c) * 16 + (← hexDigit? d))

def escaped? (c : Char) : Option Char :=
  match c with
  | '"' => some '"'
  | '\\' => some '\\'
  | '/' => some '/'
  | 'b' => some '\x08'
  | 'f' => some '\x0c'
  | 'n' => some '\n'
  | 'r' => some '\r'
  | 't' => some '\t'
  | _ => none

def byteCount (s : List Char) : Nat := (String.ofList s).utf8ByteSize

/-- The pieces up to the closing quote or the first fault, and what follows the quote. Of an escape
by number four bytes must be there before its digits are looked at. -/
def scanText : List Char → List Unit16 × Except Fault (List Char)
  | [] => ([], .error .truncated)
  | ['\\'] => ([], .error .truncated)
  | '\\' :: 'u' :: a :: b :: c :: d :: s =>
    match hexUnit? a b c d with
    | some n => keep (.unit n) (scanText s)
    | none => ([], .error .malformed)
  | '\\' :: 'u' :: s => ([], .error (if byteCount s < 4 then .truncated else .malformed))
  | '\\' :: c :: s =>
    match escaped? c with
    | some e => keep (.char e) (scanText s)
    | none => ([], .error .malformed)
  | c :: s =>
    if c = '"' then ([], .ok s)
    else if c.toNat < 0x20 then ([], .error .malformed)
    else keep (.char c) (scanText s)
where
  keep (piece : Unit16) (r : List Unit16 × Except Fault (List Char)) :
      List Unit16 × Except Fault (List Char) := (piece :: r.1, r.2)

def isLead (n : Nat) : Bool := 0xD800 ≤ n && n ≤ 0xDBFF

def isTrail (n : Nat) : Bool := 0xDC00 ≤ n && n ≤ 0xDFFF

def joinPair (lead trail : Nat) : Char :=
  Char.ofNat (0x10000 + (lead - 0xD800) * 0x400 + (trail - 0xDC00))

def joinUnits (stop : Option Fault) : List Unit16 → Except Fault (List Char)
  | [] =>
    match stop with
    | some fault => .error fault
    | none => .ok []
  | .char c :: rest => (joinUnits stop rest).map (c :: ·)
  | .unit n :: rest =>
    if isTrail n then .error .malformed
    else if isLead n then
      match rest with
      | .unit m :: rest =>
        if isTrail m then (joinUnits stop rest).map (joinPair n m :: ·) else .error .malformed
      | .char _ :: _ => .error .malformed
      | [] => .error (stop.getD .malformed)
    else (joinUnits stop rest).map (Char.ofNat n :: ·)

inductive QuotedText where
  | whole (value : Option String) (rest : List Char)
  | broken (read skipped : Fault)

def readText (s : List Char) : QuotedText :=
  match scanText s with
  | (pieces, .ok rest) => .whole ((joinUnits none pieces).toOption.map String.ofList) rest
  | (pieces, .error fault) =>
    match joinUnits (some fault) pieces with
    | .error read => .broken read fault
    | .ok _ => .broken fault fault

end SchemaQuery.Json
