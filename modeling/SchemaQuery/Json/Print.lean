import SchemaQuery.Decimal.Shortest
import SchemaQuery.Json.Value

/-!
# JSON text

A value is written on one line without blanks, or over several lines indented by two spaces. Only
quotes, backslashes and control characters are escaped. A double is written with the fewest digits
that read back: with a point and at least one place after it while its leading digit stands between
the fifth place after the point and the sixteenth before it, and with an exponent otherwise.
-/

set_option autoImplicit false

namespace SchemaQuery.Json

def shortEscape? (c : Char) : Option Char :=
  match c with
  | '"' => some '"'
  | '\\' => some '\\'
  | '\x08' => some 'b'
  | '\t' => some 't'
  | '\n' => some 'n'
  | '\x0c' => some 'f'
  | '\r' => some 'r'
  | _ => none

def escapeChar (c : Char) : List Char :=
  match shortEscape? c with
  | some e => ['\\', e]
  | none =>
    if c.toNat < 0x20 then
      ['\\', 'u', '0', '0', Nat.digitChar (c.toNat / 16), Nat.digitChar (c.toNat % 16)]
    else [c]

def quoteText (s : String) : String :=
  "\"" ++ String.ofList (s.toList.flatMap escapeChar) ++ "\""

def zeros (n : Nat) : String := String.ofList (List.replicate n '0')

def positional (digits : String) (exponent : Int) : String :=
  let count := digits.length
  if 0 ≤ exponent then digits ++ zeros exponent.toNat ++ ".0"
  else
    let places := (-exponent).toNat
    if places < count then
      String.ofList (digits.toList.take (count - places)) ++ "."
        ++ String.ofList (digits.toList.drop (count - places))
    else "0." ++ zeros (places - count) ++ digits

def scientific (digits : String) (leading : Int) : String :=
  let rest := String.ofList (digits.toList.drop 1)
  String.ofList (digits.toList.take 1) ++ (if rest = "" then "" else "." ++ rest) ++ "e"
    ++ (if leading < 0 then "-" else "+") ++ toString leading.natAbs

def significant (d : Decimal) : String × Int :=
  let digits := Nat.toDigits 10 d.digits
  let kept := (digits.reverse.dropWhile (· == '0')).reverse
  (String.ofList kept, d.exponent + (digits.length - kept.length : Nat))

def decimalText (d : Decimal) : String :=
  if d.digits = 0 then "0.0"
  else
    let (digits, exponent) := significant d
    let leading := exponent + digits.length - 1
    if -5 ≤ leading ∧ leading ≤ 15 then positional digits exponent else scientific digits leading

def floatText (x : Float) : String :=
  if x.isFinite then (if x.toBits.toNat < signedLimit then "" else "-") ++ decimalText (.ofFloat x)
  else "null"

def numberText : Number → String
  | .int n => toString n
  | .float x => floatText x

mutual

def compact : Json → String
  | .null => "null"
  | .bool b => if b then "true" else "false"
  | .number n => numberText n
  | .text s => quoteText s
  | .array items => "[" ++ compactItems items ++ "]"
  | .object members => "\x7b" ++ compactMembers members ++ "\x7d"

def compactItems : List Json → String
  | [] => ""
  | [item] => compact item
  | item :: items => compact item ++ "," ++ compactItems items

def compactMembers : List (String × Json) → String
  | [] => ""
  | [(name, value)] => quoteText name ++ ":" ++ compact value
  | (name, value) :: members =>
    quoteText name ++ ":" ++ compact value ++ "," ++ compactMembers members

end

def lineAt (depth : Nat) : String := "\n" ++ String.ofList (List.replicate (2 * depth) ' ')

mutual

def prettyAt (depth : Nat) : Json → String
  | .array [] => "[]"
  | .array items => "[" ++ prettyItems (depth + 1) items ++ lineAt depth ++ "]"
  | .object [] => "\x7b\x7d"
  | .object members => "\x7b" ++ prettyMembers (depth + 1) members ++ lineAt depth ++ "\x7d"
  | .null => "null"
  | .bool b => if b then "true" else "false"
  | .number n => numberText n
  | .text s => quoteText s

def prettyItems (depth : Nat) : List Json → String
  | [] => ""
  | [item] => lineAt depth ++ prettyAt depth item
  | item :: items => lineAt depth ++ prettyAt depth item ++ "," ++ prettyItems depth items

def prettyMembers (depth : Nat) : List (String × Json) → String
  | [] => ""
  | [(name, value)] => lineAt depth ++ quoteText name ++ ": " ++ prettyAt depth value
  | (name, value) :: members =>
    lineAt depth ++ quoteText name ++ ": " ++ prettyAt depth value ++ ","
      ++ prettyMembers depth members

end

def pretty (value : Json) : String := prettyAt 0 value

end SchemaQuery.Json
