import SchemaQuery.Json.Tree
import SchemaQuery.Unicode.Classes

/-!
# Numbers in JSON text

A number is taken apart by its grammar first and valued afterwards. Digits are gathered while they
fit into 64 bits; the rest of them move the exponent. A whole number that fits keeps its value;
otherwise the gathered digits are made a double and scaled by one power of ten, which is at most two
roundings away from the number that was written.
-/

set_option autoImplicit false

namespace SchemaQuery.Json

open SchemaQuery.Unicode

structure NumberText where
  negative : Bool
  whole : List Char
  fraction : List Char
  exponent : Option (Bool × List Char)

namespace NumberText

def digits (s : List Char) : Except Fault (List Char × List Char) :=
  match s.takeWhile isDecimalDigit with
  | [] => .error (if s = [] then .truncated else .malformed)
  | ds => .ok (ds, s.dropWhile isDecimalDigit)

def wholePart (s : List Char) : Except Fault (List Char × List Char) :=
  match s with
  | '0' :: rest => if rest.head?.any isDecimalDigit then .error .malformed else .ok (['0'], rest)
  | s => digits s

def fractionPart (s : List Char) : Except Fault (List Char × List Char) :=
  match s with
  | '.' :: rest => digits rest
  | s => .ok ([], s)

def sign (s : List Char) : Bool × List Char :=
  match s with
  | '-' :: rest => (true, rest)
  | '+' :: rest => (false, rest)
  | s => (false, s)

def exponentPart (s : List Char) : Except Fault (Option (Bool × List Char) × List Char) :=
  match s with
  | c :: rest =>
    if c = 'e' ∨ c = 'E' then do
      let (ds, after) ← digits (sign rest).2
      return (some ((sign rest).1, ds), after)
    else .ok (none, s)
  | [] => .ok (none, s)

def read (s : List Char) : Except Fault (NumberText × List Char) := do
  let (negative, s) := match s with
    | '-' :: rest => (true, rest)
    | s => (false, s)
  let (whole, s) ← wholePart s
  let (fraction, s) ← fractionPart s
  let (exponent, s) ← exponentPart s
  return ({ negative, whole, fraction, exponent }, s)

/-- Appends digits to a number while it fits into 64 bits; gives back the digits left over. -/
def gather : Nat → List Char → Nat × List Char
  | n, [] => (n, [])
  | n, d :: ds =>
    let next := n * 10 + (d.toNat - '0'.toNat)
    if next < unsignedLimit then gather next ds else (n, d :: ds)

def powerOfTen (n : Nat) : Float := Float.ofScientific 1 false n

def scaleDown (x : Float) (n : Nat) : Float :=
  if n ≤ 308 then x / powerOfTen n
  else if x == 0 then x
  else scaleDown (x / powerOfTen 308) (n - 308)
termination_by n

def scale (significand : Nat) (exponent : Int) : Option Float :=
  let x := (UInt64.ofNat significand).toFloat
  if exponent < 0 then some (scaleDown x exponent.natAbs)
  else if exponent ≤ 308 then
    let y := x * powerOfTen exponent.toNat
    if y.isInf then none else some y
  else if x == 0 then some x
  else none

def signed (negative : Bool) (x : Float) : Number := .float (if negative then -x else x)

/-- A whole number whose digits have all been gathered. A negative one fits if it is not below
`-2 ^ 63`, and a negative zero is a double. -/
def wholeNumber (negative : Bool) (n : Nat) : Number :=
  if negative then
    if 0 < n ∧ n ≤ signedLimit then .int (-n) else signed true (UInt64.ofNat n).toFloat
  else .int n

def exponentValue (ds : List Char) : Nat :=
  ds.foldl (fun n d => n * 10 + (d.toNat - '0'.toNat)) 0

def exponentLimit : Nat := 2147483647

def value (t : NumberText) : Option Number :=
  let (whole, wholeRest) := gather 0 t.whole
  if t.fraction = [] ∧ t.exponent = none ∧ wholeRest = [] then
    some (wholeNumber t.negative whole)
  else
    let (significand, fractionRest) := gather whole t.fraction
    let used := t.fraction.length - fractionRest.length
    let point : Int := wholeRest.length - used
    match t.exponent with
    | none => (scale significand point).map (signed t.negative)
    | some (down, ds) =>
      let e := exponentValue ds
      if exponentLimit < e then
        if significand = 0 ∨ down then some (signed t.negative 0) else none
      else
        (scale significand (if down then point - e else point + e)).map (signed t.negative)

end NumberText

end SchemaQuery.Json
