/-!
# The shortest decimal of a binary fraction

A binary floating-point number stands for all reals that round to it. Among the decimals of that
interval the one with the fewest digits is chosen, of several such the nearest to the number, and of
two equally near the one whose last digit is even. The search runs over grids of 1, 2, … 17 digits
and tests the two neighbours of the number on each, in exact integer arithmetic.
-/

set_option autoImplicit false

namespace SchemaQuery

structure Decimal where
  digits : Nat
  exponent : Int
  deriving DecidableEq, Repr

namespace Decimal

/-- A positive rational together with the interval of reals that round to it, all over one
denominator. -/
structure Target where
  low : Nat
  value : Nat
  high : Nat
  denominator : Nat
  closed : Bool

/-- The interval of `mantissa * 2 ^ exponent`. `narrow` says that the next number below lies at half
the usual distance. -/
def Target.ofBinary (mantissa : Nat) (exponent : Int) (narrow : Bool) : Target :=
  let scale := Nat.pow 2 (exponent - 2).toNat
  { low := (4 * mantissa - (if narrow then 1 else 2)) * scale
    value := 4 * mantissa * scale
    high := (4 * mantissa + 2) * scale
    denominator := Nat.pow 2 (2 - exponent).toNat
    closed := mantissa % 2 == 0 }

def width (n : Nat) : Nat := (Nat.toDigits 10 n).length

def leading (t : Target) : Int :=
  if t.denominator ≤ t.value then (width (t.value / t.denominator) : Int) - 1
  else -(width ((t.denominator - 1) / t.value) : Int)

def accepts (t : Target) (d : Decimal) : Bool :=
  let n := d.digits * Nat.pow 10 d.exponent.toNat * t.denominator
  let up := Nat.pow 10 (-d.exponent).toNat
  if t.closed then t.low * up ≤ n && n ≤ t.high * up else t.low * up < n && n < t.high * up

def below (t : Target) (exponent : Int) : Nat :=
  t.value * Nat.pow 10 (-exponent).toNat / (t.denominator * Nat.pow 10 exponent.toNat)

def prefersBelow (t : Target) (n : Nat) (exponent : Int) : Bool :=
  let twice := 2 * (t.value * Nat.pow 10 (-exponent).toNat)
  let middle := (2 * n + 1) * (t.denominator * Nat.pow 10 exponent.toNat)
  twice < middle || (twice == middle && n % 2 == 0)

def onGrid? (t : Target) (exponent : Int) : Option Decimal :=
  let n := below t exponent
  let down : Decimal := ⟨n, exponent⟩
  let up : Decimal := ⟨n + 1, exponent⟩
  match accepts t down, accepts t up with
  | true, true => some (if prefersBelow t n exponent then down else up)
  | true, false => some down
  | false, true => some up
  | false, false => none

def search (t : Target) : (grids : Nat) → (count : Nat) → Decimal
  | 0, count => ⟨below t (leading t - count + 1), leading t - count + 1⟩
  | grids + 1, count =>
    match onGrid? t (leading t - count + 1) with
    | some d => d
    | none => search t grids (count + 1)

def shortest (mantissa : Nat) (exponent : Int) (narrow : Bool) : Decimal :=
  search (.ofBinary mantissa exponent narrow) 17 1

def ofFloat (x : Float) : Decimal :=
  let bits := x.toBits.toNat % Nat.pow 2 63
  let fraction := bits % Nat.pow 2 52
  let field : Nat := bits / Nat.pow 2 52
  if bits = 0 then ⟨0, 0⟩
  else if field = 0 then shortest fraction (-1074) false
  else shortest (Nat.pow 2 52 + fraction) ((field : Int) - 1075) (fraction == 0 && field != 1)

end Decimal

end SchemaQuery
