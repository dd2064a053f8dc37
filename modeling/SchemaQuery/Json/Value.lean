/-!
# JSON values

An object keeps its members in the order in which they were put in, and a name that is put in again
keeps its place and takes the new value. Whole numbers that fit into 64 bits are kept as they are;
all other numbers are doubles.
-/

set_option autoImplicit false

namespace SchemaQuery

def unsignedLimit : Nat := 18446744073709551616

def signedLimit : Nat := 9223372036854775808

inductive Number where
  | int (n : Int)
  | float (x : Float)
  deriving Repr

inductive Json where
  | null
  | bool (b : Bool)
  | number (n : Number)
  | text (s : String)
  | array (items : List Json)
  | object (members : List (String × Json))
  deriving Inhabited

namespace Json

abbrev Members := List (String × Json)

def Members.put : Members → String → Json → Members
  | [], name, value => [(name, value)]
  | (n, v) :: rest, name, value =>
    if n = name then (n, value) :: rest else (n, v) :: Members.put rest name value

def Members.ofList (pairs : List (String × Json)) : Members :=
  pairs.foldl (fun members pair => members.put pair.1 pair.2) []

def Members.get? (members : Members) (name : String) : Option Json :=
  (members.find? (·.1 == name)).map (·.2)

def ofStrings (strings : List String) : Json := .array (strings.map .text)

def ofInt (n : Int) : Json := .number (.int n)

def ofUInt64 (n : UInt64) : Json := ofInt n.toNat

def ofInt64 (n : Int64) : Json := ofInt n.toInt

end Json

end SchemaQuery
