import SchemaQuery.Json.Reader

/-!
# Decoding JSON

A decoder walks a tree in the order of the text and gives a value or the first fault that it meets.
Records are decoded from objects by name, and also from arrays by position; unknown names are passed
over, and a member that a record can do without may be missing. Containers may be nested 127 deep.
-/

set_option autoImplicit false

namespace SchemaQuery.Json

structure Scope where
  depth : Nat := 128
  /-- An empty object may stand for the absent contents of a choice. -/
  lax : Bool := false

def Scope.enter (scope : Scope) : Except Fault Scope :=
  if scope.depth ≤ 1 then .error .malformed else .ok { scope with depth := scope.depth - 1 }

abbrev Decoder (α : Type) := Scope → Tree → Except Fault α

mutual

def Tree.toJson : Tree → Scope → Except Fault Json
  | .null, _ => .ok .null
  | .bool b, _ => .ok (.bool b)
  | .number (some n), _ => .ok (.number n)
  | .text (some s), _ => .ok (.text s)
  | .array items, scope => do return .array (← items.toJson (← scope.enter))
  | .object members, scope => do return .object (← members.toJson [] (← scope.enter))
  | .number none, _ => .error .malformed
  | .text none, _ => .error .malformed
  | .broken b, _ => .error b.read

def TreeItems.toJson : TreeItems → Scope → Except Fault (List Json)
  | .close, _ => .ok []
  | .stop fault, _ => .error fault
  | .item value rest, scope => do
    let value ← value.toJson scope
    let rest ← rest.toJson scope
    return value :: rest

def TreeMembers.toJson : TreeMembers → Members → Scope → Except Fault Members
  | .close, done, _ => .ok done
  | .stop fault, _, _ => .error fault
  | .member none _ _, _, _ => .error .malformed
  | .member (some name) value rest, done, scope => do
    let value ← value.toJson scope
    rest.toJson (done.put name value) scope
  | .nameless read _, _, _ => .error read

end

namespace Decoder

def any : Decoder Json := fun scope tree => tree.toJson scope

def text : Decoder String
  | _, .text (some s) => .ok s
  | _, tree => .error tree.misfit

def flag : Decoder Bool
  | _, .bool b => .ok b
  | _, tree => .error tree.misfit

def whole (low high : Int) : Decoder Int
  | _, .number (some (.int n)) => if low ≤ n ∧ n < high then .ok n else .error .mismatched
  | _, tree => .error tree.misfit

def map {α β : Type} (f : α → β) (decode : Decoder α) : Decoder β :=
  fun scope tree => (decode scope tree).map f

def natural : Decoder UInt64 := (whole 0 unsignedLimit).map fun n => UInt64.ofNat n.toNat

def integer : Decoder Int64 := (whole (-signedLimit) signedLimit).map Int64.ofInt

/-- Null stands for nothing. What begins like null is taken for it before anything else is tried. -/
def optional {α : Type} (decode : Decoder α) : Decoder (Option α)
  | _, .null => .ok none
  | _, .broken (.null fault) => .error fault
  | scope, tree => (decode scope tree).map some

def items {α : Type} (decode : Decoder α) (inner : Scope) : TreeItems → Except Fault (List α)
  | .close => .ok []
  | .stop fault => .error fault
  | .item value rest => do
    let value ← decode inner value
    let rest ← items decode inner rest
    return value :: rest

def list {α : Type} (decode : Decoder α) : Decoder (List α)
  | scope, .array rest => do items decode (← scope.enter) rest
  | _, tree => .error tree.misfit

def putEntry {α : Type} : List (String × α) → String → α → List (String × α)
  | [], name, value => [(name, value)]
  | (n, v) :: rest, name, value =>
    if n = name then (n, value) :: rest else (n, v) :: putEntry rest name value

def entries {α : Type} (decode : Decoder α) (inner : Scope) :
    TreeMembers → List (String × α) → Except Fault (List (String × α))
  | .close, done => .ok done
  | .stop fault, _ => .error fault
  | .nameless read _, _ => .error read
  | .member none _ _, _ => .error .malformed
  | .member (some name) value rest, done => do
    let value ← decode inner value
    entries decode inner rest (putEntry done name value)

def dictionary {α : Type} (decode : Decoder α) : Decoder (List (String × α))
  | scope, .object members => do entries decode (← scope.enter) members []
  | _, tree => .error tree.misfit

def nothing : Decoder Unit
  | _, .null => .ok ()
  | scope, .object .close => if scope.lax then .ok () else .error .mismatched
  | _, tree => .error tree.misfit

def endChoice : TreeMembers → Except Fault Unit
  | .close => .ok ()
  | .stop fault => .error fault
  | .member _ _ _ | .nameless _ _ => .error .malformed

/-- One of some names, written as a text or as the only name in an object that holds null. -/
def choice {α : Type} (table : String → Option α) : Decoder α
  | _, .text (some s) => pick s
  | scope, .object members => do
    let inner ← scope.enter
    match members with
    | .member (some name) value rest => do
      let a ← pick name
      nothing inner value
      endChoice rest
      return a
    | .member none _ _ => .error .malformed
    | .nameless read _ => .error read
    | .stop fault => .error fault
    | .close => .error .malformed
  | _, .broken (.text read _) => .error read
  | _, .broken .absent => .error .truncated
  | _, _ => .error .malformed
where
  pick (s : String) : Except Fault α :=
    match table s with
    | some a => .ok a
    | none => .error .mismatched

end Decoder

structure Slot (σ : Type) where
  name : String
  required : Bool
  take : Decoder (σ → σ)

namespace Slot

variable {σ α : Type}

def needed (name : String) (decode : Decoder α) (set : α → σ → σ) : Slot σ :=
  ⟨name, true, decode.map set⟩

def spare (name : String) (decode : Decoder α) (set : α → σ → σ) : Slot σ :=
  ⟨name, false, decode.map set⟩

/-- The members of an object. A name that comes again is a fault before its value is looked at. -/
def fromMembers (slots : List (Slot σ)) (inner : Scope) :
    TreeMembers → (seen : List String) → σ → Except Fault σ
  | .close, seen, record =>
    if slots.all fun s => !s.required || seen.contains s.name then .ok record
    else .error .mismatched
  | .stop fault, _, _ => .error fault
  | .nameless read _, _, _ => .error read
  | .member none _ _, _, _ => .error .malformed
  | .member (some name) value rest, seen, record =>
    match slots.find? (·.name == name) with
    | none => do
      value.skip
      fromMembers slots inner rest seen record
    | some slot => do
      if seen.contains name then .error .mismatched
      else
        let set ← slot.take inner value
        fromMembers slots inner rest (name :: seen) (set record)

def fromItems (inner : Scope) : List (Slot σ) → TreeItems → σ → Except Fault σ
  | [], .close, record => .ok record
  | [], .item _ _, _ => .error .malformed
  | slots, .close, record =>
    if slots.all fun s => !s.required then .ok record else .error .mismatched
  | _, .stop fault, _ => .error fault
  | slot :: slots, .item value rest, record => do
    let set ← slot.take inner value
    fromItems inner slots rest (set record)

end Slot

def Decoder.record {σ : Type} (slots : List (Slot σ)) (blank : σ) : Decoder σ
  | scope, .object members => do Slot.fromMembers slots (← scope.enter) members [] blank
  | scope, .array items => do Slot.fromItems (← scope.enter) slots items blank
  | _, tree => .error tree.misfit

def decodeText {α : Type} (decode : Decoder α) (s : String) : Except Fault α := do
  let (tree, clean) := readTree s.toList
  let a ← decode {} tree
  if clean then .ok a else .error .malformed

end SchemaQuery.Json
