/-!
# Attributes

An attribute is written `@name` or `@@name`, with an argument text in parentheses if it takes any.
The attributes of one declaration are kept in the order in which they stand; of two that are written
alike the first counts.
-/

set_option autoImplicit false

namespace SchemaQuery

structure Attribute where
  name : String
  args : Option String
  /-- Written with two marks: it belongs to the block and not to one field. -/
  block : Bool
  deriving DecidableEq, Repr

def Attribute.marker (a : Attribute) : String := (if a.block then "@@" else "@") ++ a.name

structure Attributes where
  items : List Attribute
  distinct : (items.map Attribute.marker).Nodup

namespace Attributes

def empty : Attributes := ⟨[], by simp⟩

def size (as : Attributes) : Nat := as.items.length

def get? (as : Attributes) (marker : String) : Option Attribute :=
  as.items.find? (·.marker == marker)

def has (as : Attributes) (marker : String) : Bool := (as.get? marker).isSome

def args? (as : Attributes) (marker : String) : Option String := (as.get? marker).bind (·.args)

def insert (as : Attributes) (a : Attribute) : Attributes :=
  if h : a.marker ∈ as.items.map Attribute.marker then as
  else ⟨as.items ++ [a], by
    rw [List.map_append, List.nodup_append]
    refine ⟨as.distinct, by simp, ?_⟩
    intro x hx y hy hxy
    simp only [List.map_cons, List.map_nil, List.mem_singleton] at hy
    exact h (hy ▸ hxy ▸ hx)⟩

def ofList (list : List Attribute) : Attributes := list.foldl insert empty

end Attributes

end SchemaQuery
