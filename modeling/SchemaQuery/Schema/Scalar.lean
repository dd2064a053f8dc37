import SchemaQuery.Schema.Basic

/-!
# Scalar types

A set of type names counts as scalar; every other type name refers to a model. The set is a choice
of the reader: an enumeration, for instance, may be added to it.
-/

set_option autoImplicit false

namespace SchemaQuery

structure ScalarTypes where
  names : List String
  deriving DecidableEq, Repr

namespace ScalarTypes

def standard : ScalarTypes :=
  ⟨["String", "Int", "Float", "Boolean", "DateTime", "BigInt", "Decimal", "Json"]⟩

def contains (types : ScalarTypes) (typeName : String) : Bool := types.names.contains typeName

def insert (types : ScalarTypes) (typeName : String) : ScalarTypes :=
  if types.contains typeName then types else ⟨types.names ++ [typeName]⟩

@[simp]
theorem contains_insert (types : ScalarTypes) (name typeName : String) :
    (types.insert name).contains typeName = (types.contains typeName || typeName == name) := by
  unfold insert
  split
  · rename_i h
    cases hn : typeName == name with
    | false => simp
    | true =>
      rw [eq_of_beq hn]
      simp [h]
  · by_cases hn : typeName = name <;> simp [contains, hn]

/-- A field leads to another record if it carries a relation or its type is no scalar. -/
def isRelation (types : ScalarTypes) (f : Field) : Bool :=
  f.relation.isSome || !types.contains f.typeName

end ScalarTypes

def isNumeric (typeName : String) : Bool := ["Int", "Float", "BigInt", "Decimal"].contains typeName

end SchemaQuery
