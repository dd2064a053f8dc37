import SchemaQuery.Json.Value
import SchemaQuery.Query.Operation

/-!
# What a query asks for

A request names a model, an operation and the selected fields. Its options say which records are
meant, in what order and how many of them, what is included of related records, and what is computed
over all of them.
-/

set_option autoImplicit false

namespace SchemaQuery

structure Condition where
  field : String
  operator : Operator
  value : Json

/-- Which records are meant: all, those that meet every condition of a list, those that meet one of
a list, or those that meet a single condition. -/
inductive Filter where
  | everything
  | conjunction (conditions : List Condition)
  | disjunction (conditions : List Condition)
  | single (condition : Condition)

def Filter.conditions : Filter → List Condition
  | everything => []
  | conjunction conditions => conditions
  | disjunction conditions => conditions
  | single condition => [condition]

inductive Direction where
  | ascending
  | descending
  deriving DecidableEq, Repr

namespace Direction

def name : Direction → String
  | ascending => "asc"
  | descending => "desc"

def ofName? (s : String) : Option Direction := [ascending, descending].find? (·.name == s)

theorem ofName?_name (direction : Direction) : ofName? direction.name = some direction := by
  cases direction <;> rfl

end Direction

structure SortKey where
  field : String
  direction : Direction
  deriving DecidableEq, Repr

structure Cursor where
  field : String
  value : Json

structure Page where
  skip : Option UInt64 := none
  take : Option Int64 := none
  cursor : Option Cursor := none

structure Inclusion where
  select : Option (List String) := none
  sort : Option (List SortKey) := none
  page : Option Page := none

structure RelationOptions where
  /-- How many relations deep records are included; nothing is said if it is absent. -/
  maxDepth : Option UInt64 := none
  inclusions : List (String × Inclusion) := []

def RelationOptions.inclusion? (options : RelationOptions) (field : String) : Option Inclusion :=
  (options.inclusions.find? (·.1 == field)).map (·.2)

inductive Count where
  | whole (wanted : Bool)
  | fields (names : List String)
  deriving DecidableEq, Repr

structure Aggregation where
  count : Option Count := none
  sum : Option (List String) := none
  average : Option (List String) := none
  minimum : Option (List String) := none
  maximum : Option (List String) := none
  deriving DecidableEq, Repr

structure Options where
  filter : Filter := .everything
  sort : Option (List SortKey) := none
  page : Option Page := none
  relation : Option RelationOptions := none
  aggregation : Option Aggregation := none

structure Request where
  model : Model
  operation : Operation
  selected : List String := []
  options : Options := {}

end SchemaQuery
