import SchemaQuery.Schema.Scalar

/-!
# Operations and operators

An operation is what a query does with the records of a model. An operator is how a filter compares
a field with a value; which operators fit depends on whether the type of the field is numeric.
-/

set_option autoImplicit false

namespace SchemaQuery

inductive Operation where
  | create
  | read
  | update
  | delete
  | aggregate
  deriving DecidableEq, Repr

namespace Operation

def all : List Operation := [create, read, update, delete, aggregate]

def name : Operation → String
  | create => "create"
  | read => "read"
  | update => "update"
  | delete => "delete"
  | aggregate => "aggregate"

def method : Operation → String
  | read => "findMany"
  | operation => operation.name

def ofName? (s : String) : Option Operation := all.find? (·.name == s)

theorem ofName?_name (operation : Operation) : ofName? operation.name = some operation := by
  cases operation <;> rfl

end Operation

inductive Operator where
  | equals
  | not
  | gt
  | gte
  | lt
  | lte
  | contains
  | startsWith
  | endsWith
  deriving DecidableEq, Repr

namespace Operator

def all : List Operator := [equals, not, gt, gte, lt, lte, contains, startsWith, endsWith]

def name : Operator → String
  | equals => "equals"
  | not => "not"
  | gt => "gt"
  | gte => "gte"
  | lt => "lt"
  | lte => "lte"
  | contains => "contains"
  | startsWith => "startsWith"
  | endsWith => "endsWith"

def ofName? (s : String) : Option Operator := all.find? (·.name == s)

theorem ofName?_name (operator : Operator) : ofName? operator.name = some operator := by
  cases operator <;> rfl

def offered (typeName : String) : List Operator :=
  if isNumeric typeName then [equals, not, gt, gte, lt, lte]
  else [equals, not, contains, startsWith, endsWith]

def appliesTo (operator : Operator) (typeName : String) : Bool :=
  (offered typeName).contains operator

end Operator

end SchemaQuery
