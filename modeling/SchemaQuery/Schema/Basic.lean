import SchemaQuery.Unicode.Lowercase

/-!
# Schemas

A schema document lists data models and enumerations and names the provider of its data source. A
model is a list of typed fields. A field that refers to another model carries a relation, which may
say by which fields the two are tied together.
-/

set_option autoImplicit false

namespace SchemaQuery

structure Relation where
  name : Option String := none
  fields : List String := []
  references : List String := []
  onDelete : Option String := none
  onUpdate : Option String := none
  deriving DecidableEq, Repr, Inhabited

structure Field where
  name : String
  typeName : String
  isRequired : Bool := true
  isList : Bool := false
  isId : Bool := false
  isUnique : Bool := false
  defaultText : Option String := none
  relation : Option Relation := none
  deriving DecidableEq, Repr, Inhabited

def Field.displayType (f : Field) : String :=
  f.typeName ++ (if f.isList then "[]" else "") ++ (if f.isRequired then "" else "?")

structure Model where
  name : String
  tableName : Option String := none
  fields : List Field := []
  deriving DecidableEq, Repr, Inhabited

namespace Model

def field? (m : Model) (name : String) : Option Field := m.fields.find? (·.name == name)

def accessor (m : Model) : String :=
  match m.name.toList with
  | [] => ""
  | c :: rest => String.ofList (Unicode.toSmall c ++ rest)

end Model

structure Enumeration where
  name : String
  values : List String
  deriving DecidableEq, Repr, Inhabited

def defaultProvider : String := "postgresql"

structure Document where
  models : List Model := []
  enums : List Enumeration := []
  provider : String := defaultProvider
  deriving DecidableEq, Repr, Inhabited

def Document.model? (d : Document) (name : String) : Option Model :=
  d.models.find? (·.name == name)

end SchemaQuery
