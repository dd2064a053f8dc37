import SchemaQuery.Attribute.Argument
import SchemaQuery.Attribute.Scanner
import SchemaQuery.Event.Logged
import SchemaQuery.Schema.Scalar

/-!
# Lines that declare a field

A field is declared by a name and a type on one line, with marks for lists and optional values and
attributes behind them. Attributes may come in any order, and those that mean nothing to a field are
passed over.
-/

set_option autoImplicit false

namespace SchemaQuery

open SchemaQuery.Unicode SchemaQuery.Text

namespace Relation

def listArgument (arguments : List Argument) (name : String) : List String :=
  match Argument.find? arguments name false with
  | some (.list words) => words
  | _ => []

def wordArgument? (arguments : List Argument) (name : String) : Option String :=
  match Argument.find? arguments name false with
  | some (.word action) => some action
  | _ => none

def nameArgument? (arguments : List Argument) : Option String :=
  match Argument.find? arguments "name" true with
  | some (.text name) => some name
  | _ => none

def ofArguments (arguments : List Argument) : Relation where
  name := nameArgument? arguments
  fields := listArgument arguments "fields"
  references := listArgument arguments "references"
  onDelete := wordArgument? arguments "onDelete"
  onUpdate := wordArgument? arguments "onUpdate"

def read (args : String) : Logged Relation :=
  match Argument.readAll args.toList with
  | .ok arguments => pure (ofArguments arguments)
  | .error e => do
    Logged.log (.unreadableRelation e)
    pure {}

end Relation

structure Declaration where
  name : String
  typeName : String
  isList : Bool
  isOptional : Bool
  attributes : Attributes

namespace Declaration

def takeMark (mark s : List Char) : Bool × List Char :=
  match after? mark s with
  | some rest => (true, rest)
  | none => (false, s)

def ofLine? (line : List Char) : Option Declaration := do
  let (name, rest) ← word? (trimLeft line)
  guard (opensWhite rest)
  let (typeName, rest) ← word? (trimLeft rest)
  let list := takeMark ['[', ']'] rest
  let optional := takeMark ['?'] (trimLeft list.2)
  return {
    name := String.ofList name
    typeName := String.ofList typeName
    isList := list.1
    isOptional := optional.1
    attributes := Attribute.scan optional.2 }

/-- The relation that is written down, or the bare one of a field whose type is no scalar and that
does not identify its record. -/
def relation (types : ScalarTypes) (d : Declaration) : Logged (Option Relation) :=
  match d.attributes.get? "@relation" with
  | some a => some <$> Relation.read (a.args.getD "")
  | none =>
    pure (if !d.attributes.has "@id" && !types.contains d.typeName then some {} else none)

def field (types : ScalarTypes) (d : Declaration) : Logged Field := do
  let relation ← d.relation types
  return {
    name := d.name
    typeName := d.typeName
    isRequired := !d.isOptional
    isList := d.isList
    isId := d.attributes.has "@id"
    isUnique := d.attributes.has "@unique"
    defaultText := d.attributes.args? "@default"
    relation := relation }

end Declaration

def Field.read (types : ScalarTypes) (line : List Char) : Logged (Option Field) :=
  match Declaration.ofLine? line with
  | some d => some <$> d.field types
  | none => pure none

end SchemaQuery
