import SchemaQuery.Query.Generator
import SchemaQuery.Query.Json
import SchemaQuery.Schema.Code
import SchemaQuery.Schema.Graph
import SchemaQuery.Schema.Reader

/-!
# Exported functions

Functions from text to text for callers that keep no documents: what they are given and what they
give is the text of a schema, of JSON, or of a program.
-/

set_option autoImplicit false

namespace SchemaQuery

inductive ExportError where
  | badSchema (error : SchemaError)
  | unknownModel (name : String)
  | badRequest (error : RequestError)
  deriving DecidableEq, Repr

abbrev Export := ExceptT ExportError Logged

namespace Export

variable {α : Type}

def result (x : Export α) : Except ExportError α := x.run.value

def document (schema : String) : Export Document := ExceptT.mk do
  return (← (Document.read .standard schema.toList).run).mapError .badSchema

def parseSchema (schema : String) : Export String := do
  return (← document schema).toJson.compact

def schemaGraph (schema : String) : Export String := do
  return (← document schema).graph.toJson.compact

def generateQuery (request : String) : Export String := ExceptT.mk do
  match Request.ofText request with
  | .ok r => return .ok (← ({} : Generator).generate r)
  | .error e => return .error (.badRequest e)

def generateCrudModule (schema model : String) : Export String := do
  match (← document schema).model? model with
  | some m => return Code.crudModule m "prisma"
  | none => throw (.unknownModel model)

end Export

end SchemaQuery
