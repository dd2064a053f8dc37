import SchemaQuery.Json.Decoder
import SchemaQuery.Json.Print
import SchemaQuery.Schema.Basic

/-!
# Schemas as JSON

The JSON form of a document and its parts. Members that hold nothing are left out when they are
written and may be missing when they are read.
-/

set_option autoImplicit false

namespace SchemaQuery

open Json (Decoder Slot)

def Json.memberOf {α : Type} (name : String) (encode : α → Json) : Option α → Json.Members
  | none => []
  | some a => [(name, encode a)]

namespace Relation

def toJson (r : Relation) : Json := .object (
  Json.memberOf "name" .text r.name
  ++ [("fields", .ofStrings r.fields), ("references", .ofStrings r.references)]
  ++ Json.memberOf "onDelete" .text r.onDelete
  ++ Json.memberOf "onUpdate" .text r.onUpdate)

def decoder : Decoder Relation := .record [
  .spare "name" (.optional .text) fun v r => { r with name := v },
  .spare "fields" (.list .text) fun v r => { r with fields := v },
  .spare "references" (.list .text) fun v r => { r with references := v },
  .spare "onDelete" (.optional .text) fun v r => { r with onDelete := v },
  .spare "onUpdate" (.optional .text) fun v r => { r with onUpdate := v }] {}

end Relation

namespace Field

def toJson (f : Field) : Json := .object (
  [("name", .text f.name), ("type", .text f.typeName), ("isRequired", .bool f.isRequired),
    ("isList", .bool f.isList), ("isId", .bool f.isId), ("isUnique", .bool f.isUnique)]
  ++ Json.memberOf "default" .text f.defaultText
  ++ Json.memberOf "relation" Relation.toJson f.relation)

def decoder : Decoder Field := .record [
  .needed "name" .text fun v f => { f with name := v },
  .needed "type" .text fun v f => { f with typeName := v },
  .needed "isRequired" .flag fun v f => { f with isRequired := v },
  .spare "isList" .flag fun v f => { f with isList := v },
  .spare "isId" .flag fun v f => { f with isId := v },
  .spare "isUnique" .flag fun v f => { f with isUnique := v },
  .spare "default" (.optional .text) fun v f => { f with defaultText := v },
  .spare "relation" (.optional Relation.decoder) fun v f => { f with relation := v }]
  { name := "", typeName := "" }

end Field

namespace Model

def toJson (m : Model) : Json := .object (
  [("name", .text m.name)]
  ++ Json.memberOf "dbName" .text m.tableName
  ++ [("fields", .array (m.fields.map Field.toJson))])

def decoder : Decoder Model := .record [
  .needed "name" .text fun v m => { m with name := v },
  .spare "dbName" (.optional .text) fun v m => { m with tableName := v },
  .spare "fields" (.list Field.decoder) fun v m => { m with fields := v }]
  { name := "" }

end Model

namespace Enumeration

def toJson (e : Enumeration) : Json :=
  .object [("name", .text e.name), ("values", .ofStrings e.values)]

def decoder : Decoder Enumeration := .record [
  .needed "name" .text fun v e => { e with name := v },
  .needed "values" (.list .text) fun v e => { e with values := v }]
  { name := "", values := [] }

end Enumeration

namespace Document

def toJson (d : Document) : Json := .object [
  ("models", .array (d.models.map Model.toJson)),
  ("enums", .array (d.enums.map Enumeration.toJson)),
  ("datasource", .object [("provider", .text d.provider)])]

def sourceDecoder : Decoder String := .record [.needed "provider" .text fun v _ => v] ""

def decoder : Decoder Document := .record [
  .needed "models" (.list Model.decoder) fun v d => { d with models := v },
  .needed "enums" (.list Enumeration.decoder) fun v d => { d with enums := v },
  .needed "datasource" sourceDecoder fun v d => { d with provider := v }] {}

end Document

end SchemaQuery
