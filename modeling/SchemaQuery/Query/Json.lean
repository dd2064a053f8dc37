import SchemaQuery.Query.Options
import SchemaQuery.Schema.Json

/-!
# Requests as JSON

The JSON form of a request and its parts. Options stand beside the members of the request. A filter
is an open object that may hold several kinds of conditions at once: a conjunction takes precedence
over a disjunction, and a disjunction over a single condition.
-/

set_option autoImplicit false

namespace SchemaQuery

open Json (Decoder Slot Fault)

def Json.Slot.within {σ τ : Type} (update : (σ → σ) → τ → τ) (slot : Slot σ) : Slot τ :=
  ⟨slot.name, slot.required, slot.take.map update⟩

namespace Operator

def toJson (operator : Operator) : Json := .text operator.name

def decoder : Decoder Operator := .choice ofName?

end Operator

namespace Condition

def toJson (c : Condition) : Json := .object [
  ("field", .text c.field), ("operator", c.operator.toJson), ("value", c.value)]

def decoder : Decoder Condition := .record [
  .needed "field" .text fun v c => { c with field := v },
  .needed "operator" Operator.decoder fun v c => { c with operator := v },
  .needed "value" .any fun v c => { c with value := v }]
  { field := "", operator := .equals, value := .null }

end Condition

structure OpenFilter where
  conjunction : Option (List Condition) := none
  disjunction : Option (List Condition) := none
  field : Option String := none
  operator : Option Operator := none
  value : Option Json := none

namespace OpenFilter

def decoder : Decoder OpenFilter := .record [
  .spare "AND" (.optional (.list Condition.decoder)) fun v f => { f with conjunction := v },
  .spare "OR" (.optional (.list Condition.decoder)) fun v f => { f with disjunction := v },
  .spare "field" (.optional .text) fun v f => { f with field := v },
  .spare "operator" (.optional Operator.decoder) fun v f => { f with operator := v },
  .spare "value" (.optional .any) fun v f => { f with value := v }] {}

/-- The kind of condition that counts. A single one needs a field and an operator; its value is null
if it is absent. -/
def resolve (f : OpenFilter) : Filter :=
  match f.conjunction, f.disjunction, f.field, f.operator with
  | some conditions, _, _, _ => .conjunction conditions
  | none, some conditions, _, _ => .disjunction conditions
  | none, none, some field, some operator => .single ⟨field, operator, f.value.getD .null⟩
  | none, none, _, _ => .everything

end OpenFilter

namespace Filter

def toJson : Filter → Json
  | everything => .object []
  | conjunction conditions => .object [("AND", .array (conditions.map Condition.toJson))]
  | disjunction conditions => .object [("OR", .array (conditions.map Condition.toJson))]
  | single condition => condition.toJson

def decoder : Decoder Filter := OpenFilter.decoder.map OpenFilter.resolve

end Filter

namespace SortKey

def toJson (key : SortKey) : Json := .object [
  ("field", .text key.field), ("order", .text key.direction.name)]

def decoder : Decoder SortKey := .record [
  .needed "field" .text fun v k => { k with field := v },
  .needed "order" (.choice Direction.ofName?) fun v k => { k with direction := v }]
  { field := "", direction := .ascending }

end SortKey

def sortToJson (keys : List SortKey) : Json := .array (keys.map SortKey.toJson)

namespace Cursor

def toJson (c : Cursor) : Json := .object [("field", .text c.field), ("value", c.value)]

def decoder : Decoder Cursor := .record [
  .needed "field" .text fun v c => { c with field := v },
  .needed "value" .any fun v c => { c with value := v }]
  { field := "", value := .null }

end Cursor

namespace Page

def toJson (p : Page) : Json := .object (
  Json.memberOf "skip" .ofUInt64 p.skip
  ++ Json.memberOf "take" .ofInt64 p.take
  ++ Json.memberOf "cursor" Cursor.toJson p.cursor)

def decoder : Decoder Page := .record [
  .spare "skip" (.optional .natural) fun v p => { p with skip := v },
  .spare "take" (.optional .integer) fun v p => { p with take := v },
  .spare "cursor" (.optional Cursor.decoder) fun v p => { p with cursor := v }] {}

end Page

namespace Inclusion

def toJson (i : Inclusion) : Json := .object (
  Json.memberOf "select" .ofStrings i.select
  ++ Json.memberOf "sort" sortToJson i.sort
  ++ Json.memberOf "pagination" Page.toJson i.page)

def decoder : Decoder Inclusion := .record [
  .spare "select" (.optional (.list .text)) fun v i => { i with select := v },
  .spare "sort" (.optional (.list SortKey.decoder)) fun v i => { i with sort := v },
  .spare "pagination" (.optional Page.decoder) fun v i => { i with page := v }] {}

end Inclusion

namespace RelationOptions

def toJson (o : RelationOptions) : Json := .object (
  Json.memberOf "maxDepth" .ofUInt64 o.maxDepth
  ++ [("include", .object (o.inclusions.map fun entry => (entry.1, entry.2.toJson)))])

def decoder : Decoder RelationOptions := .record [
  .spare "maxDepth" (.optional .natural) fun v o => { o with maxDepth := v },
  .spare "include" (.dictionary Inclusion.decoder) fun v o => { o with inclusions := v }] {}

end RelationOptions

def fieldsToJson (names : List String) : Json := .object [("select", .ofStrings names)]

def fieldsDecoder : Decoder (List String) :=
  .record [.needed "select" (.list .text) fun v _ => v] []

namespace Count

def toJson : Count → Json
  | whole wanted => .bool wanted
  | fields names => fieldsToJson names

def decoder : Decoder Count := fun scope tree => do
  let _ ← tree.toJson scope
  match tree with
  | .bool wanted => return whole wanted
  | tree =>
    match fieldsDecoder scope tree with
    | .ok names => return fields names
    | .error _ => .error .mismatched

end Count

namespace Aggregation

def toJson (a : Aggregation) : Json := .object (
  Json.memberOf "_count" Count.toJson a.count
  ++ Json.memberOf "_sum" fieldsToJson a.sum
  ++ Json.memberOf "_avg" fieldsToJson a.average
  ++ Json.memberOf "_min" fieldsToJson a.minimum
  ++ Json.memberOf "_max" fieldsToJson a.maximum)

def decoder : Decoder Aggregation := .record [
  .spare "_count" (.optional Count.decoder) fun v a => { a with count := v },
  .spare "_sum" (.optional fieldsDecoder) fun v a => { a with sum := v },
  .spare "_avg" (.optional fieldsDecoder) fun v a => { a with average := v },
  .spare "_min" (.optional fieldsDecoder) fun v a => { a with minimum := v },
  .spare "_max" (.optional fieldsDecoder) fun v a => { a with maximum := v }] {}

end Aggregation

namespace Options

def members (o : Options) : Json.Members :=
  [("conditions", o.filter.toJson)]
  ++ Json.memberOf "sort" sortToJson o.sort
  ++ Json.memberOf "pagination" Page.toJson o.page
  ++ Json.memberOf "relation" RelationOptions.toJson o.relation
  ++ Json.memberOf "aggregate" Aggregation.toJson o.aggregation

def toJson (o : Options) : Json := .object o.members

def slots : List (Slot Options) := [
  .spare "conditions" Filter.decoder fun v o => { o with filter := v },
  .spare "sort" (.optional (.list SortKey.decoder)) fun v o => { o with sort := v },
  .spare "pagination" (.optional Page.decoder) fun v o => { o with page := v },
  .spare "relation" (.optional RelationOptions.decoder) fun v o => { o with relation := v },
  .spare "aggregate" (.optional Aggregation.decoder) fun v o => { o with aggregation := v }]

def decoder : Decoder Options := .record slots {}

end Options

namespace Operation

def decoder : Decoder Operation := fun scope tree => do
  match ofName? (← Decoder.text scope tree) with
  | some operation => return operation
  | none => .error .mismatched

end Operation

inductive RequestError where
  | unsupported (operation : String)
  | undecodable (fault : Fault)
  deriving DecidableEq, Repr

namespace Request

def toJson (r : Request) : Json := .object (
  [("model", r.model.toJson), ("operation", .text r.operation.name),
    ("selectedFields", .ofStrings r.selected)]
  ++ r.options.members)

def slots : List (Slot Request) := [
  .needed "model" Model.decoder fun v r => { r with model := v },
  .needed "operation" Operation.decoder fun v r => { r with operation := v },
  .spare "selectedFields" (.list .text) fun v r => { r with selected := v }]
  ++ Options.slots.map (.within fun update r => { r with options := update r.options })

def ofJson? (value : Json) : Option Request :=
  match value with
  | .object _ =>
    (Decoder.record slots { model := { name := "" }, operation := .read } { lax := true }
      value.toTree).toOption
  | _ => none

def operationName? : Json → Option String
  | .object members =>
    match Json.Members.get? members "operation" with
    | some (.text name) => some name
    | _ => none
  | _ => none

/-- The text is first read as any value, then an operation that does not exist is reported, and last
comes the shape. -/
def ofText (s : String) : Except RequestError Request := do
  let value ← (Json.decodeText .any s).mapError .undecodable
  match operationName? value with
  | some name => if (Operation.ofName? name).isNone then .error (.unsupported name)
  | none => pure ()
  match ofJson? value with
  | some request => return request
  | none => .error (.undecodable .mismatched)

end Request

def Operation.unsupportedMessage (name : String) : String := "Unsupported operation: " ++ name

end SchemaQuery
