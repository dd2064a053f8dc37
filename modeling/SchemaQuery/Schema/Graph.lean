import SchemaQuery.Schema.Json

/-!
# The graph of a schema

Models are the nodes of a graph, and a field whose type is the name of a model is an edge to that
model. An edge says how many records lie at its ends.
-/

set_option autoImplicit false

namespace SchemaQuery

inductive Multiplicity where
  | oneToOne
  | oneToMany
  | manyToOne
  deriving DecidableEq, Repr

def Multiplicity.name : Multiplicity → String
  | oneToOne => "oneToOne"
  | oneToMany => "oneToMany"
  | manyToOne => "manyToOne"

structure Row where
  name : String
  displayType : String
  isId : Bool
  isUnique : Bool
  isRelation : Bool
  deriving DecidableEq, Repr

structure Node where
  id : String
  tableName : Option String
  rows : List Row
  deriving DecidableEq, Repr

structure Edge where
  source : String
  target : String
  field : String
  kind : Multiplicity
  label : Option String
  deriving DecidableEq, Repr

structure Graph where
  nodes : List Node
  edges : List Edge
  deriving DecidableEq, Repr

def Field.row (f : Field) : Row where
  name := f.name
  displayType := f.displayType
  isId := f.isId
  isUnique := f.isUnique
  isRelation := f.relation.isSome

def Model.node (m : Model) : Node where
  id := m.name
  tableName := m.tableName
  rows := m.fields.map Field.row

def Field.refersToUnique (f : Field) (target : Model) : Bool :=
  match f.relation with
  | none => false
  | some r => r.references.any fun name => (target.field? name).any (·.isUnique)

def Field.multiplicity (f : Field) (target : Model) : Multiplicity :=
  if f.isList then .oneToMany
  else if f.isUnique || f.refersToUnique target then .oneToOne
  else .manyToOne

def Document.edge? (d : Document) (source : Model) (f : Field) : Option Edge :=
  (d.model? f.typeName).map fun target => {
    source := source.name
    target := target.name
    field := f.name
    kind := f.multiplicity target
    label := f.relation.bind (·.name) }

def Document.graph (d : Document) : Graph where
  nodes := d.models.map Model.node
  edges := d.models.flatMap fun m => m.fields.filterMap (d.edge? m)

def Graph.edgesFrom (g : Graph) (source : String) : List Edge :=
  g.edges.filter (·.source == source)

namespace Row

def toJson (r : Row) : Json := .object [
  ("name", .text r.name), ("type", .text r.displayType), ("isId", .bool r.isId),
  ("isUnique", .bool r.isUnique), ("isRelation", .bool r.isRelation)]

end Row

namespace Node

def toJson (n : Node) : Json := .object (
  [("id", .text n.id)]
  ++ Json.memberOf "dbName" .text n.tableName
  ++ [("fields", .array (n.rows.map Row.toJson))])

end Node

namespace Edge

def toJson (e : Edge) : Json := .object (
  [("from", .text e.source), ("to", .text e.target), ("field", .text e.field),
    ("kind", .text e.kind.name)]
  ++ Json.memberOf "label" .text e.label)

end Edge

def Graph.toJson (g : Graph) : Json := .object [
  ("nodes", .array (g.nodes.map Node.toJson)), ("edges", .array (g.edges.map Edge.toJson))]

end SchemaQuery
