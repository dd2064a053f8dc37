import SchemaQuery.Query.Clause
import SchemaQuery.Query.Where

/-!
# Writing a query

A request becomes one call of a client: the receiver, the model, a method and an object literal with
the clauses of the operation. Selected fields that lead to other records are included and all others
are selected.
-/

set_option autoImplicit false

namespace SchemaQuery

open Text

structure Selection where
  regular : List String
  relations : List Field

structure Generator where
  types : ScalarTypes := .standard
  client : String := "prisma"
  identity : String := "id"

namespace Generator

def relationField? (g : Generator) (m : Model) (name : String) : Option Field :=
  (m.field? name).filter g.types.isRelation

def addOnce (fields : List Field) (f : Field) : List Field :=
  if fields.any (·.name == f.name) then fields else fields ++ [f]

def selection (g : Generator) (m : Model) (selected : List String) : Selection where
  regular := selected.filter fun name => (g.relationField? m name).isNone
  relations := (selected.filterMap (g.relationField? m)).foldl addOnce []

def createPlaceholder : String := "// TODO: specify the data to create"

def updatePlaceholder : String := "// TODO: specify the data to update"

def updateTarget : String := "id: 1 // TODO: specify the id of the record to update"

def deleteTarget : String := "id: 1 // TODO: specify the id of the record to delete"

def whereClause (g : Generator) (r : Request) : Logged String := do
  let body ← r.options.filter.render g.types r.model 2
  return "where: \x7b\n" ++ body ++ "\n" ++ indent ++ "\x7d"

def clauses (g : Generator) (r : Request) (s : Selection) : Logged (List String) :=
  let fetched := [Clause.select s.regular]
    ++ Clause.includeRelations g.identity r.options.relation s.relations
  match r.operation with
  | .aggregate => do
    let filter ← g.whereClause r
    return filter :: (r.options.aggregation.map Clause.aggregate).getD []
  | .create => pure (Clause.block "data" createPlaceholder :: fetched)
  | .read => do
    let filter ← g.whereClause r
    return filter :: fetched ++ Clause.orderBy r.options.sort
      ++ (r.options.page.map Clause.page).getD []
  | .update =>
    pure (Clause.block "where" updateTarget :: Clause.block "data" updatePlaceholder :: fetched)
  | .delete => pure (Clause.block "where" deleteTarget :: fetched)

def binding : Operation → String
  | .read => "results"
  | _ => "result"

def generate (g : Generator) (r : Request) : Logged String := do
  let s := g.selection r.model r.selected
  Logged.log
    (.writingQuery r.model.name r.operation.name s.regular.length s.relations.length)
  let clauses ← g.clauses r s
  return "const " ++ binding r.operation ++ " = await " ++ g.client ++ "." ++ r.model.accessor
    ++ "." ++ r.operation.method ++ "(\x7b\n" ++ indent
    ++ String.intercalate (",\n" ++ indent) clauses ++ "\n\x7d);"

end Generator

end SchemaQuery
