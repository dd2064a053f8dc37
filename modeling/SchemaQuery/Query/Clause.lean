import SchemaQuery.Json.Print
import SchemaQuery.Query.Options
import SchemaQuery.Text.Indent

/-!
# Clauses of a query

Selection, inclusion, order, page and computations are entries `key: value` of one object literal.
Their values are JSON texts over several lines, indented to where they stand.
-/

set_option autoImplicit false

namespace SchemaQuery.Clause

open Text Json

def nested (depth : Nat) (value : Json) : String := nest depth value.pretty

/-- An object that maps each name to true. A name that is repeated counts once. -/
def chosen (names : List String) : Json :=
  .object (Members.ofList (names.map fun name => (name, .bool true)))

def select (names : List String) : String := "select: " ++ nested 1 (chosen names)

def order (keys : List SortKey) : Json :=
  .array (keys.map fun key => .object [(key.field, .text key.direction.name)])

def orderBy (sort : Option (List SortKey)) : List String :=
  match sort with
  | none | some [] => []
  | some keys => ["orderBy: " ++ nested 1 (order keys)]

def page (p : Page) : List String :=
  (p.skip.map fun n => "skip: " ++ (ofUInt64 n).compact).toList
  ++ (p.take.map fun n => "take: " ++ (ofInt64 n).compact).toList
  ++ (p.cursor.map fun c =>
      "cursor: \x7b " ++ c.field ++ ": " ++ c.value.compact ++ " \x7d").toList

def pageMembers (p : Page) : Members :=
  (p.skip.map fun n => ("skip", ofUInt64 n)).toList
  ++ (p.take.map fun n => ("take", ofInt64 n)).toList
  ++ (p.cursor.map fun c => ("cursor", Json.object [(c.field, c.value)])).toList

def inclusion (identity : String) (config : Option Inclusion) : Json :=
  let names := (config.bind (·.select)).getD [identity]
  let sort :=
    match config.bind (·.sort) with
    | none | some [] => []
    | some keys => [("orderBy", order keys)]
  let paging := ((config.bind (·.page)).map pageMembers).getD []
  .object ([("select", chosen names)] ++ sort ++ paging)

def includeRelations (identity : String) (options : Option RelationOptions)
    (relations : List Field) : List String :=
  if options.bind (·.maxDepth) = some 0 ∨ relations = [] then []
  else
    let entries := relations.map fun f =>
      (f.name, inclusion identity (options.bind (·.inclusion? f.name)))
    ["include: " ++ nested 1 (.object (Members.ofList entries))]

def computation (key : String) (names : List String) : String :=
  key ++ ": \x7b\n" ++ indent ++ indent ++ "select: " ++ nested 2 (chosen names) ++ "\n" ++ indent
    ++ "\x7d"

def count : Count → List String
  | .whole true => ["_count: true"]
  | .whole false => []
  | .fields names => [computation "_count" names]

def aggregate (a : Aggregation) : List String :=
  (a.count.map count).getD []
  ++ (a.sum.map (computation "_sum")).toList
  ++ (a.average.map (computation "_avg")).toList
  ++ (a.minimum.map (computation "_min")).toList
  ++ (a.maximum.map (computation "_max")).toList

def block (key line : String) : String :=
  key ++ ": \x7b\n" ++ indent ++ indent ++ line ++ "\n" ++ indent ++ "\x7d"

end SchemaQuery.Clause
