import SchemaQuery.Proofs.Query.ShownJson
import SchemaQuery.Query.Generator

/-!
# What a query means

The literal that the method of a query is to be given, member by member, without regard to how it is
written.
-/

set_option autoImplicit false

namespace SchemaQuery

open Literal (ofJson)

def Literal.memberOf {α : Type} (name : String) (encode : α → Literal) (value : Option α) :
    List (String × Literal) :=
  (value.map fun a => (name, encode a)).toList

def chosenMeaning (names : List String) : Literal :=
  .object (names.eraseDups.map fun name => (name, .bool true))

def fieldsMeaning (names : List String) : Literal := .object [("select", chosenMeaning names)]

def ScalarTypes.leadsOn (types : ScalarTypes) (m : Model) (name : String) : Bool :=
  (m.field? name).any types.isRelation

/-- The comparison that a condition makes is taken through `some` where its field leads to other
records, and equality is left unsaid elsewhere. -/
def Condition.meaning (types : ScalarTypes) (m : Model) (c : Condition) : String × Literal :=
  let comparison := Literal.object [(c.operator.name, ofJson c.value)]
  (c.field,
    if types.leadsOn m c.field then .object [("some", comparison)]
    else if c.operator = .equals then ofJson c.value
    else comparison)

def Filter.meaning (types : ScalarTypes) (m : Model) : Filter → List (String × Literal)
  | everything => []
  | conjunction conditions =>
    [("AND", .array (conditions.map fun c => .object [c.meaning types m]))]
  | disjunction conditions =>
    [("OR", .array (conditions.map fun c => .object [c.meaning types m]))]
  | single condition => [condition.meaning types m]

def sortMeaning : Option (List SortKey) → List (String × Literal)
  | none | some [] => []
  | some keys =>
    [("orderBy", .array (keys.map fun key => .object [(key.field, .text key.direction.name)]))]

def Cursor.meaning (c : Cursor) : Literal := .object [(c.field, ofJson c.value)]

def Page.meaning (p : Page) : List (String × Literal) :=
  Literal.memberOf "skip" (fun n => .number (toString n.toNat)) p.skip
  ++ Literal.memberOf "take" (fun n => .number (toString n.toInt)) p.take
  ++ Literal.memberOf "cursor" Cursor.meaning p.cursor

def pageMeaning (page : Option Page) : List (String × Literal) := (page.map Page.meaning).getD []

def inclusionMeaning (identity : String) (config : Option Inclusion) : Literal :=
  .object (("select", chosenMeaning ((config.bind (·.select)).getD [identity]))
    :: sortMeaning (config.bind (·.sort)) ++ pageMeaning (config.bind (·.page)))

def Count.meaning : Count → List (String × Literal)
  | whole true => [("_count", .bool true)]
  | whole false => []
  | fields names => [("_count", fieldsMeaning names)]

def Aggregation.meaning (a : Aggregation) : List (String × Literal) :=
  (a.count.map Count.meaning).getD []
  ++ Literal.memberOf "_sum" fieldsMeaning a.sum
  ++ Literal.memberOf "_avg" fieldsMeaning a.average
  ++ Literal.memberOf "_min" fieldsMeaning a.minimum
  ++ Literal.memberOf "_max" fieldsMeaning a.maximum

namespace Generator

variable (g : Generator) (r : Request)

def includeMeaning : List (String × Literal) :=
  let names := (r.selected.filter (g.types.leadsOn r.model)).eraseDups
  if names = [] ∨ r.options.relation.bind (·.maxDepth) = some 0 then []
  else [("include", .object (names.map fun name =>
    (name, inclusionMeaning g.identity (r.options.relation.bind (·.inclusion? name)))))]

def fetchedMeaning : List (String × Literal) :=
  ("select", chosenMeaning (r.selected.filter fun name => !g.types.leadsOn r.model name))
    :: g.includeMeaning r

def whereMeaning : String × Literal :=
  ("where", .object (r.options.filter.meaning g.types r.model))

def targetMeaning : String × Literal := ("where", .object [("id", .number "1")])

def meaning : List (String × Literal) :=
  match r.operation with
  | .aggregate => g.whereMeaning r :: (r.options.aggregation.map Aggregation.meaning).getD []
  | .create => ("data", .object []) :: g.fetchedMeaning r
  | .read =>
    g.whereMeaning r :: g.fetchedMeaning r ++ sortMeaning r.options.sort
      ++ pageMeaning r.options.page
  | .update => targetMeaning :: ("data", .object []) :: g.fetchedMeaning r
  | .delete => targetMeaning :: g.fetchedMeaning r

end Generator

end SchemaQuery
