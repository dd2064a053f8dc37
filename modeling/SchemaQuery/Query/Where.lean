import SchemaQuery.Event.Logged
import SchemaQuery.Json.Print
import SchemaQuery.Query.Options
import SchemaQuery.Text.Indent

/-!
# Filters in a query

A filter is written as the body of a `where` block. A condition stands on one line. A field that
leads to other records is filtered through `some`, whatever their number. An operator that does not
fit the type of its field is reported and written all the same.
-/

set_option autoImplicit false

namespace SchemaQuery

open Text

def noCondition : String := "// TODO: specify filter conditions"

namespace Condition

def comparison (c : Condition) : String :=
  "\x7b " ++ c.operator.name ++ ": " ++ c.value.compact ++ " \x7d"

def direct (c : Condition) : String :=
  c.field ++ ": " ++ (if c.operator = .equals then c.value.compact else c.comparison)

def through (c : Condition) : String := c.field ++ ": \x7b some: " ++ c.comparison ++ " \x7d"

def check (c : Condition) (m : Model) (f : Field) : Logged Unit :=
  if c.operator.appliesTo f.typeName then pure ()
  else Logged.log (.inapplicableOperator m.name c.field c.operator.name f.typeName)

def render (types : ScalarTypes) (m : Model) (c : Condition) : Logged String :=
  match m.field? c.field with
  | none => pure c.direct
  | some f =>
    if types.isRelation f then pure c.through
    else do
      c.check m f
      return c.direct

end Condition

namespace Filter

def renderGroup (types : ScalarTypes) (m : Model) (depth : Nat) (key : String)
    (conditions : List Condition) : Logged String := do
  let pad := indentation depth
  let items ← conditions.mapM (·.render types m)
  let lines := items.map fun item => pad ++ indent ++ "\x7b " ++ item ++ " \x7d"
  return match lines with
    | [] => pad ++ key ++ ": []"
    | lines => pad ++ key ++ ": [\n" ++ String.intercalate ",\n" lines ++ "\n" ++ pad ++ "]"

def render (types : ScalarTypes) (m : Model) (depth : Nat) : Filter → Logged String
  | everything => pure (indentation depth ++ noCondition)
  | conjunction conditions => renderGroup types m depth "AND" conditions
  | disjunction conditions => renderGroup types m depth "OR" conditions
  | single condition => (indentation depth ++ ·) <$> condition.render types m

end Filter

end SchemaQuery
