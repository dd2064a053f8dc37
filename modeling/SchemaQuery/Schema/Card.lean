import SchemaQuery.Schema.Basic
import SchemaQuery.Text.Trim
import SchemaQuery.Unicode.Width

/-!
# Cards

A schema is shown on a terminal as a card for each model: a heading and a line for each field, with
names, types and badges in columns that are as wide as their widest entry and two blanks more. How
wide a text is, is measured by the columns that a terminal gives its characters.
-/

set_option autoImplicit false

namespace SchemaQuery.Card

def columnGap : Nat := 2

def badges (f : Field) : List String :=
  (if f.isId then ["ID"] else [])
  ++ (if f.isUnique then ["Unique"] else [])
  ++ (if f.relation.isSome then ["Relation"] else [])

def heading (m : Model) : String :=
  "model " ++ m.name ++ (match m.tableName with
    | some table => " → " ++ table
    | none => "")

section Columns

variable (measure : String → Nat)

def pad (width : Nat) (s : String) : String :=
  s ++ String.ofList (List.replicate (width - measure s + columnGap) ' ')

def widest (texts : List String) : Nat := (texts.map measure).foldl max 0

def row (nameWidth typeWidth : Nat) (f : Field) : String :=
  "  " ++ pad measure nameWidth f.name ++ pad measure typeWidth f.displayType
    ++ String.intercalate " " (badges f)

def line (nameWidth typeWidth : Nat) (f : Field) : String :=
  String.ofList (Text.trimRight (row measure nameWidth typeWidth f).toList)

def model (m : Model) : String :=
  let nameWidth := widest measure (m.fields.map (·.name))
  let typeWidth := widest measure (m.fields.map Field.displayType)
  heading m ++ "\n"
    ++ String.join (m.fields.map fun f => line measure nameWidth typeWidth f ++ "\n")

end Columns

def addModel (text : String) (m : Model) : String := text ++ model Unicode.width m

def enumeration (e : Enumeration) : String :=
  "enum " ++ e.name ++ "\n" ++ String.join (e.values.map fun value => "  " ++ value ++ "\n")

def document (d : Document) : String :=
  "datasource: " ++ d.provider ++ "\n"
  ++ String.join (d.models.map fun m => "\n" ++ model Unicode.width m)
  ++ String.join (d.enums.map fun e => "\n" ++ enumeration e)

end SchemaQuery.Card
