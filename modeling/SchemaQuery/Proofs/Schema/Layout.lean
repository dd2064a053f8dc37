import SchemaQuery.Proofs.Attribute.Arguments
import SchemaQuery.Proofs.Keys
import SchemaQuery.Proofs.Schema.Reading
import SchemaQuery.Proofs.Text.Lines

/-!
# Writing a schema

A document is written as a data source followed by its models and enumerations. A layout settles
what the reader of a schema does not care about: the white space and the place of the table name,
and for each field on its own the order of its attributes and of the arguments of its relation, the
way in which quoted texts are spelled, and whether parts that go without saying are written all the
same.
-/

set_option autoImplicit false

namespace SchemaQuery

open SchemaQuery.Unicode SchemaQuery.Text

structure Style where
  spell : List Char → List Char
  arrangeAttributes : List Attribute → List Attribute
  arrangeArguments : List Argument → List Argument
  /-- The names of relations and tables are arguments with the name `name`. -/
  namesName : Bool
  writesEmptyLists : Bool
  writesEmptyArguments : Bool
  /-- A bare relation is written though the type of its field stands for it already. -/
  writesBareRelations : Bool
  spell_spells : ∀ s, Token.Spells s (spell s)
  spell_line : ∀ s, '\n' ∉ spell s
  attributes_perm : ∀ as, (arrangeAttributes as).Perm as
  arguments_perm : ∀ as, (arrangeArguments as).Perm as

structure Layout where
  margin : List Char
  indent : List Char
  ending : List Char
  style : Model → Option Field → Style
  tablePlace : Model → Nat
  margin_blank : isBlank margin = true
  indent_blank : isBlank indent = true
  indent_line : '\n' ∉ indent
  ending_blank : isBlank ending = true
  ending_line : '\n' ∉ ending

def Style.plain : Style where
  spell := Token.escape
  arrangeAttributes := id
  arrangeArguments := id
  namesName := false
  writesEmptyLists := false
  writesEmptyArguments := false
  writesBareRelations := false
  spell_spells := Token.spells_escape
  spell_line := Token.lineFeed_notMem_escape
  attributes_perm := List.Perm.refl
  arguments_perm := List.Perm.refl

def Layout.plain : Layout where
  margin := ['\n']
  indent := [' ', ' ']
  ending := []
  style _ _ := Style.plain
  tablePlace _ := 0
  margin_blank := by decide
  indent_blank := by decide
  indent_line := by decide
  ending_blank := rfl
  ending_line := by decide

def Field.impliesRelation (types : ScalarTypes) (f : Field) : Bool :=
  !f.isId && !types.contains f.typeName

namespace Style

variable (style : Style)

def nameKey : Option String := if style.namesName then some "name" else none

def nameArgument (name : String) : Argument := ⟨style.nameKey, .text name⟩

def listArgument (key : String) (words : List String) : Option Argument :=
  if words = [] ∧ style.writesEmptyLists = false then none else some ⟨some key, .list words⟩

def wordArgument (key : String) (word : Option String) : Option Argument :=
  word.map fun word => ⟨some key, .word word⟩

def relationSlots (r : Relation) : List (Option String × Option Argument) :=
  [(style.nameKey, r.name.map style.nameArgument),
    (some "fields", style.listArgument "fields" r.fields),
    (some "references", style.listArgument "references" r.references),
    (some "onDelete", wordArgument "onDelete" r.onDelete),
    (some "onUpdate", wordArgument "onUpdate" r.onUpdate)]

def relationArguments (r : Relation) : List Argument := present (style.relationSlots r)

def argumentText (as : List Argument) : String :=
  String.ofList (Argument.row style.spell (style.arrangeArguments as))

def idAttribute : Attribute := ⟨"id", none, false⟩

def uniqueAttribute : Attribute := ⟨"unique", none, false⟩

def defaultAttribute (text : String) : Attribute := ⟨"default", some text, false⟩

def relationAttribute (r : Relation) : Attribute where
  name := "relation"
  args :=
    if style.relationArguments r = [] ∧ style.writesEmptyArguments = false then none
    else some (style.argumentText (style.relationArguments r))
  block := false

def relationAttribute? (types : ScalarTypes) (f : Field) : Option Attribute :=
  if f.relation = some {} ∧ f.impliesRelation types = true ∧ style.writesBareRelations = false
  then none
  else f.relation.map style.relationAttribute

def fieldSlots (types : ScalarTypes) (f : Field) : List (String × Option Attribute) :=
  [("@id", if f.isId then some idAttribute else none),
    ("@unique", if f.isUnique then some uniqueAttribute else none),
    ("@default", f.defaultText.map defaultAttribute),
    ("@relation", style.relationAttribute? types f)]

def fieldAttributes (types : ScalarTypes) (f : Field) : List Attribute :=
  present (style.fieldSlots types f)

def fieldLine (types : ScalarTypes) (f : Field) : List Char :=
  f.name.toList ++ ' ' :: (f.displayType.toList ++
    Attribute.row (style.arrangeAttributes (style.fieldAttributes types f)))

def tableAttribute (name : String) : Attribute :=
  ⟨"map", some (style.argumentText [style.nameArgument name]), true⟩

end Style

namespace Layout

variable (layout : Layout)

def fieldLine (types : ScalarTypes) (m : Model) (f : Field) : List Char :=
  (layout.style m (some f)).fieldLine types f

def tableLine (m : Model) (name : String) : List Char :=
  ((layout.style m none).tableAttribute name).written

def modelLines (types : ScalarTypes) (m : Model) : List (List Char) :=
  (m.fields.take (layout.tablePlace m)).map (layout.fieldLine types m) ++
    (m.tableName.map (layout.tableLine m)).toList ++
    (m.fields.drop (layout.tablePlace m)).map (layout.fieldLine types m)

def line (s : List Char) : List Char := layout.indent ++ s ++ layout.ending

def bracedLines (header : List Char) (body : List (List Char)) : List (List Char) :=
  (header ++ layout.ending) :: body.map layout.line ++ [['}']]

def block (kind : BlockKind) (name : String) (body : List (List Char)) : List Char :=
  joinPieces '\n' (layout.bracedLines
    (kind.keyword.toList ++ ' ' :: (name.toList ++ [' ', '{'])) body)

def sourceHeader : List Char := "datasource db \x7b".toList

def providerLine (provider : String) : List Char :=
  providerKeyword ++ ' ' :: '=' :: ' ' :: '"' :: (provider.toList ++ ['"'])

def dataSource (provider : String) : List Char :=
  joinPieces '\n' (layout.bracedLines sourceHeader [providerLine provider])

end Layout

inductive Item where
  | model (m : Model)
  | enumeration (e : Enumeration)
  deriving DecidableEq, Repr

namespace Item

def model? : Item → Option Model
  | .model m => some m
  | .enumeration _ => none

def enumeration? : Item → Option Enumeration
  | .model _ => none
  | .enumeration e => some e

/-- The items are the models and enumerations of the document, each kind in its order. -/
def Interleave (items : List Item) (d : Document) : Prop :=
  items.filterMap model? = d.models ∧ items.filterMap enumeration? = d.enums

end Item

namespace Layout

variable (layout : Layout)

def item (types : ScalarTypes) : Item → List Char
  | .model m => layout.block .model m.name (layout.modelLines types m)
  | .enumeration e => layout.block .enumeration e.name (e.values.map String.toList)

def text (types : ScalarTypes) (provider : String) (items : List Item) : List Char :=
  layout.dataSource provider ++ '\n' ::
    items.flatMap fun i => layout.margin ++ layout.item types i ++ ['\n']

end Layout

def BraceFree (s : String) : Prop := '{' ∉ s.toList ∧ '}' ∉ s.toList

structure Relation.Regular (r : Relation) : Prop where
  name : ∀ name ∈ r.name, BraceFree name
  fields : ∀ word ∈ r.fields, Token.isName word.toList = true
  references : ∀ word ∈ r.references, Token.isName word.toList = true
  onDelete : ∀ word ∈ r.onDelete, Token.isName word.toList = true
  onUpdate : ∀ word ∈ r.onUpdate, Token.isName word.toList = true

structure Field.Regular (types : ScalarTypes) (f : Field) : Prop where
  name : isWord f.name.toList = true
  typeName : isWord f.typeName.toList = true
  scalar : f.relation = none → f.isId = true ∨ types.contains f.typeName = true
  defaultText : ∀ text ∈ f.defaultText, Inline text.toList ∧ Attribute.Balanced text.toList
  relation : ∀ r ∈ f.relation, r.Regular

structure Model.Regular (types : ScalarTypes) (m : Model) : Prop where
  name : isWord m.name.toList = true
  tableName : ∀ name ∈ m.tableName, BraceFree name
  fields : ∀ f ∈ m.fields, f.Regular types

structure Enumeration.Regular (e : Enumeration) : Prop where
  name : isWord e.name.toList = true
  values : ∀ value ∈ e.values, Solid value.toList ∧ Inline value.toList

structure Document.Regular (types : ScalarTypes) (d : Document) : Prop where
  models : ∀ m ∈ d.models, m.Regular types
  enums : ∀ e ∈ d.enums, e.Regular
  provider : d.provider ≠ ""
  provider_line : '"' ∉ d.provider.toList ∧ '\n' ∉ d.provider.toList

end SchemaQuery
