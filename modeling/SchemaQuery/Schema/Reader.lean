import SchemaQuery.Schema.FieldLine
import SchemaQuery.Schema.Reading
import SchemaQuery.Text.Lines

/-!
# Reading a schema

The blocks of a schema are read line by line. Inside a model a line is a field, a table name or
something to skip; inside an enumeration every line is a value. Only a header that does not name its
block on its first line is an error, and models are read before enumerations.
-/

set_option autoImplicit false

namespace SchemaQuery

open SchemaQuery.Unicode SchemaQuery.Text

def BlockKind.headerName? (kind : BlockKind) (header : List Char) : Option String := do
  let rest ← after? kind.keyword.toList (trimLeft header)
  guard (opensWhite rest)
  let (name, rest) ← word? (trimLeft rest)
  guard ((trimLeft rest).head? == some '{')
  return String.ofList name

def interior (lines : List (List Char)) : List (List Char) := (lines.drop 1).dropLast

def BlockKind.open (kind : BlockKind) (block : List Char) :
    Except SchemaError (String × List (List Char)) :=
  let header := (lines block).headD []
  match kind.headerName? header with
  | some name => .ok (name, ((interior (lines block)).map trim).filter (· != []))
  | none => .error (.malformed kind (String.ofList (trim header)))

namespace Model

def tableName? (line : List Char) : Option String := do
  let args ← (Attribute.scan line).args? "@@map"
  match Argument.readAll args.toList with
  | .ok arguments => Relation.nameArgument? arguments
  | .error _ => none

/-- Takes in one line. A line with two marks in front concerns the whole model, and of these only
the first table name counts. -/
def addLine (types : ScalarTypes) (m : Model) (line : List Char) : Logged Model :=
  match line with
  | '@' :: '@' :: _ => pure { m with tableName := m.tableName <|> tableName? line }
  | _ => do
    match ← Field.read types line with
    | some f => pure { m with fields := m.fields ++ [f] }
    | none =>
      Logged.log (.skippedLine m.name (String.ofList line))
      pure m

def read (types : ScalarTypes) (block : List Char) : Reading Model := do
  let (name, lines) ← Reading.ofExcept (BlockKind.model.open block)
  Reading.ofLogged (lines.foldlM (addLine types) { name })

end Model

def Enumeration.read (block : List Char) : Except SchemaError Enumeration := do
  let (name, lines) ← BlockKind.enumeration.open block
  return { name, values := lines.map String.ofList }

def providerHere? (s : List Char) : Option String := do
  let s ← after? "provider".toList s
  let s ← after? ['='] (trimLeft s)
  let s ← after? ['"'] (trimLeft s)
  let value := s.takeWhile (· != '"')
  guard (value != [] && s.contains '"')
  return String.ofList value

def provider? : List Char → Option String
  | [] => none
  | c :: s => providerHere? (c :: s) <|> provider? s

def Document.read (types : ScalarTypes) (s : List Char) : Reading Document := do
  let models ← (BlockKind.model.blocks s).mapM (Model.read types)
  let enums ← Reading.ofExcept ((BlockKind.enumeration.blocks s).mapM Enumeration.read)
  let provider := (provider? s).getD defaultProvider
  Reading.ofLogged (Logged.log (.readSchema models.length enums.length provider))
  return { models, enums, provider }

end SchemaQuery
