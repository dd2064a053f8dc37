import SchemaQuery.Command.Arguments
import SchemaQuery.Command.FileSystem
import SchemaQuery.Query.Generator
import SchemaQuery.Query.Json
import SchemaQuery.Schema.Card
import SchemaQuery.Schema.Code
import SchemaQuery.Schema.Graph
import SchemaQuery.Schema.Reader

/-!
# The command line

A run reads a schema, writes the modules that it is asked for, and puts out one text: cards, the
graph, a query, or the document as JSON. The file operations are a parameter, so a run on a tree of
files is an ordinary function.
-/

set_option autoImplicit false

namespace SchemaQuery

inductive CommandError where
  | noArguments (program : String)
  | badArguments (error : ArgumentsError)
  | unreadable (path : String) (error : FileError)
  | unwritable (path : String) (error : FileError)
  | directoryNotMade (path : String) (error : FileError)
  | badSchema (error : SchemaError)
  | unknownModel (name : String)
  | unsupportedOperation (name : String)
  | badRequest (path : String) (fault : Json.Fault)
  deriving DecidableEq, Repr

namespace CommandError

def usage (program : String) : String :=
  String.intercalate "\n" [
    "Usage: " ++ program ++ " <schema.prisma> [options]",
    "",
    "Options:",
    "  -m, --model <name>       Generate a query for this model",
    "  -p, --operation <op>     create, read, update, delete, aggregate (default: read)",
    "  -f, --fields <a,b,...>   Selected fields (default: all fields)",
    "  -r, --request <file>     JSON query options (conditions, sort, pagination, ...)",
    "  -c, --client <ident>     Client identifier (default: prisma)",
    "  -t, --types              Prepend client setup and a type definition",
    "  -o, --output <file>      Output file (default: stdout)",
    "      --describe           Print model cards instead of a query",
    "      --graph              Print the model graph as JSON",
    "      --crud <dir>         Write one CRUD module per model into <dir>",
    "",
    "Without --model, --describe or --graph the parsed schema is printed as JSON."]

def message : CommandError → String
  | noArguments program => usage program
  | badArguments error => error.message
  | unreadable path error => "Failed to read " ++ path ++ ": " ++ error.message
  | unwritable path error => "Failed to write " ++ path ++ ": " ++ error.message
  | directoryNotMade path error => "Failed to create " ++ path ++ ": " ++ error.message
  | badSchema error => "Failed to parse schema: " ++ error.message
  | unknownModel name => "Unknown model: " ++ name
  | unsupportedOperation name => Operation.unsupportedMessage name
  | badRequest path _ => "Invalid request file " ++ path

def reason : CommandError → String
  | badRequest _ .malformed => ": not JSON"
  | badRequest _ .truncated => ": the text ends too early"
  | badRequest _ .mismatched => ": JSON of another shape"
  | _ => ""

end CommandError

namespace Command

def programName : String := "prisma-querygen"

variable {m : Type → Type} [Monad m]

abbrev Run (m : Type → Type) := ExceptT CommandError m

def readFile (fs : FileSystem m) (path : String) : Run m String := ExceptT.mk do
  return (← fs.read path).mapError (CommandError.unreadable path)

def writeFile (fs : FileSystem m) (path contents : String) : Run m Unit := ExceptT.mk do
  return (← fs.write path contents).mapError (CommandError.unwritable path)

def makeDirectory (fs : FileSystem m) (path : String) : Run m Unit := ExceptT.mk do
  return (← fs.makeDirectory path).mapError (CommandError.directoryNotMade path)

def writeModules (fs : FileSystem m) (d : Document) (directory client : String) : Run m Unit := do
  makeDirectory fs directory
  d.models.forM fun model =>
    writeFile fs (Path.join directory (Code.crudFileName model)) (Code.crudModule model client)

def readOptions (fs : FileSystem m) : Option String → Run m Options
  | none => pure {}
  | some path => do
    let text ← readFile fs path
    match Json.decodeText Options.decoder text with
    | .ok options => pure options
    | .error fault => throw (.badRequest path fault)

def query (fs : FileSystem m) (d : Document) (a : Arguments) (name client : String) :
    Run m String := do
  let some model := d.model? name | throw (.unknownModel name)
  let operationName := a.operation.getD "read"
  let some operation := Operation.ofName? operationName
    | throw (.unsupportedOperation operationName)
  let selected := a.fields.getD (model.fields.map (·.name))
  let options ← readOptions fs a.request
  let header :=
    if a.types then
      Code.clientSetup client ++ "\n\n" ++ Code.typeDefinition model selected ++ "\n\n"
    else ""
  let generator : Generator := { client }
  let text := (generator.generate { model, operation, selected, options }).value
  return header ++ text ++ "\n"

def output (fs : FileSystem m) (a : Arguments) : Run m String := do
  let text ← readFile fs a.input
  let d ← match (Document.read .standard text.toList).result with
    | .ok d => pure d
    | .error e => throw (.badSchema e)
  let client := a.client.getD "prisma"
  if let some directory := a.crudDirectory then
    writeModules fs d directory client
  if a.describe then return Card.document d
  else if a.graph then return d.graph.toJson.pretty ++ "\n"
  else match a.model with
    | some name => query fs d a name client
    | none => return if a.crudDirectory.isSome then "" else d.toJson.pretty ++ "\n"

def run (fs : FileSystem m) (arguments : List String) : Run m String := do
  match arguments with
  | [] => throw (.noArguments programName)
  | input :: flags =>
    match Arguments.read input flags with
    | .error e => throw (.badArguments e)
    | .ok a =>
      let text ← output fs a
      match a.output with
      | none => return text
      | some path =>
        writeFile fs path text
        return ""

def runOn (tree : FileTree) (arguments : List String) :
    Except CommandError String × FileTree :=
  (run FileTree.fileSystem arguments).run.run tree

def exitCode : Except CommandError String → UInt32
  | .ok _ => 0
  | .error _ => 1

def standardOutput : Except CommandError String → String
  | .ok text => text
  | .error _ => ""

def standardError : Except CommandError String → String
  | .ok _ => ""
  | .error e => e.message ++ e.reason ++ "\n"

end Command

end SchemaQuery
