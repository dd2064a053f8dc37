import SchemaQuery.Text.Lines
import SchemaQuery.Text.Trim

/-!
# Command line arguments

The first argument names the schema. The others are switches and options that take the argument
after them as their value, whatever it looks like. Of an option that comes again the last value
counts.
-/

set_option autoImplicit false

namespace SchemaQuery

structure Arguments where
  input : String
  model : Option String := none
  operation : Option String := none
  fields : Option (List String) := none
  request : Option String := none
  client : Option String := none
  output : Option String := none
  crudDirectory : Option String := none
  types : Bool := false
  describe : Bool := false
  graph : Bool := false
  deriving DecidableEq, Repr

inductive ArgumentsError where
  | unknown (flag : String)
  | missingValue (flag : String)
  deriving DecidableEq, Repr

def ArgumentsError.message : ArgumentsError → String
  | unknown flag => "Unknown option: " ++ flag
  | missingValue flag => "Missing value for " ++ flag

inductive ValueOption where
  | model
  | operation
  | fields
  | request
  | client
  | output
  | crud
  deriving DecidableEq, Repr

inductive Switch where
  | types
  | describe
  | graph
  deriving DecidableEq, Repr

inductive Flag where
  | value (option : ValueOption)
  | switch (s : Switch)
  deriving DecidableEq, Repr

def Flag.spellings : List (String × Flag) := [
  ("-m", .value .model), ("--model", .value .model),
  ("-p", .value .operation), ("--operation", .value .operation),
  ("-f", .value .fields), ("--fields", .value .fields),
  ("-r", .value .request), ("--request", .value .request),
  ("-c", .value .client), ("--client", .value .client),
  ("-o", .value .output), ("--output", .value .output),
  ("--crud", .value .crud),
  ("-t", .switch .types), ("--types", .switch .types),
  ("--describe", .switch .describe), ("--graph", .switch .graph)]

def Flag.ofText? (s : String) : Option Flag := (spellings.find? (·.1 == s)).map (·.2)

namespace Arguments

def splitFields (s : String) : List String :=
  (((Text.pieces ',' s.toList).map Text.trim).filter (· != [])).map String.ofList

def setValue (a : Arguments) (option : ValueOption) (value : String) : Arguments :=
  match option with
  | .model => { a with model := some value }
  | .operation => { a with operation := some value }
  | .fields => { a with fields := some (splitFields value) }
  | .request => { a with request := some value }
  | .client => { a with client := some value }
  | .output => { a with output := some value }
  | .crud => { a with crudDirectory := some value }

def setSwitch (a : Arguments) (s : Switch) : Arguments :=
  match s with
  | .types => { a with types := true }
  | .describe => { a with describe := true }
  | .graph => { a with graph := true }

def readFlags (a : Arguments) : List String → Except ArgumentsError Arguments
  | [] => .ok a
  | [text] =>
    match Flag.ofText? text with
    | some (.switch s) => .ok (a.setSwitch s)
    | some (.value _) => .error (.missingValue text)
    | none => .error (.unknown text)
  | text :: value :: rest =>
    match Flag.ofText? text with
    | some (.switch s) => (a.setSwitch s).readFlags (value :: rest)
    | some (.value option) => (a.setValue option value).readFlags rest
    | none => .error (.unknown text)

def read (input : String) (flags : List String) : Except ArgumentsError Arguments :=
  readFlags { input } flags

end Arguments

end SchemaQuery
