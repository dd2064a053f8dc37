import SchemaQuery.Command.Run

/-!
# The program

Connects the command line to the files of the machine.
-/

set_option autoImplicit false

namespace SchemaQuery

def FileError.ofMachine : IO.Error → FileError
  | .noFileOrDirectory .. => .notFound
  | .alreadyExists .. => .alreadyExists
  | .inappropriateType _ code _ => if code = 21 then .isDirectory else .notDirectory
  | e => .other (toString e)

def attempt {α : Type} (action : IO α) : IO (Except FileError α) := do
  match ← action.toBaseIO with
  | .ok a => return .ok a
  | .error e => return .error (.ofMachine e)

def ensureDirectory (path : String) : IO (Except FileError Unit) := do
  match ← attempt (IO.FS.createDir path) with
  | .error .alreadyExists =>
    match ← attempt (IO.FS.createDirAll path) with
    | .ok () => return .ok ()
    | .error _ => return .error .alreadyExists
  | result => return result

def machine : FileSystem IO where
  read path := attempt (IO.FS.readFile path)
  write path contents := attempt (IO.FS.writeFile path contents)
  ensureDirectory

end SchemaQuery

open SchemaQuery

def main (arguments : List String) : IO UInt32 := do
  let result ← (Command.run machine arguments).run
  IO.print (Command.standardOutput result)
  IO.eprint (Command.standardError result)
  return Command.exitCode result
