import SchemaQuery.Command.Path

/-!
# Files

The command line needs three things of a file system: reading a file, writing one, and making a
directory where there is none. A tree of files in memory offers the same three, so that a run of the
command line is a function of the files that it finds. Some of these are not what they should be:
they hold no text, or reading or writing them is not allowed.
-/

set_option autoImplicit false

namespace SchemaQuery

inductive FileError where
  | notFound
  | alreadyExists
  | notDirectory
  | isDirectory
  | nameTooLong
  | other (text : String)
  deriving DecidableEq, Repr

def FileError.message : FileError → String
  | notFound => "No such file or directory (os error 2)"
  | alreadyExists => "File exists (os error 17)"
  | notDirectory => "Not a directory (os error 20)"
  | isDirectory => "Is a directory (os error 21)"
  | nameTooLong => "File name too long (os error 36)"
  | other text => text

structure FileSystem (m : Type → Type) where
  read : (path : String) → m (Except FileError String)
  write : (path contents : String) → m (Except FileError Unit)
  ensureDirectory : (path : String) → m (Except FileError Unit)

namespace FileSystem

variable {m : Type → Type} [Monad m]

/-- Sees to it that the first of some paths is a directory, each of which lies in the next. A path
is tried again when those that it lies in are there. -/
def ensureFirst (fs : FileSystem m) : (lineage : List String) → m (Except FileError Unit)
  | [] => return .error .notFound
  | path :: parents => do
    match ← fs.ensureDirectory path with
    | .error .notFound =>
      match ← fs.ensureFirst parents with
      | .ok () => fs.ensureDirectory path
      | .error e => return .error e
    | result => return result

def makeDirectory (fs : FileSystem m) (path : String) : m (Except FileError Unit) :=
  if path = "" then return .ok () else fs.ensureFirst (Path.lineage path)

end FileSystem

/-- The names on the way from the root of a tree to a place. What lies outside of the tree is
reached through names `..` or through the root of the machine, which is named `/`. -/
abbrev Location := List String

namespace Location

def isAbove (location : Location) : Bool := location.all (· == "..")

def machineRoot : Location := ["/"]

def isInside (location : Location) : Bool :=
  location.head? != some ".." && location.head? != some "/"

def up (location : Location) : Location :=
  if location.isAbove then location ++ [".."]
  else if location = machineRoot then machineRoot
  else location.dropLast

end Location

inductive Entry where
  | file (contents : String)
  /-- A file that holds no text. -/
  | binary
  /-- A file that may not be written, nor read if no contents are given. -/
  | guarded (contents : Option String) (refusal : FileError)
  | directory
  deriving DecidableEq, Repr

namespace Entry

def contents : Entry → Except FileError String
  | file contents => .ok contents
  | binary => .error (.other "stream did not contain valid UTF-8")
  | guarded contents refusal => contents.elim (.error refusal) .ok
  | directory => .error .isDirectory

def refusal? : Entry → Option FileError
  | file _ => none
  | binary => none
  | guarded _ refusal => some refusal
  | directory => some .isDirectory

end Entry

/-- A tree as the list of what it holds, the newest first. The root is a directory, and of what lies
outside of the tree only the directories that hold it are known. -/
structure FileTree where
  entries : List (Location × Entry) := []

namespace FileTree

def entry? (tree : FileTree) (location : Location) : Option Entry :=
  if location.isAbove || location = Location.machineRoot then some .directory
  else (tree.entries.find? (·.1 == location)).map (·.2)

def put (tree : FileTree) (location : Location) (entry : Entry) : FileTree :=
  ⟨(location, entry) :: tree.entries.filter (·.1 != location)⟩

def putWithParents (tree : FileTree) (location : Location) (entry : Entry) : FileTree :=
  let parents := (List.range location.length).map location.take
  let tree := parents.foldl
    (fun tree parent => if tree.entry? parent |>.isSome then tree else tree.put parent .directory)
    tree
  tree.put location entry

def contents? (tree : FileTree) (location : Location) : Option (Except FileError String) :=
  tree.entry? location |>.map Entry.contents

def refusal? (tree : FileTree) (location : Location) : Option FileError :=
  tree.entry? location |>.bind Entry.refusal?

def enter (tree : FileTree) (location : Location) : Except FileError Unit :=
  match tree.entry? location with
  | none => .error .notFound
  | some .directory => .ok ()
  | some _ => .error .notDirectory

def nameLimit : Nat := 255

def down (tree : FileTree) (location : Location) (name : String) : Except FileError Location := do
  tree.enter location
  if name = "." then return location
  else if name = ".." then return location.up
  else if nameLimit < name.utf8ByteSize then .error .nameTooLong
  else return location ++ [name]

def follow (tree : FileTree) (path : String) (names : List String) : Except FileError Location :=
  names.foldlM tree.down (if Path.isAbsolute path then Location.machineRoot else [])

def pathLimit : Nat := 4095

def checkPath (path : String) : Except FileError Unit :=
  if pathLimit < path.utf8ByteSize then .error .nameTooLong
  else if path = "" then .error .notFound
  else .ok ()

def locate (tree : FileTree) (path : String) : Except FileError Location := do
  checkPath path
  tree.follow path (Path.names path)

def enterHolder (tree : FileTree) (path : String) : Except FileError Unit := do
  checkPath path
  tree.enter (← tree.follow path (Path.names path).dropLast)

def read (tree : FileTree) (path : String) : Except FileError String := do
  match tree.entry? (← tree.locate path) with
  | none => .error .notFound
  | some .directory => .error .isDirectory
  | some entry => if Path.endsInSlash path then .error .notDirectory else entry.contents

/-- No file is written where a path asks for a directory, whatever its last name may be. -/
def write (tree : FileTree) (path contents : String) : Except FileError FileTree := do
  if Path.endsInSlash path then
    tree.enterHolder path
    .error .isDirectory
  else
    let location ← tree.locate path
    match tree.refusal? location with
    | some error => .error error
    | none => .ok (tree.put location (.file contents))

def ensureDirectory (tree : FileTree) (path : String) : Except FileError FileTree := do
  let location ← tree.locate path
  match tree.entry? location with
  | none => .ok (tree.put location .directory)
  | some .directory => .ok tree
  | some _ => .error .alreadyExists

def filesBeyond (after before : FileTree) : List (Location × String) :=
  after.entries.filterMap fun (location, entry) =>
    match entry with
    | .file contents =>
      if location.isInside && before.entry? location != some entry then some (location, contents)
      else none
    | _ => none

def update (change : FileTree → Except FileError FileTree) :
    StateM FileTree (Except FileError Unit) :=
  fun tree =>
    match change tree with
    | .ok tree => (.ok (), tree)
    | .error e => (.error e, tree)

def fileSystem : FileSystem (StateM FileTree) where
  read path := return (← get).read path
  write path contents := update (·.write path contents)
  ensureDirectory path := update (·.ensureDirectory path)

end FileTree

end SchemaQuery
