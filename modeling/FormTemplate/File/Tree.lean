import FormTemplate.File.Store

/-!
# File trees

A store of files that is a value: the files and directories below a root,
and a working directory among them. Paths are followed name by name, so a
path that passes through a file fails otherwise than one that passes
through nothing, and two dots lead back to the directory above. Names and
paths are bounded in length, counted in octets.
-/

namespace FormTemplate

/-- Where a file or directory is: the names from the root on. -/
abbrev Location := List Text

/-- A tree of files. -/
structure FileTree where
  /-- The files with their content. -/
  files : List (Location × List UInt8) := []
  /-- Directories that are there with or without a file in them. -/
  directories : List Location := []
  /-- Where relative paths begin. -/
  workingDirectory : Location := []
deriving Repr, DecidableEq

namespace FileTree

/-- What is at a location. -/
inductive Entry where
  /-- A file. -/
  | file (content : List UInt8)
  /-- A directory. -/
  | directory
deriving Repr, DecidableEq

/-- Whether a directory is at a location: the root is one, and whatever
contains something. -/
def isDirectory (t : FileTree) (l : Location) : Bool :=
  l.isEmpty || t.directories.any l.isPrefixOf || t.files.any fun f => l.isPrefixOf f.1 && l != f.1

/-- What is at a location, if anything. -/
def entry? (t : FileTree) (l : Location) : Option Entry :=
  match t.files.lookup l with
  | some content => some (.file content)
  | none => if t.isDirectory l then some .directory else none

/-! ## Paths -/

/-- The number of octets of a text. -/
def octetCount (s : Text) : Nat := (Utf8.encode s).length

/-- The greatest number of octets of a name. -/
def maxName : Nat := 255

/-- The greatest number of octets of a path. -/
def maxPath : Nat := 4095

/-- The location that a name leads to from a directory. -/
def step (l : Location) (name : Text) : Location :=
  if name == ['.', '.'] then l.dropLast
  else if name == ['.'] || name.isEmpty then l
  else l ++ [name]

/-- The location that names lead to from a location; each but the last has
to lead to a directory. -/
def follow (t : FileTree) (l : Location) : List Text → Except FileError Location
  | [] => .ok l
  | name :: names =>
    match t.entry? l with
    | none => .error .notFound
    | some (.file _) => .error .notADirectory
    | some .directory =>
      if maxName < octetCount name then .error .nameTooLong else t.follow (step l name) names

/-- The names of a path, empty ones at doubled, leading and trailing
slashes included. -/
def names (path : Text) : List Text := Text.pieces (· == '/') path

/-- The location that a path would lead to from a location if all its names
led to directories. -/
def locate (l : Location) (path : Text) : Location := (names path).foldl step l

/-- Where a path begins. -/
def origin (t : FileTree) (path : Text) : Location :=
  if path.head? == some '/' then [] else t.workingDirectory

/-- Refuses a path that is empty or too long. -/
def admissible (path : Text) : Except FileError Unit :=
  if path.isEmpty then .error .notFound
  else if maxPath < octetCount path then .error .nameTooLong
  else .ok ()

/-- What is at a path. -/
def entryAt (t : FileTree) (path : Text) : Except FileError Entry := do
  admissible path
  match t.entry? (← t.follow (t.origin path) (names path)) with
  | some entry => return entry
  | none => throw .notFound

/-- The octets of the file at a path. -/
def read (t : FileTree) (path : Text) : Except FileError (List UInt8) := do
  match ← t.entryAt path with
  | .file content => return content
  | .directory => throw .isADirectory

/-- The names that lead to the directory of a path, and the last name; a
slash at the end stands for no name. -/
def directoryAndName (path : Text) : List Text × Text :=
  let ns := ((names path).reverse.dropWhile List.isEmpty).reverse
  (ns.dropLast, ns.getLast?.getD [])

/-- The tree with a file at a path. Its directory has to be there, and the
path has to end in a name. -/
def write (t : FileTree) (path : Text) (content : List UInt8) : Except FileError FileTree := do
  admissible path
  let (outer, name) := directoryAndName path
  let l ← t.follow (t.origin path) outer
  match t.entry? l with
  | none => throw .notFound
  | some (.file _) => throw .notADirectory
  | some .directory =>
    if path.getLast? == some '/' || name == ['.'] || name == ['.', '.'] then throw .isADirectory
    if maxName < octetCount name then throw .nameTooLong
    let target := l ++ [name]
    if t.isDirectory target then throw .isADirectory
    return { t with files := (t.files.filter (·.1 != target)) ++ [(target, content)] }

/-- The path of a location. -/
def path (l : Location) : Text := if l.isEmpty then ['/'] else l.flatMap ('/' :: ·)

/-- The files that are new or changed since an earlier tree. -/
def changedSince (t earlier : FileTree) : List (Location × List UInt8) :=
  t.files.filter fun f => earlier.files.lookup f.1 != some f.2

/-- Programs run on a tree of files as its states. -/
instance : FileStore (StateM FileTree) where
  workingDirectory := do return some (path (← get).workingDirectory)
  hasPath path := do return ((← get).entryAt path).toBool
  read path := do return (← get).read path
  write path content := do
    match (← get).write path content with
    | .ok t => set t; return .ok ()
    | .error e => return .error e

end FileTree

end FormTemplate
