import FormTemplate.Text.Utf8

/-!
# Files

What a program does with files: it asks where it works, whether something
is at a path, and reads and writes whole files. `FileStore` is what offers
this; the library itself never says which files there are.
-/

namespace FormTemplate

/-- Why a file is not read or written. -/
inductive FileError where
  /-- Nothing is at the path. -/
  | notFound
  /-- The path leads through a file. -/
  | notADirectory
  /-- A directory is at the path. -/
  | isADirectory
  /-- A name of the path is too long, or all of it is. -/
  | nameTooLong
  /-- The content is not UTF-8. -/
  | notText
  /-- Another reason, in the words of the system. -/
  | other (reason : Text)
deriving Repr, DecidableEq

/-- The wording of a file error. -/
def FileError.message : FileError → Text
  | .notFound => "No such file or directory (os error 2)".toList
  | .notADirectory => "Not a directory (os error 20)".toList
  | .isADirectory => "Is a directory (os error 21)".toList
  | .nameTooLong => "File name too long (os error 36)".toList
  | .notText => "stream did not contain valid UTF-8".toList
  | .other reason => reason

/-- **A store of files**, in whose effects programs run. -/
class FileStore (m : Type → Type) where
  /-- The path of the working directory, if there is one. -/
  workingDirectory : m (Option Text)
  /-- Whether a file or directory is at a path. -/
  hasPath (path : Text) : m Bool
  /-- The octets of a file. -/
  read (path : Text) : m (Except FileError (List UInt8))
  /-- Creates or replaces a file. -/
  write (path : Text) (content : List UInt8) : m (Except FileError Unit)

namespace FileStore

variable {m : Type → Type} [Monad m] [FileStore m]

/-- The text of a file. -/
def readText (path : Text) : m (Except FileError Text) := do
  match ← read path with
  | .error e => return .error e
  | .ok octets =>
    match Utf8.decode? octets with
    | some s => return .ok s
    | none => return .error .notText

/-- Creates or replaces a file with a text. -/
def writeText (path content : Text) : m (Except FileError Unit) := write path (Utf8.encode content)

end FileStore

end FormTemplate
