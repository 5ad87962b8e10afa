import MirRange.Text.Quoted

/-!
# Files

Files are reached through a record of operations, so that the program runs on a disk as well as on a
tree that is held in memory.

* `FileError`: why a file cannot be read; `PathError`: why something is no path at all.
* `Files`: the operations on files.
* `Path`: absolute paths and their ancestors, by their text alone.
* `Tree`: a tree in memory; `Tree.toFiles`: the operations on it.
-/

namespace MirRange

/-- Why a file cannot be read: the number and the words of the operating system. -/
structure FileError where
  number : Nat
  reason : String
deriving Repr, DecidableEq

namespace FileError

/-- There is nothing at a path. -/
def missing : FileError :=
  ⟨2, "No such file or directory"⟩

/-- A path leads through a file. -/
def notDirectory : FileError :=
  ⟨20, "Not a directory"⟩

/-- There is a directory at a path. -/
def isDirectory : FileError :=
  ⟨21, "Is a directory"⟩

/-- A name on a path is too long. -/
def nameTooLong : FileError :=
  ⟨36, "File name too long"⟩

/-- The wording of an error on a path. -/
def message (e : FileError) (path : String) : String :=
  "[Errno " ++ toString e.number ++ "] " ++ e.reason ++ ": " ++ Text.quote path

end FileError

/-- Why something is no path. -/
inductive PathError where
  /-- There is no text. -/
  | blank
  /-- The text has a null character. -/
  | null
deriving Repr, DecidableEq

/-- The wording of an error. -/
def PathError.message : PathError → String
  | .blank => "expected str, bytes or os.PathLike object, not list"
  | .null => "embedded null byte"

/-- The operations on files. -/
structure Files (m : Type → Type) where
  /-- The absolute path of the working directory. -/
  directory : m String
  /-- The text of a file, with its lines ended by line feeds. -/
  read : String → m (Except FileError String)
  /-- Whether there is a file at a path. -/
  isFile : String → m Bool

/-- A text with its lines ended by line feeds. -/
def lineFeeds : List Char → List Char
  | '\r' :: '\n' :: cs => '\n' :: lineFeeds cs
  | '\r' :: cs => '\n' :: lineFeeds cs
  | c :: cs => c :: lineFeeds cs
  | [] => []

namespace Path

/-- The names on a path. -/
def names (path : String) : List String :=
  path.splitOn "/"

/-- A text that is a path: null characters cannot stand in it. -/
def check (text : String) : Except PathError String :=
  if text.toList.contains '\x00' then .error .null else .ok text

/-- The number of bytes that a name can have. -/
def nameLimit : Nat :=
  255

/-- The number of bytes that a path can have. -/
def limit : Nat :=
  4095

/-- Whether a path starts at the root. -/
def isAbsolute (path : String) : Bool :=
  path.toList.head? = some '/'

/-- The names on a path without steps that stay or go back; `above` are the names before it, the
last one first. -/
def resolve : List String → List String → List String
  | above, [] => above.reverse
  | above, name :: rest =>
    if name = "" ∨ name = "." then resolve above rest
    else if name = ".." then resolve above.tail rest
    else resolve (name :: above) rest

/-- The names on the absolute path of a path, seen from a directory. -/
def absolute (directory path : String) : List String :=
  let before := if isAbsolute path then [] else names directory
  resolve [] (before ++ names path)

/-- The absolute path with given names. -/
def ofNames (names : List String) : String :=
  "/" ++ "/".intercalate names

/-- The beginnings of a list of names, from the empty one to the whole list. -/
def beginnings : List String → List (List String)
  | [] => [[]]
  | name :: rest => [] :: (beginnings rest).map (name :: ·)

/-- A directory and the directories above it, from the innermost to the root. -/
def ancestors (names : List String) : List (List String) :=
  (beginnings names).reverse

end Path

/-- Files and directories in memory, by the names on their absolute paths.  A directory exists if it
is listed or if something is in it. -/
structure Tree where
  files : List (List String × String)
  folders : List (List String)

namespace Tree

/-- What there is at a path. -/
inductive Entry where
  | file (text : String)
  | folder

/-- Whether there is a directory at a path. -/
def isFolder (t : Tree) (place : List String) : Bool :=
  place.isEmpty || t.folders.any place.isPrefixOf || t.files.any fun (path, _) => place.isPrefixOf path

/-- What there is at a path. -/
def entry? (t : Tree) (place : List String) : Option Entry :=
  match t.files.lookup place with
  | some text => some (.file text)
  | none => if t.isFolder place then some .folder else none

/-- Follow the names on a path: each name is looked up in the directory reached before. -/
def walk (t : Tree) : List String → List String → Except FileError Entry
  | here, [] => ((t.entry? here).map Except.ok).getD (.error .missing)
  | here, name :: rest =>
    match t.entry? here with
    | none => .error .missing
    | some (.file _) => .error .notDirectory
    | some .folder =>
      if name = "" ∨ name = "." then walk t here rest
      else if name = ".." then walk t here.dropLast rest
      else if Path.nameLimit < name.utf8ByteSize then .error .nameTooLong
      else walk t (here ++ [name]) rest

/-- What there is at a path, seen from a directory. -/
def locate (t : Tree) (directory : List String) (path : String) : Except FileError Entry :=
  if path = "" then .error .missing
  else if Path.limit < path.utf8ByteSize then .error .nameTooLong
  else t.walk (if Path.isAbsolute path then [] else directory) (Path.names path)

/-- The text of a file. -/
def read (t : Tree) (directory : List String) (path : String) : Except FileError String :=
  match t.locate directory path with
  | .ok (.file text) => .ok (String.ofList (lineFeeds text.toList))
  | .ok .folder => .error .isDirectory
  | .error e => .error e

/-- Whether there is a file at a path. -/
def isFile (t : Tree) (directory : List String) (path : String) : Bool :=
  match t.locate directory path with
  | .ok (.file _) => true
  | _ => false

/-- The operations on a tree, with a working directory in it. -/
def toFiles (t : Tree) (directory : List String) : Files Id where
  directory := Path.ofNames directory
  read := t.read directory
  isFile := t.isFile directory

end Tree

end MirRange
