import CommonHeaders.Files.Path
import CommonHeaders.Table

/-! # File trees

A file tree holds files and directories, the entries of a directory in the order of their names. A
file system is a tree with a working directory, from which paths are followed that do not start at
the root. Following a path, reading and writing may fail, each failure for one cause.

Writing is described by changes, so that what a program has done to a file system can be seen.

* `apply_nil`: without changes the file system is the same. -/

namespace CommonHeaders.Files

open Text

/-! ### Trees -/

/-- **A file or a directory.** -/
inductive Node where
  | file (content : ByteArray)
  | directory (entries : List (Text × Node))

namespace Node

instance : Inhabited Node := ⟨.directory []⟩

def isDirectory : Node → Bool
  | directory _ => true
  | file _ => false

/-- The entries of a directory; a file has none. -/
def entries : Node → List (Text × Node)
  | directory entries => entries
  | file _ => []

/-- What stands at a place, given by the names that lead there. -/
def find? : List Text → Node → Option Node
  | [], n => some n
  | name :: place, n => (Entries.get? name n.entries).bind (find? place)

/-- Puts something at a place; directories on the way there are made. -/
def put (value : Node) : List Text → Node → Node
  | [], _ => value
  | name :: place, n =>
    let inner := (Entries.get? name n.entries).getD default
    directory (Entries.insert name (put value place inner) n.entries)

mutual

/-- **Everything below a directory**, with the names that lead there: every entry, and behind it
what stands below it. -/
def descendants : Node → List (List Text × Node)
  | file _ => []
  | directory entries => entryDescendants entries

/-- Some entries and everything below them. -/
def entryDescendants : List (Text × Node) → List (List Text × Node)
  | [] => []
  | (name, n) :: rest =>
    ([name], n) :: (n.descendants.map fun (place, m) => (name :: place, m)) ++ entryDescendants rest

end

end Node

/-! ### Failures -/

/-- Why a path cannot be used. -/
inductive Failure where
  | missing
  | alreadyThere
  | notDirectory
  | isDirectory
  | nameTooLong
  | notText
  /-- Whatever else a system has to say. -/
  | other (message : String)
deriving DecidableEq

/-- The wording of a failure. -/
def Failure.message : Failure → String
  | .missing => "No such file or directory (os error 2)"
  | .alreadyThere => "File exists (os error 17)"
  | .notDirectory => "Not a directory (os error 20)"
  | .isDirectory => "Is a directory (os error 21)"
  | .nameTooLong => "File name too long (os error 36)"
  | .notText => "stream did not contain valid UTF-8"
  | .other message => message

/-! ### Following paths -/

/-- **A file system**: a tree and the place of the working directory. -/
structure FileSystem where
  root : Node
  workingDirectory : List Text

namespace FileSystem

/-- The place that a path starts from. The empty path leads nowhere. -/
def startOf (fs : FileSystem) (path : Text) : Except Failure (List Text) :=
  if path.isEmpty then .error .missing
  else if Path.isTooLong path then .error .nameTooLong
  else .ok (if Path.isAbsolute path then [] else fs.workingDirectory)

/-- The place with `name` in the directory at `place`, which must be one. -/
def step (fs : FileSystem) (place : List Text) (name : Text) : Except Failure (List Text) :=
  match fs.root.find? place with
  | some (.directory entries) =>
    if name.isEmpty ∨ name = Path.here then .ok place
    else if name = Path.above then .ok place.dropLast
    else if Path.isLongName name then .error .nameTooLong
    else if (Entries.get? name entries).isSome then .ok (place ++ [name])
    else .error .missing
  | _ => .error .notDirectory

/-- Follows names from a place. -/
def follow (fs : FileSystem) (place : List Text) (names : List Text) : Except Failure (List Text) :=
  names.foldlM fs.step place

/-- **What a path leads to.** -/
def node (fs : FileSystem) (path : Text) : Except Failure Node := do
  let place ← fs.follow (← fs.startOf path) (Path.pieces path)
  match fs.root.find? place with
  | some n => return n
  | none => throw .missing

/-- Does the path lead anywhere? -/
def reaches (fs : FileSystem) (path : Text) : Bool :=
  match fs.node path with
  | .ok _ => true
  | .error _ => false

/-- Does the path lead to a directory? -/
def isDirectory (fs : FileSystem) (path : Text) : Bool :=
  match fs.node path with
  | .ok n => n.isDirectory
  | .error _ => false

/-- **What a file holds.** -/
def content (fs : FileSystem) (path : Text) : Except Failure ByteArray := do
  match ← fs.node path with
  | .directory _ => throw .isDirectory
  | .file content => return content

/-! ### Changes -/

/-- **A change** at a place. -/
inductive Change where
  | makeDirectory (place : List Text)
  | writeFile (place : List Text) (content : ByteArray)

/-- What a change leaves in the file system. -/
def change (fs : FileSystem) : Change → FileSystem
  | .makeDirectory place => { fs with root := Node.put default place fs.root }
  | .writeFile place content => { fs with root := Node.put (.file content) place fs.root }

/-- What some changes leave, one after the other. -/
def apply (fs : FileSystem) (changes : List Change) : FileSystem := changes.foldl change fs

theorem apply_nil (fs : FileSystem) : fs.apply [] = fs := rfl

/-- The directory in which the last of some names stands, when they are followed from the start of
a path, and that name. -/
def lastName (fs : FileSystem) (path : Text) (names : List Text) :
    Except Failure (List Text × Text) := do
  let place ← fs.follow (← fs.startOf path) names.dropLast
  match fs.root.find? place with
  | some (.directory _) => return (place, names.getLastD [])
  | _ => throw .notDirectory

/-- Is the name one that a directory has for itself or for the one above it? -/
def isOwnName (name : Text) : Bool := name.isEmpty || name == Path.here || name == Path.above

/-- Makes one directory. -/
def makeDirectory (fs : FileSystem) (path : Text) : Except Failure Change := do
  let (place, name) ← fs.lastName path (Path.pieces path)
  if isOwnName name ∨ (fs.root.find? (place ++ [name])).isSome then throw .alreadyThere
  else if Path.isLongName name then throw .nameTooLong
  else return .makeDirectory (place ++ [name])

/-- Makes a directory unless it is there. -/
def ensureDirectory (fs : FileSystem) (path : Text) : Except Failure (List Change) :=
  match fs.makeDirectory path with
  | .ok change => .ok [change]
  | .error e => if fs.isDirectory path then .ok [] else .error e

/-- **Makes a directory and those above it** where they are missing: the changes made, and the
failure that ended them, if there was one. -/
def makeDirectories (fs : FileSystem) (path : Text) : List Change × Option Failure :=
  if path.isEmpty then ([], none)
  else
    match fs.ensureDirectory path with
    | .ok changes => (changes, none)
    | .error .missing =>
      match _h : Path.parent? path with
      | none => ([], some .missing)
      | some parent =>
        let (changes, failure) := fs.makeDirectories parent
        if failure.isSome then (changes, failure)
        else
          match (fs.apply changes).ensureDirectory path with
          | .ok more => (changes ++ more, none)
          | .error e => (changes, some e)
    | .error e => ([], some e)
termination_by path.length
decreasing_by exact Path.parent?_length_lt _h

/-- **Writes a file**, in place of the one that is there. -/
def writeFile (fs : FileSystem) (path : Text) (content : Text) : Except Failure Change := do
  let (place, name) ← fs.lastName path (Path.pieces (dropEndWhile (· == '/') path))
  if path.getLast? = some '/' ∨ isOwnName name then throw .isDirectory
  else if Path.isLongName name then throw .nameTooLong
  else
    match fs.root.find? (place ++ [name]) with
    | some (.directory _) => throw .isDirectory
    | _ => return .writeFile (place ++ [name]) (String.ofList content).toUTF8

end FileSystem

end CommonHeaders.Files
