import CommonHeaders.Files.Pattern
import CommonHeaders.Files.Tree

/-! # Searching a file system

A pattern of paths is searched step by step, from the root or from the working directory. A step
with a plain name goes to that name, whatever stands there; a step with a pattern goes to the entries
that match it, in the order of their names; and a step at any depth goes to the matches among
everything below. At the end of a pattern two stars stand for the directories below, and a
slash keeps the directories.

The directory itself and the one above it match a pattern only where it starts with a point. -/

namespace CommonHeaders.Files

open Text

/-! ### Steps -/

/-- **A step of a search.** -/
inductive SearchStep where
  | entry (pattern : NamePattern)
  | atAnyDepth (pattern : NamePattern)
  | directoriesBelow

/-- **A search**: where it starts, its steps, and whether only directories are found. -/
structure Search where
  fromRoot : Bool
  steps : List SearchStep
  directoriesOnly : Bool

/-- The steps of the patterns of single names; two stars join the next pattern. -/
def stepsOf (deep : Bool) : List NamePattern → List SearchStep
  | [] => if deep then [.directoriesBelow] else []
  | pattern :: rest =>
    if pattern = [.anyDepth] then stepsOf true rest
    else (if deep then .atAnyDepth pattern else .entry pattern) :: stepsOf false rest

/-- The names between the slashes; none stands behind a slash at the end. -/
def patternNames (pattern : Text) : List Text :=
  let names := Path.pieces pattern
  if names.getLast? = some [] then names.dropLast else names

/-- **Reads a search.** The pattern is read as a whole first, then name by name. -/
def Search.ofPattern (pattern : Text) : Except PatternError Search := do
  let _ ← readPattern pattern
  let fromRoot := Path.isAbsolute pattern
  let names ← (patternNames (if fromRoot then pattern.drop 1 else pattern)).mapM readPattern
  return {
    fromRoot := fromRoot
    steps := stepsOf false names
    directoriesOnly := pattern.getLast? == some '/' }

/-! ### Searching -/

namespace FileSystem

/-- The path of an entry; in the working directory that is its name. -/
def entryPath (directory name : Text) : Text :=
  if Path.isHere directory then name else Path.join directory name

/-- Everything below a directory: the path and the name of each entry. -/
def descendants (fs : FileSystem) (directory : Text) : List (Text × Text) :=
  match fs.node directory with
  | .ok n =>
    n.descendants.map fun (place, _) => (place.foldl entryPath directory, place.getLastD [])
  | .error _ => []

/-- The entries of a directory: the path and the name of each. -/
def entries (fs : FileSystem) (directory : Text) : List (Text × Text) :=
  match fs.node directory with
  | .ok n => n.entries.map fun (name, _) => (entryPath directory name, name)
  | .error _ => []

/-- The names that a directory has for the one above it and for itself, as far as they match a
pattern that starts with a point. -/
def ownEntries (fs : FileSystem) (directory : Text) (pattern : NamePattern) : List Text :=
  if pattern.head? = some (.char '.') ∧ fs.isDirectory directory then
    ([Path.above, Path.here].filter (matchesName pattern)).map (Path.join directory)
  else []

/-- The paths to which a step with a pattern goes. -/
def matching (fs : FileSystem) (directory : Text) (pattern : NamePattern) : List Text :=
  match literal? pattern with
  | some name =>
    let path := entryPath directory name
    if name = Path.here ∨ name = Path.above then
      if fs.isDirectory directory then [path] else []
    else if fs.reaches path then [path] else []
  | none =>
    fs.ownEntries directory pattern ++
      ((fs.entries directory).filter fun e => matchesName pattern e.2).map Prod.fst

/-- The paths found by some steps from a path. -/
def expand (fs : FileSystem) : List SearchStep → Text → List Text
  | [], path => [path]
  | .entry pattern :: rest, path => (fs.matching path pattern).flatMap (fs.expand rest)
  | .atAnyDepth pattern :: rest, path =>
    ((fs.descendants path).filter fun e => matchesName pattern e.2).flatMap fun e =>
      fs.expand rest e.1
  | .directoriesBelow :: rest, path =>
    ((fs.descendants path).filter fun e => fs.isDirectory e.1).flatMap fun e => fs.expand rest e.1

/-- **The paths that a search finds**, in order. -/
def search (fs : FileSystem) (s : Search) : List Text :=
  let found := fs.expand s.steps (if s.fromRoot then ['/'] else Path.here)
  if s.directoriesOnly then found.filter fs.isDirectory else found

end FileSystem

end CommonHeaders.Files
