import CommonHeaders.Command.Run

/-! # The program

The program looks at the files that its arguments name, carries out the run on what it has seen and
makes the changes of the run. -/

namespace CommonHeaders.Program

open Command Files Text

/-- The names that lead from the root to a path, followed in the text alone. -/
def placeOf (workingDirectory : List Text) (path : Text) : List Text :=
  let start := if Path.isAbsolute path then [] else workingDirectory
  (Path.pieces path).foldl (fun place name =>
    if name.isEmpty ∨ name = Path.here then place
    else if name = Path.above then place.dropLast
    else place ++ [name]) start

/-- The path of a place. -/
def pathOf (place : List Text) : String := String.ofList ('/' :: join ['/'] place)

/-- How far to look below a path: not at all, some directories deep, or without end. -/
abbrev Depth := Option Nat

/-- A path and how far to look below it. -/
structure View where
  path : Text
  depth : Depth

/-- What is to be seen for a pattern: a directory is seen with its entries, and a search from the
last directory before the first special character. -/
def viewsOf (pattern : Text) : List View :=
  let names := Path.pieces pattern
  let plain := names.takeWhile fun name => !isSearched name
  let rest := names.drop plain.length
  let start := if plain.isEmpty then Path.here else join ['/'] (plain ++ [[]])
  let isDeep := rest.any fun name => hasPiece ['*', '*'] name
  let searched : View := ⟨start, if isDeep then none else some rest.length⟩
  if rest.isEmpty then [⟨pattern, some 1⟩] else [⟨pattern, some 1⟩, searched]

/-- What is to be seen for a request. -/
def viewsOfRequest (request : Request) : List View :=
  match request.inputs? with
  | none => []
  | some inputs =>
    let target := match request with
      | .model _ (some target) => [⟨target, some 0⟩]
      | _ => []
    (inputs.mobile ++ inputs.desktop).flatMap viewsOf ++
      inputs.settings.toList.map (⟨·, some 0⟩) ++ target

/-- What is at a path, as far as it is to be seen: the files and directories with their places,
every directory before its entries. -/
partial def look (place : List Text) (depth : Depth) : IO (List (List Text × Node)) := do
  let there? ← try some <$> IO.FS.realPath (pathOf place) catch _ => pure none
  match there? with
  | none => return []
  | some there =>
    if ← there.isDir then
      if depth = some 0 then return [(place, default)]
      let entries ← there.readDir
      let below ← entries.toList.mapM fun e =>
        look (place ++ [e.fileName.toList]) (depth.map (· - 1))
      return (place, default) :: below.flatten
    else return [(place, .file (← IO.FS.readBinFile there))]

/-- Adds what has been seen at a place, unless something is there. -/
def add (root : Node) (place : List Text) (n : Node) : Node :=
  if (root.find? place).isSome then root else Node.put n place root

/-- The file system as far as it is to be seen for a request. Every directory on the way to a path
is seen, so that a missing one can be told from a file. -/
def lookAround (workingDirectory : List Text) (request : Request) : IO FileSystem := do
  let views := viewsOfRequest request
  let seen ← views.mapM fun view => do
    let place := placeOf workingDirectory view.path
    let onTheWay ← (List.range place.length).mapM fun k => look (place.take k) (some 0)
    return onTheWay.flatten ++ (← look place view.depth)
  let root := Node.put default workingDirectory default
  return ⟨seen.flatten.foldl (fun root (place, n) => add root place n) root, workingDirectory⟩

/-- Makes a change. -/
def makeChange : FileSystem.Change → IO Unit
  | .makeDirectory place => IO.FS.createDirAll (pathOf place)
  | .writeFile place content => IO.FS.writeBinFile (pathOf place) content

/-- Are colours shown? They can be forced and forbidden; otherwise a terminal shows them. -/
def showsColours : IO Bool := do
  let isSet (name : String) : IO Bool := do return (← IO.getEnv name).any (· != "0")
  if ← isSet "CLICOLOR_FORCE" then return true
  if (← IO.getEnv "NO_COLOR").isSome then return false
  (← IO.getStdout).isTty

/-- Runs the program. -/
def runProgram (arguments : List String) : IO UInt32 := do
  let arguments := arguments.map String.toList
  let workingDirectory := placeOf [] (← IO.currentDir).toString.toList
  let fs ← match parse arguments with
    | some request => lookAround workingDirectory request
    | none => pure ⟨default, workingDirectory⟩
  let outcome := run (← showsColours) fs arguments
  for change in outcome.changes do makeChange change
  IO.print (String.ofList outcome.output)
  IO.eprint (String.ofList outcome.errors)
  return outcome.code.toUInt32

end CommonHeaders.Program

def main (arguments : List String) : IO UInt32 := CommonHeaders.Program.runProgram arguments
