import CommonHeaders.Command.Arguments
import CommonHeaders.Corpus
import CommonHeaders.Files.Answers
import CommonHeaders.Settings.Reader

/-! # Loading the input

The settings are loaded first, then the mobile headers, then the desktop headers. The headers of a
platform are given by patterns: a directory stands for the headers in it, a pattern with special
characters for the files it finds, of which there must be one, and every other pattern for the file
with that path. All patterns of a platform are looked up before its files are read.

The first failure ends the loading. -/

namespace CommonHeaders.Command

open Files Text

/-! ### Failures -/

/-- The two platforms. -/
inductive Platform where
  | mobile
  | desktop
deriving DecidableEq

def Platform.name : Platform → String
  | mobile => "mobile"
  | desktop => "desktop"

/-- Why headers cannot be loaded. -/
inductive SourceError where
  | unreadable (path : Text) (failure : Failure)
  | badPattern (pattern : Text) (error : PatternError)
  | nothingFound (pattern : Text)

/-- Why a request cannot be carried out. -/
inductive Error where
  | settingsUnreadable (path : Text) (failure : Failure)
  | settingsRefused (path : Text) (error : Settings.ReadError)
  | sources (platform : Platform) (error : SourceError)
  | directoryNotMade (path : Text) (failure : Failure)
  | fileNotWritten (path : Text) (failure : Failure)

/-- The wording of a file that cannot be read; the cause stands in it and behind it. -/
def unreadableMessage (path : Text) (failure : Failure) : Text :=
  let cause := ": ".toList ++ failure.message.toList
  "failed to read ".toList ++ path ++ cause ++ cause

/-- The wording of a failed pattern. -/
def SourceError.message : SourceError → Text
  | unreadable path failure => unreadableMessage path failure
  | badPattern pattern error =>
    "bad input pattern `".toList ++ pattern ++ "`: ".toList ++ error.message
  | nothingFound pattern => "input pattern matched no files: ".toList ++ pattern

/-- **The wording of an error.** -/
def Error.message : Error → Text
  | settingsUnreadable path failure => unreadableMessage path failure
  | settingsRefused path error => "invalid config ".toList ++ path ++ ": ".toList ++ error.message
  | sources platform error =>
    "failed to load ".toList ++ platform.name.toList ++ " headers: ".toList ++ error.message
  | directoryNotMade path failure =>
    "failed to create ".toList ++ path ++ ": ".toList ++ failure.message.toList
  | fileNotWritten path failure =>
    "failed to write ".toList ++ path ++ ": ".toList ++ failure.message.toList

/-! ### Headers -/

/-- Does a pattern have special characters? -/
def isSearched (pattern : Text) : Bool :=
  pattern.any fun c => c == '*' || c == '?' || c == '[' || c == '\x7b'

/-- The pattern that is looked up for a given one. -/
def effectivePattern (a : Answers) (given : Text) : Text :=
  if a.isDirectory given then dropEndWhile (· == '/') given ++ "/*.h".toList else given

/-- The path that a search has come to. -/
def foundPath (entry : Except Refused Text) : Except SourceError Text :=
  entry.mapError fun r => .unreadable r.path r.failure

/-- The paths that a given pattern stands for. -/
def lookUp (a : Answers) (given : Text) : Except SourceError (List Text) :=
  let pattern := effectivePattern a given
  if !isSearched pattern then .ok [pattern]
  else
    match a.found pattern with
    | .error e => .error (.badPattern pattern e)
    | .ok [] => .error (.nothingFound pattern)
    | .ok entries => entries.mapM foundPath

/-- Reads one header. -/
def loadSource (a : Answers) (path : Text) : Except SourceError SourceFile :=
  match a.read path with
  | .ok text => .ok ⟨path, text⟩
  | .error e => .error (.unreadable path e)

/-- **Loads the headers of some patterns.** -/
def loadSources (a : Answers) (patterns : List Text) :
    Except SourceError (List SourceFile) := do
  let paths ← patterns.mapM (lookUp a)
  paths.flatten.mapM (loadSource a)

/-! ### The whole input -/

/-- Loads the settings, or the default ones if no path is given. -/
def loadSettings (a : Answers) : Option Text → Except Error Settings
  | none => .ok .default
  | some path =>
    match a.read path with
    | .error e => .error (.settingsUnreadable path e)
    | .ok text =>
      match Settings.read text with
      | .error e => .error (.settingsRefused path e)
      | .ok s => .ok s

/-- The settings and the headers of both platforms. -/
structure Loaded where
  settings : Settings
  mobile : List SourceFile
  desktop : List SourceFile

/-- **Loads the whole input.** -/
def load (a : Answers) (inputs : Inputs) : Except Error Loaded := do
  let settings ← loadSettings a inputs.settings
  let mobile ← (loadSources a inputs.mobile).mapError (.sources .mobile)
  let desktop ← (loadSources a inputs.desktop).mapError (.sources .desktop)
  return ⟨settings, mobile, desktop⟩

end CommonHeaders.Command
