import CommonHeaders.Text.Blank

/-! # Arguments

The first argument says what is wanted, a model or a summary. Options follow: the headers of either
platform, which take one or more values each time they are given and must be given, the settings,
and what belongs to the wanted output. A value starts with a dash only if it is a dash; a long
option may have its single value behind an equals sign, the short one in the same argument. Help is
given as soon as it is asked for; what stands behind the letter in its argument does not matter. -/

namespace CommonHeaders.Command

open Text

/-- The input of a run: patterns of headers and a path of settings. -/
structure Inputs where
  mobile : List Text
  desktop : List Text
  settings : Option Text
deriving DecidableEq

/-- **What is wanted.** -/
inductive Request where
  /-- The model, written to a file or to the output. -/
  | model (inputs : Inputs) (target : Option Text)
  /-- The summary, with or without the members. -/
  | summary (inputs : Inputs) (members : Bool)
  /-- Help with the arguments. -/
  | help
deriving DecidableEq

/-- The input of a request. -/
def Request.inputs? : Request → Option Inputs
  | .model inputs _ => some inputs
  | .summary inputs _ => some inputs
  | .help => none

/-! ### Options -/

/-- The two kinds of output. -/
inductive Wanted where
  | model
  | summary
deriving DecidableEq

/-- The options. -/
inductive Opt where
  | mobile
  | desktop
  | settings
  | target
  | members
  | help
deriving DecidableEq

namespace Opt

/-- Does the option take values? -/
def takesValue : Opt → Bool
  | members => false
  | help => false
  | _ => true

/-- Does the option take more than one value at a time? -/
def takesMany : Opt → Bool
  | mobile => true
  | desktop => true
  | _ => false

end Opt

/-- The long names of the options that belong to an output. -/
def longNames : Wanted → List (String × Opt)
  | .model =>
    [("mobile", .mobile), ("desktop", .desktop), ("config", .settings), ("out", .target),
      ("help", .help)]
  | .summary =>
    [("mobile", .mobile), ("desktop", .desktop), ("config", .settings), ("members", .members),
      ("help", .help)]

/-- The short names of the options that belong to an output. -/
def shortNames : Wanted → List (Char × Opt)
  | .model => [('o', .target), ('h', .help)]
  | .summary => [('h', .help)]

/-- What has been read of the options. -/
structure Given where
  mobile : List Text := []
  desktop : List Text := []
  settings : Option Text := none
  target : Option Text := none
  members : Bool := false

namespace Given

/-- Sets a path, which may not be empty and may be given once. -/
def setPath (old : Option Text) (value : Text) : Option (Option Text) :=
  if old.isSome ∨ value.isEmpty then none else some (some value)

/-- Takes the value of an option. -/
def take (g : Given) (value : Text) : Opt → Option Given
  | .mobile => some { g with mobile := g.mobile ++ [value] }
  | .desktop => some { g with desktop := g.desktop ++ [value] }
  | .settings => (setPath g.settings value).map fun settings => { g with settings := settings }
  | .target => (setPath g.target value).map fun target => { g with target := target }
  | .members => none
  | .help => none

/-- The request that the options make up. -/
def toRequest (g : Given) (wanted : Wanted) : Option Request :=
  if g.mobile.isEmpty ∨ g.desktop.isEmpty then none
  else
    let inputs : Inputs := ⟨g.mobile, g.desktop, g.settings⟩
    match wanted with
    | .model => some (.model inputs g.target)
    | .summary => some (.summary inputs g.members)

end Given

/-! ### Reading -/

/-- The option that is open for values: it lacks one, or it may have more. -/
inductive Awaiting where
  | nothing
  | value (o : Opt)
  | more (o : Opt)
deriving DecidableEq

/-- What an option leads to: help at once, or what is given with it. -/
inductive OptionRead where
  | help
  | given (g : Given) (awaiting : Awaiting)

/-- Takes a value for the open option. -/
def takeOpen (g : Given) (value : Text) : Awaiting → Option OptionRead
  | .nothing => none
  | .value o => (g.take value o).map fun g => .given g (if o.takesMany then .more o else .nothing)
  | .more o => (g.take value o).map fun g => .given g (.more o)

/-- Opens an option, with the value that stands in the same argument. -/
def openOption (g : Given) (attached : Option Text) (o : Opt) : Option OptionRead :=
  match o, attached with
  | .help, none => some .help
  | .members, none => if g.members then none else some (.given { g with members := true } .nothing)
  | o, some value => (g.take value o).map fun g => .given g .nothing
  | o, none => some (.given g (.value o))

/-- A long option behind its dashes, cut at the first equals sign. -/
def readLong (wanted : Wanted) (g : Given) (t : Text) : Option OptionRead :=
  let (name, attached) :=
    match cutAt? '=' t with
    | some (name, value) => (name, some value)
    | none => (t, none)
  ((longNames wanted).find? fun e => e.1.toList == name).bind fun e => openOption g attached e.2

/-- A short option behind its dash. What follows the letter is its value, an equals sign in front
of it left out. -/
def readShort (wanted : Wanted) (g : Given) : Text → Option OptionRead
  | [] => none
  | c :: r =>
    ((shortNames wanted).lookup c).bind fun o =>
      if r.isEmpty ∨ !o.takesValue then openOption g none o
      else openOption g (some (if r.head? = some '=' then r.drop 1 else r)) o

/-- Reads one argument: an option, or a value of the open one. -/
def readOption (wanted : Wanted) (g : Given) (awaiting : Awaiting) (t : Text) : Option OptionRead :=
  match t with
  | '-' :: c :: r =>
    match awaiting with
    | .value _ => none
    | _ => if c = '-' then readLong wanted g r else readShort wanted g (c :: r)
  | value => takeOpen g value awaiting

/-- **Reads the options.** Two dashes end them, and nothing may stand behind. -/
def readOptions (wanted : Wanted) (g : Given) (awaiting : Awaiting) : List Text → Option Request
  | [] =>
    match awaiting with
    | .value _ => none
    | _ => g.toRequest wanted
  | t :: rest =>
    if t = ['-', '-'] then
      match awaiting with
      | .value _ => none
      | _ => if rest.isEmpty then g.toRequest wanted else none
    else
      match readOption wanted g awaiting t with
      | none => none
      | some .help => some .help
      | some (.given g awaiting) => readOptions wanted g awaiting rest

/-- What help may be asked for. -/
def helpTopics : List (List Text) := [[], ["model".toList], ["summary".toList], ["help".toList]]

/-- **Reads the arguments**, or nothing if they make no sense. -/
def parse : List Text → Option Request
  | [] => none
  | t :: rest =>
    if t = "model".toList then readOptions .model {} .nothing rest
    else if t = "summary".toList then readOptions .summary {} .nothing rest
    else if t.take 2 = "-h".toList ∨ t = "--help".toList then some .help
    else if t = "help".toList ∧ helpTopics.contains rest then some .help
    else none

/-- The help text, in a wording of its own. -/
def usage : Text :=
  let headers := " --mobile HEADERS... --desktop HEADERS... [--config FILE]".toList
  "usage: common-headers model".toList ++ headers ++ " [--out FILE]\n".toList ++
    "       common-headers summary".toList ++ headers ++ " [--members]\n".toList

end CommonHeaders.Command
