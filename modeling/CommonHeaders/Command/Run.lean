import CommonHeaders.Command.Load
import CommonHeaders.Command.Summary
import CommonHeaders.Json.Document

/-! # Runs

A run carries out a request on a file system. It loads the input, unifies the headers, and writes
the model or the summary to the output, or the model to a file. A run that fails says why on the
error output.

* `run_of_load_error`: a run whose input cannot be loaded writes nothing but its message and changes
  nothing. -/

namespace CommonHeaders.Command

open Files Text

/-! ### Outcomes -/

/-- **What a run leaves behind.** -/
structure RunOutcome where
  code : Nat
  output : Text
  errors : Text
  changes : List FileSystem.Change

namespace RunOutcome

/-- The run that writes a text to the output. -/
def printed (t : Text) : RunOutcome := ⟨0, t, [], []⟩

/-- The run that fails, after some changes. -/
def failed (colours : Bool) (e : Error) (changes : List FileSystem.Change) : RunOutcome :=
  ⟨1, [], Style.red.paint colours "error:".toList ++ ' ' :: e.message ++ ['\n'], changes⟩

/-- The run whose arguments make no sense. -/
def misused : RunOutcome := ⟨2, [], usage, []⟩

end RunOutcome

/-! ### Requests -/

/-- The model of the loaded headers. -/
def Loaded.model (l : Loaded) : UnifiedModel := unifyFiles l.settings l.mobile l.desktop

/-- Writes a file, and makes the directories above it: the changes made, and the error that ended
them, if there was one. -/
def writeTarget (fs : FileSystem) (target content : Text) :
    List FileSystem.Change × Option Error :=
  let directory := (Path.parent? target).getD []
  let (changes, failure) := fs.makeDirectories directory
  match failure with
  | some e => (changes, some (.directoryNotMade directory e))
  | none =>
    match (fs.apply changes).writeFile target content with
    | .ok change => (changes ++ [change], none)
    | .error e => (changes, some (.fileNotWritten target e))

/-- Writes the model. -/
def runModel (colours : Bool) (fs : FileSystem) (model : UnifiedModel) :
    Option Text → RunOutcome
  | none => .printed (model.document.render ++ ['\n'])
  | some target =>
    match writeTarget fs target model.document.render with
    | (changes, some e) => .failed colours e changes
    | (changes, none) => { RunOutcome.printed [] with changes := changes }

/-- **Carries out a request** on a file system and its answers. -/
def runRequest (colours : Bool) (a : Answers) (fs : FileSystem) : Request → RunOutcome
  | .help => .printed usage
  | .model inputs target =>
    match load a inputs with
    | .error e => .failed colours e []
    | .ok loaded => runModel colours fs loaded.model target
  | .summary inputs members =>
    match load a inputs with
    | .error e => .failed colours e []
    | .ok loaded => .printed (Summary.render colours members loaded.model)

/-- **A run with some arguments** that asks for answers and writes to a file system. -/
def runOn (colours : Bool) (a : Answers) (fs : FileSystem) (arguments : List Text) : RunOutcome :=
  match parse arguments with
  | none => .misused
  | some request => runRequest colours a fs request

/-- **A run on a file system**, which gives the answers itself. -/
def run (colours : Bool) (fs : FileSystem) (arguments : List Text) : RunOutcome :=
  runOn colours fs.answers fs arguments

/-! ### Failed runs -/

/-- A run whose input cannot be loaded writes nothing but its message and changes nothing. -/
theorem run_of_load_error {colours : Bool} {a : Answers} {fs : FileSystem} {arguments : List Text}
    {request : Request} {inputs : Inputs} {e : Error} (hp : parse arguments = some request)
    (hi : request.inputs? = some inputs) (hl : load a inputs = .error e) :
    runOn colours a fs arguments = .failed colours e [] := by
  cases request with
  | help => simp [Request.inputs?] at hi
  | model inputs' target =>
    obtain rfl : inputs' = inputs := by simpa [Request.inputs?] using hi
    simp [runOn, hp, runRequest, hl]
  | summary inputs' members =>
    obtain rfl : inputs' = inputs := by simpa [Request.inputs?] using hi
    simp [runOn, hp, runRequest, hl]

end CommonHeaders.Command
