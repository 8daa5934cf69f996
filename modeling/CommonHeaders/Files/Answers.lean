import CommonHeaders.Files.Search

/-! # What a file system answers

Who only reads asks three things of a file system: whether a path leads to a directory, which paths
a pattern finds, and what a file holds. The answers are kept apart from the tree that gives them,
since a system may have reasons to refuse that do not show in a tree. -/

namespace CommonHeaders.Files

open Text

/-- A path that a search comes to and may not look into. -/
structure Refused where
  path : Text
  failure : Failure
deriving DecidableEq

/-- **The answers of a file system.** -/
structure Answers where
  /-- Does the path lead to a directory? -/
  isDirectory : Text → Bool
  /-- Which paths does the pattern find, in their order? -/
  found : Text → Except PatternError (List (Except Refused Text))
  /-- What does the file hold? -/
  content : Text → Except Failure ByteArray

/-- The text that some bytes stand for. -/
def textOf (content : ByteArray) : Except Failure Text :=
  match String.fromUTF8? content with
  | some s => .ok s.toList
  | none => .error .notText

/-- **The text of a file.** -/
def Answers.read (a : Answers) (path : Text) : Except Failure Text := do
  textOf (← a.content path)

namespace FileSystem

/-- **The answers of a file tree.** Every directory may be looked into. -/
def answers (fs : FileSystem) : Answers where
  isDirectory := fs.isDirectory
  found pattern := (Search.ofPattern pattern).map fun s => (fs.search s).map .ok
  content := fs.content

/-- The text of a file. -/
def read (fs : FileSystem) (path : Text) : Except Failure Text := fs.answers.read path

end FileSystem

end CommonHeaders.Files
