import CommonHeaders.Text.Blank

/-! # Comments

Comments are taken out of a header line by line. A line is read in one of three modes: code, inside
a block comment, inside a string. A block comment leaves one space where it opens and may go on in
the next line; a string ends at the end of its line, unless the line break is escaped. Line breaks
are never taken out, so every declaration stays on its line. A block comment that never closes
takes the rest of the header with it.

* `stripLines_length`: no line is lost and none is added. -/

namespace CommonHeaders.Comments

open Text

/-- What the reader is inside of. -/
inductive Mode where
  | code
  | block
  | quoted
deriving DecidableEq, Inhabited

/-- One more character in front of what is kept of a line. -/
def keep (c : Char) (r : Text × Mode) : Text × Mode := (c :: r.1, r.2)

/-- **One line without its comments**, and the mode in which the next line starts. -/
def stripLine : Mode → Text → Text × Mode
  | .code, [] => ([], .code)
  | .code, '/' :: '/' :: _ => ([], .code)
  | .code, '/' :: '*' :: r => keep ' ' (stripLine .block r)
  | .code, '"' :: r => keep '"' (stripLine .quoted r)
  | .code, c :: r => keep c (stripLine .code r)
  | .block, [] => ([], .block)
  | .block, '*' :: '/' :: r => stripLine .code r
  | .block, _ :: r => stripLine .block r
  | .quoted, [] => ([], .code)
  | .quoted, ['\\'] => (['\\'], .quoted)
  | .quoted, '\\' :: c :: r => keep '\\' (keep c (stripLine .quoted r))
  | .quoted, '"' :: r => keep '"' (stripLine .code r)
  | .quoted, c :: r => keep c (stripLine .quoted r)

/-- The lines without their comments, and the mode at their end. -/
def stripLines (mode : Mode) : List Text → List Text × Mode
  | [] => ([], mode)
  | line :: rest =>
    let (kept, next) := stripLine mode line
    let (lines, last) := stripLines next rest
    (kept :: lines, last)

/-- **A header without its comments.** -/
def strip (t : Text) : Text :=
  let (lines, last) := stripLines .code (t.splitOn '\n')
  if last = .block then dropEndWhile (fun c => c == '\n' || c == ' ') (join ['\n'] lines)
  else join ['\n'] lines

theorem stripLines_length (mode : Mode) (lines : List Text) :
    (stripLines mode lines).1.length = lines.length := by
  induction lines generalizing mode with
  | nil => rfl
  | cons line rest ih => simp [stripLines, ih]

end CommonHeaders.Comments
