import CommonHeaders.Text.Blank

/-! # Paths

A path is a text of names between slashes. Names may be empty, a single point stands for the same
directory and two points for the one above it. Nothing here looks at a file tree.

* `parent?_length_lt`: the parent of a path is shorter than the path. -/

namespace CommonHeaders.Path

open Text

/-- The pieces of a path between its slashes. -/
def pieces (path : Text) : List Text := path.splitOn '/'

/-- Does the path start at the root? -/
def isAbsolute (path : Text) : Bool := path.head? == some '/'

/-- The name of the same directory. -/
def here : Text := ['.']

/-- The name of the directory above. -/
def above : Text := ['.', '.']

/-- Has the name more than 255 bytes? -/
def isLongName (name : Text) : Bool := (String.ofList name).utf8ByteSize > 255

/-- Has the path more than 4095 bytes? -/
def isTooLong (path : Text) : Bool := (String.ofList path).utf8ByteSize > 4095

/-- **A name below a path.** -/
def join (path name : Text) : Text :=
  if path.isEmpty ∨ path.getLast? = some '/' then path ++ name else path ++ '/' :: name

/-- Does the path name nothing but the working directory, in so many words? -/
def isHere (path : Text) : Bool :=
  path.head? == some '.' && (pieces path).all fun name => name.isEmpty || name == here

/-- A path in reverse without the slashes and the needless points at its end. The root and a single
point stay. -/
def trimTail : Text → Text
  | ['/'] => ['/']
  | '/' :: r => trimTail r
  | ['.', '/'] => ['/']
  | '.' :: '/' :: r => trimTail r
  | r => r

/-- **The path of the directory that holds the last name**; the root and the empty path have
none. -/
def parent? (path : Text) : Option Text :=
  match trimTail path.reverse with
  | [] => none
  | ['/'] => none
  | _ :: r => some (trimTail (r.dropWhile (· != '/'))).reverse

theorem trimTail_length_le (r : Text) : (trimTail r).length ≤ r.length := by
  fun_induction trimTail r <;> simp_all <;> omega

/-- The parent of a path is shorter than the path. -/
theorem parent?_length_lt {path p : Text} (h : parent? path = some p) : p.length < path.length := by
  have h1 := trimTail_length_le path.reverse
  simp only [parent?] at h
  split at h
  · simp at h
  · simp at h
  · rename_i c r _ hr
    simp only [Option.some.injEq] at h
    subst h
    have h2 := trimTail_length_le (r.dropWhile (· != '/'))
    have h3 := (List.dropWhile_sublist (l := r) (· != '/')).length_le
    rw [hr] at h1
    simp only [List.length_cons, List.length_reverse] at *
    omega

end CommonHeaders.Path
