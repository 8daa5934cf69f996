import CommonHeaders.Header.Comments
import CommonHeaders.Header.Line
import CommonHeaders.Corpus
import CommonHeaders.Settings

/-! # Scanning headers

The lines of a header are fed one after another into a scan, which fills a corpus. Between lines
the scan remembers

* the open interface and the open enumeration, if any,
* whether the members of a protocol are required, which they are until `@optional`,
* a deprecation seen, which keeps the next protocol on a class line from being adopted,
* a declaration that has not reached its semicolon.

Nothing is an error: lines that mean nothing here, members outside an interface and declarations
that cannot be read are passed over.

* `feed_of_pending`: a waiting declaration takes every line that does not begin something new. -/

namespace CommonHeaders

open Text

/-- The interface whose members are being read. -/
inductive Place where
  | inClass (name : Text)
  | inProtocol (name : Text)
deriving DecidableEq, Inhabited

/-- **A scan**: the corpus so far and what is remembered between lines. -/
structure Scan where
  corpus : Corpus
  place : Option Place := none
  enumeration : Option Text := none
  required : Bool := true
  deprecated : Bool := false
  pending : Option Text := none
deriving DecidableEq, Inhabited

namespace Scan

/-! ### Members -/

/-- The scan with the open interface changed. -/
def modifyPlace (s : Scan) (f : Interface → Interface) : Scan :=
  match s.place with
  | some (.inClass name) =>
    { s with corpus := { s.corpus with classes := s.corpus.classes.modify name f } }
  | some (.inProtocol name) =>
    { s with corpus := { s.corpus with protocols := s.corpus.protocols.modify name f } }
  | none => s

/-- Are members read now required ones? -/
def requiresMember (s : Scan) : Bool :=
  match s.place with
  | some (.inProtocol _) => s.required
  | _ => false

/-- A complete declaration of a method or a property. -/
def addMember (s : Scan) (text : Text) : Scan :=
  if "@property".toList.isPrefixOf (trimStart text) then
    match Property.parse text with
    | some p => s.modifyPlace (·.addProperty { p with required := s.requiresMember })
    | none => s
  else
    match Method.parse text with
    | some m =>
      s.modifyPlace (·.addMethod { m with flags := { m.flags with required := s.requiresMember } })
    | none => s

/-! ### Adoption -/

/-- The name of an item of an adoption list, behind the macros before it, and whether one of those
marks a deprecation. -/
def itemName (item : Text) : Option Text × Bool :=
  match _hn : identifier? (trimStart item) with
  | none => (none, false)
  | some (name, rest) =>
    if Attribute.isDeprecation name || Attribute.isMacroName name then
      match _hg : group? '(' ')' (trimStart rest) with
      | some (_, after) =>
        let (found, marked) := itemName after
        (found, marked || Attribute.isDeprecation name)
      | none =>
        let (found, marked) := itemName rest
        (found, marked || Attribute.isDeprecation name)
    else (some name, false)
termination_by item.length
decreasing_by
  · have h1 := identifier?_rest_lt _hn
    have h2 := group?_rest_lt _hg
    have h3 := length_trimStart_le rest
    have h4 := length_trimStart_le item
    omega
  · have h1 := identifier?_rest_lt _hn
    have h4 := length_trimStart_le item
    omega

/-- The names adopted by the items of a class line, and whether a deprecation is still to take
effect. -/
def adoptedByClass (deprecated : Bool) : List Text → List Text × Bool
  | [] => ([], deprecated)
  | item :: rest =>
    let (name, marked) := itemName item
    let deprecated := deprecated || marked
    match name with
    | none => adoptedByClass deprecated rest
    | some name =>
      if deprecated then adoptedByClass false rest
      else
        let (names, deprecated) := adoptedByClass deprecated rest
        (name :: names, deprecated)

/-- The items of an adoption list. -/
def adoptionItems (adopted : Option Text) : List Text :=
  match adopted with
  | some inside => splitItems ',' inside
  | none => []

/-- The names adopted on the line of a category or a protocol. -/
def adoptedNames (adopted : Option Text) : List Text :=
  (adoptionItems adopted).filterMap fun item => (itemName item).1

/-! ### Interfaces -/

/-- Opens a class. -/
def openClass (s : Scan) (name superclass : Text) (adopted : Option Text) (deprecated : Bool) :
    Scan :=
  let (names, deprecated) := adoptedByClass (s.deprecated || deprecated) (adoptionItems adopted)
  let known := (s.corpus.classes.get? name).getD (.newClass name none)
  let opened := (known.setSuperclass superclass).adoptAll names
  { s with
    corpus := { s.corpus with classes := s.corpus.classes.insert name opened }
    place := some (.inClass name)
    deprecated := deprecated }

/-- Opens a category of a class. A protected category leaves no interface open. -/
def openCategory (settings : Settings) (s : Scan) (className category : Text)
    (adopted : Option Text) : Scan :=
  if settings.isProtectedCategory category then { s with place := none }
  else
    let known := (s.corpus.classes.get? className).getD (.newClass className none)
    let opened := known.adoptAll (adoptedNames adopted)
    { s with
      corpus := { s.corpus with classes := s.corpus.classes.insert className opened }
      place := some (.inClass className) }

/-- Opens a protocol. -/
def openProtocol (s : Scan) (name : Text) (adopted : Option Text) : Scan :=
  let known := (s.corpus.protocols.get? name).getD (.newProtocol name)
  let opened := known.adoptAll (adoptedNames adopted)
  { s with
    corpus := { s.corpus with protocols := s.corpus.protocols.insert name opened }
    place := some (.inProtocol name)
    required := true }

/-! ### Enumerations -/

/-- The member that an item of an enumeration body declares, under its common name. -/
def enumMember? (item : Text) : Option Member :=
  let item := trim item
  if item.isEmpty || item.head? = some '#' then none
  else
    let (left, right) := (cutAt? '=' item).getD (item, [])
    (leadingIdentifier? (Attribute.strip .all left)).map fun name =>
      let value := Attribute.strip .calls right
      ⟨Naming.toUnified name, if value.isEmpty then none else some (Naming.unifyWords value)⟩

/-- The items of an enumeration body on one line. -/
def bodyItems (members : Text) : List Text :=
  splitItems ',' ((trimStart members).dropWhile (· == '\x7b'))

/-- The members declared on one line of the open enumeration; a closing brace ends it. -/
def enumBody (s : Scan) (text : Text) : Scan :=
  match s.enumeration with
  | none => s
  | some name =>
    let (members, closed) :=
      match cutAt? '\x7d' text with
      | some (before, _) => (before, true)
      | none => (text, false)
    let added := (bodyItems members).filterMap enumMember?
    { s with
      corpus := { s.corpus with
        enums := s.corpus.enums.modify name fun e => { e with members := e.members ++ added } }
      enumeration := if closed then none else some name }

/-- Opens an enumeration, in place of one of the same common name. -/
def openEnum (settings : Settings) (s : Scan) (kind : EnumKind) (underlying name : Text)
    (body : Option Text) : Scan :=
  let unified := settings.enumName (Naming.toUnified name)
  let declared : Enumeration := ⟨kind, TypeRef.parse underlying, unified, []⟩
  let opened := { s with
    corpus := { s.corpus with enums := s.corpus.enums.insert unified declared }
    enumeration := some unified }
  match body with
  | some body => opened.enumBody body
  | none => opened

/-! ### Lines -/

/-- Does the line begin with a directive or a new member? Such a line continues nothing. -/
def startsDeclaration (line : Text) : Bool :=
  (trimStart line).head?.any fun c => c == '@' || c == '-' || c == '+'

/-- Is the line an enumeration opening? -/
def opensEnum (line : Text) : Bool :=
  match Line.classify line with
  | .enumOpen .. => true
  | _ => false

/-- A method or property line: read at once if complete, kept for later if not. -/
def beginMember (s : Scan) (text : Text) : Scan :=
  if s.place.isNone then s
  else if text.contains ';' then s.addMember text
  else { s with pending := some text }

/-- A line by what it does. -/
def feedLine (settings : Settings) (s : Scan) (line : Text) : Scan :=
  match Line.classify line with
  | .classOpen name superclass adopted deprecated => s.openClass name superclass adopted deprecated
  | .categoryOpen className category adopted => s.openCategory settings className category adopted
  | .protocolOpen name adopted => s.openProtocol name adopted
  | .enumOpen kind underlying name body => s.openEnum settings kind underlying name body
  | .method text => s.beginMember text
  | .property text => s.beginMember text
  | .interfaceEnd => { s with place := none, required := true, deprecated := false }
  | .required => { s with required := true }
  | .optional => { s with required := false }
  | .deprecation => { s with deprecated := true }
  | .forward => s
  | .other => s

/-- A line while no declaration is waiting. -/
def feedOpen (settings : Settings) (s : Scan) (line : Text) : Scan :=
  if s.enumeration.isSome then
    if startsDeclaration line || opensEnum line then
      feedLine settings { s with enumeration := none } line
    else s.enumBody line
  else feedLine settings s line

/-- **Feeds one line**, free of comments. -/
def feed (settings : Settings) (s : Scan) (line : Text) : Scan :=
  match s.pending with
  | none => feedOpen settings s line
  | some waiting =>
    let cleared := { s with pending := none }
    if startsDeclaration line then feedOpen settings cleared line
    else
      let joined := waiting ++ ' ' :: trim line
      if joined.contains ';' then cleared.addMember joined
      else { s with pending := some joined }

/-- Feeds lines in order. -/
def feedAll (settings : Settings) (s : Scan) (lines : List Text) : Scan :=
  lines.foldl (feed settings) s

theorem feed_of_pending {settings : Settings} {s : Scan} {line waiting : Text}
    (hs : s.pending = some waiting) (hl : startsDeclaration line = false)
    (hj : (waiting ++ ' ' :: trim line).contains ';' = false) :
    feed settings s line = { s with pending := some (waiting ++ ' ' :: trim line) } := by
  simp only [feed, hs, hl, hj, Bool.false_eq_true, if_false]

theorem feedAll_append (settings : Settings) (s : Scan) (lines lines' : List Text) :
    s.feedAll settings (lines ++ lines') = (s.feedAll settings lines).feedAll settings lines' := by
  simp [feedAll]

theorem feedAll_concat (settings : Settings) (s : Scan) (lines : List Text) (line : Text) :
    s.feedAll settings (lines ++ [line]) = (s.feedAll settings lines).feed settings line :=
  feedAll_append settings s lines [line]

end Scan

/-! ### Files -/

namespace Corpus

/-- A line without the carriage return before its line break. -/
def dropReturn (line : Text) : Text := if line.getLast? = some '\r' then line.dropLast else line

/-- The lines of a text. A line break at the very end starts no further line. -/
def linesOf (t : Text) : List Text :=
  let parts := t.splitOn '\n'
  parts.dropLast.map dropReturn ++ parts.getLast?.toList.filter fun last => !last.isEmpty

/-- The corpus after some lines, free of comments, have been fed; a declaration left waiting is
dropped. -/
def feedLines (settings : Settings) (c : Corpus) (lines : List Text) : Corpus :=
  (Scan.feedAll settings { corpus := c } lines).corpus

/-- **The corpus after one more header has been scanned.** -/
def scanText (settings : Settings) (c : Corpus) (text : Text) : Corpus :=
  c.feedLines settings (linesOf (Comments.strip text))

/-- The files in the order of their names, equal names in the order given. -/
def inNameOrder (files : List SourceFile) : List SourceFile :=
  files.mergeSort fun a b => !decide (b.name < a.name)

/-- **The corpus of some headers.** They are scanned in the order of their names, so that of two
declarations the same one counts however the headers are handed in. -/
def ofFiles (settings : Settings) (files : List SourceFile) : Corpus :=
  (inNameOrder files).foldl (fun c f => c.scanText settings f.text) empty

end Corpus

end CommonHeaders
