import CommonHeaders.Json.Token
import CommonHeaders.Settings
import CommonHeaders.Text.Quoted

/-! # Reading settings

Settings are written as a json record, whose fields may come in any order and may be missing, or as
a list of the same values in a fixed order, which may be cut short. What is missing has its default.
What stands behind the record or the list is not looked at.

A refusal says where in the value it arose, as a path, and at which place of the text.

* `chained?_of_read`: settings that have been read have no chained substitution.
* `nextName_count_lt`, `readColon_count_lt`, `readText_count_lt`: each step of reading takes tokens,
  so that reading ends. -/

namespace CommonHeaders

open Json Text

namespace Settings

/-! ### Refusals -/

/-- A step from a value to a part of it. -/
inductive Step where
  | name (n : Text)
  | item (i : Nat)
  /-- A part whose name has not been read. -/
  | unnamed
deriving DecidableEq

/-- The fields of the settings. -/
inductive Field where
  | geometry
  | enumRenames
  | protectedMarker
deriving DecidableEq

namespace Field

/-- The fields in the order of a list. -/
def all : List Field := [geometry, enumRenames, protectedMarker]

def name : Field → String
  | geometry => "geometry"
  | enumRenames => "enum_renames"
  | protectedMarker => "protected_category_marker"

/-- The field with a name. -/
def ofName? (n : Text) : Option Field := all.find? fun f => f.name.toList == n

end Field

/-- Why a text is refused. -/
inductive Reason where
  | malformed (fault : Fault)
  | wrongType (found : Text) (expected : String)
  | unknownField (name : Text)
  | repeatedField (field : Field)

/-- **A refusal**: the way to the refused part, the reason and the place in the text. -/
structure Refusal where
  path : List Step
  reason : Reason
  position : Position

namespace Reason

/-- A name between backquotes. -/
def ticked (t : Text) : Text := '\x60' :: (t ++ ['\x60'])

/-- The wording of a reason. -/
def message : Reason → Text
  | malformed fault => fault.message.toList
  | wrongType found expected =>
    "invalid type: ".toList ++ found ++ ", expected ".toList ++ expected.toList
  | unknownField name =>
    "unknown field ".toList ++ ticked name ++ ", expected one of ".toList ++
      join ", ".toList (Field.all.map fun f => ticked f.name.toList)
  | repeatedField field => "duplicate field ".toList ++ ticked field.name.toList

end Reason

/-- A step of a path; a point stands before it unless it is the first step or an item. -/
def Step.render (first : Bool) : Step → Text
  | .name n => (if first then [] else ['.']) ++ n
  | .item i => '[' :: (Nat.toDigits 10 i ++ [']'])
  | .unnamed => (if first then [] else ['.']) ++ ['?']

/-- The written form of a path. -/
def renderPath : List Step → Text
  | [] => ['.']
  | s :: rest => s.render true ++ rest.flatMap (Step.render false)

/-- The wording of a refusal. -/
def Refusal.message (r : Refusal) : Text :=
  "at ".toList ++ renderPath r.path ++ " → ".toList ++ r.reason.message ++ " at line ".toList ++
    Nat.toDigits 10 r.position.line ++ " column ".toList ++ Nat.toDigits 10 r.position.column

/-- The refusal of a malformed text. -/
def malformed (path : List Step) (f : Failure) : Refusal := ⟨path, .malformed f.fault, f.position⟩

/-! ### Values -/

/-- What a plain value is called. -/
def describe : Plain → Text
  | .null => "null".toList
  | .bool b => "boolean ".toList ++ Reason.ticked (toString b).toList
  | .number n@(.integer _ _) => "integer ".toList ++ Reason.ticked n.render
  | .number n@(.binary _ _) => "floating point ".toList ++ Reason.ticked n.render

/-- The refusal of a value of another type. -/
def refuse (path : List Step) (expected : String) : Tokens → Refusal
  | .ending p => malformed path ⟨.valueMissing, p⟩
  | .token t _ =>
    match t.lexeme with
    | .mark '[' => ⟨path, .wrongType "sequence".toList expected, t.start⟩
    | .mark '\x7b' => ⟨path, .wrongType "map".toList expected, t.start⟩
    | .mark _ => malformed path ⟨.valueExpected, t.intoStart⟩
    | .quoted (.ok s) => ⟨path, .wrongType ("string ".toList ++ inQuotes s) expected, t.stop⟩
    | .plain (.ok v) => ⟨path, .wrongType (describe v) expected, t.stop⟩
    | .quoted (.error f) => malformed path f
    | .plain (.error f) => malformed path f

/-- Reads a text. -/
def readText (path : List Step) : Tokens → Except Refusal (Text × Tokens)
  | .token ⟨.quoted (.ok s), _, _⟩ rest => .ok (s, rest)
  | ts => .error (refuse path "a string" ts)

/-! ### Records -/

/-- Reads the name of a field, behind its comma if it has one. -/
def readName (path : List Step) (commaBefore : Bool) : Tokens → Except Refusal (Text × Tokens)
  | .ending p => .error (malformed path ⟨.valueMissing, p⟩)
  | .token t rest =>
    match t.lexeme with
    | .quoted (.ok s) => .ok (s, rest)
    | .quoted (.error f) => .error (malformed path f)
    | .mark c =>
      if c = '\x7d' ∧ commaBefore then .error (malformed path ⟨.commaBeforeEnd, t.intoStart⟩)
      else .error (malformed path ⟨.nameNotText, t.intoStart⟩)
    | .plain _ => .error (malformed path ⟨.nameNotText, t.intoStart⟩)

/-- **Reads the name of the next field**, with the comma before it, or the end of the record. -/
def nextName (path : List Step) (first : Bool) :
    Tokens → Except Refusal (Option Text × Tokens)
  | .ending p => .error (malformed (path ++ [.unnamed]) ⟨.recordUnclosed, p⟩)
  | .token t rest =>
    match t.lexeme, first with
    | .mark '\x7d', _ => .ok (none, rest)
    | .mark ',', false =>
      (readName (path ++ [.unnamed]) true rest).map fun (name, rest) => (some name, rest)
    | _, false => .error (malformed (path ++ [.unnamed]) ⟨.recordGoesOn, t.intoStart⟩)
    | _, true =>
      (readName (path ++ [.unnamed]) false (.token t rest)).map fun (name, rest) =>
        (some name, rest)

/-- Reads the colon behind a name. -/
def readColon (path : List Step) : Tokens → Except Refusal Tokens
  | .token ⟨.mark ':', _, _⟩ rest => .ok rest
  | ts => .error (malformed path (ts.failure .recordUnclosed .colonExpected))

theorem readText_count_lt {path : List Step} {ts rest : Tokens} {s : Text}
    (h : readText path ts = .ok (s, rest)) : rest.count < ts.count := by
  simp only [readText] at h
  split at h <;> simp at h
  obtain ⟨_, rfl⟩ := h
  simp [Tokens.count]

theorem readName_count_lt {path : List Step} {comma : Bool} {ts rest : Tokens} {s : Text}
    (h : readName path comma ts = .ok (s, rest)) : rest.count < ts.count := by
  simp only [readName] at h
  split at h
  · simp at h
  · split at h
    · simp at h
      obtain ⟨_, rfl⟩ := h
      simp [Tokens.count]
    · simp at h
    · split at h <;> simp at h
    · simp at h

theorem someName_count_lt {path : List Step} {comma : Bool} {ts rest : Tokens} {n : Option Text}
    (h : (readName path comma ts).map (fun (name, rest) => (some name, rest)) = .ok (n, rest)) :
    rest.count < ts.count := by
  cases hn : readName path comma ts with
  | error e => simp [hn, Except.map] at h
  | ok a =>
    simp only [hn, Except.map, Except.ok.injEq, Prod.mk.injEq] at h
    exact h.2 ▸ readName_count_lt hn

theorem nextName_count_lt {path : List Step} {first : Bool} {ts rest : Tokens} {n : Option Text}
    (h : nextName path first ts = .ok (n, rest)) : rest.count < ts.count := by
  simp only [nextName] at h
  split at h
  · simp at h
  · split at h
    · simp at h
      obtain ⟨_, rfl⟩ := h
      simp [Tokens.count]
    · have := someName_count_lt h
      simp only [Tokens.count]
      omega
    · simp at h
    · exact someName_count_lt h

theorem readColon_count_lt {path : List Step} {ts rest : Tokens}
    (h : readColon path ts = .ok rest) : rest.count < ts.count := by
  simp only [readColon] at h
  split at h <;> simp at h
  subst h
  simp [Tokens.count]

/-- **Reads the entries of a table**, all of them texts, and the end of the table. -/
def readEntries (path : List Step) (first : Bool) (table : Table Text) (ts : Tokens) :
    Except Refusal (Table Text × Tokens) :=
  match _h₁ : nextName path first ts with
  | .error e => .error e
  | .ok (none, rest) => .ok (table, rest)
  | .ok (some name, afterName) =>
    match _h₂ : readColon path afterName with
    | .error e => .error e
    | .ok afterColon =>
      match _h₃ : readText (path ++ [.name name]) afterColon with
      | .error e => .error e
      | .ok (value, rest) => readEntries path false (table.insert name value) rest
termination_by ts.count
decreasing_by
  have h₁ := nextName_count_lt _h₁
  have h₂ := readColon_count_lt _h₂
  have h₃ := readText_count_lt _h₃
  omega

/-- Reads a table. -/
def readTable (path : List Step) : Tokens → Except Refusal (Table Text × Tokens)
  | .token ⟨.mark '\x7b', _, _⟩ rest => readEntries path true .empty rest
  | ts => .error (refuse path "a map" ts)

/-! ### Settings -/

/-- Reads the value of a field into the settings. -/
def readField (s : Settings) (path : List Step) (ts : Tokens) :
    Field → Except Refusal (Settings × Tokens)
  | .geometry => (readTable path ts).map fun (t, rest) => ({ s with geometry := t }, rest)
  | .enumRenames => (readTable path ts).map fun (t, rest) => ({ s with enumRenames := t }, rest)
  | .protectedMarker =>
    (readText path ts).map fun (t, rest) => ({ s with protectedMarker := t }, rest)

/-- The place where a refused field is reported: behind the closing brace, if nothing else follows,
and before the next token otherwise. -/
def reportedAt : Tokens → Position
  | .token ⟨.mark '\x7d', _, stop⟩ _ => stop
  | ts => ts.position

/-- **Reads the fields of a record**, each at most once. -/
def readFields (unread : List Field) (first : Bool) (s : Settings) (ts : Tokens) :
    Except Refusal Settings :=
  match nextName [] first ts with
  | .error e => .error e
  | .ok (none, _) => .ok s
  | .ok (some name, afterName) =>
    match Field.ofName? name with
    | none => .error ⟨[.name name], .unknownField name, reportedAt afterName⟩
    | some field =>
      if _h : field ∈ unread then do
        let afterColon ← readColon [] afterName
        let (s, rest) ← readField s [.name name] afterColon field
        readFields (unread.erase field) false s rest
      else .error ⟨[], .repeatedField field, reportedAt afterName⟩
termination_by unread.length
decreasing_by
  rw [List.length_erase_of_mem _h]
  exact Nat.sub_lt (List.length_pos_of_mem _h) Nat.one_pos

/-- The end of a list that has had all its items. -/
def readListEnd : Tokens → Except Refusal Unit
  | .token ⟨.mark ']', _, _⟩ _ => .ok ()
  | .token ⟨.mark ',', _, _⟩ rest =>
    let fault := if rest.startsWith ']' then .commaBeforeEnd else .textBehindEnd
    .error (malformed [] (rest.failure fault fault))
  | ts => .error (malformed [] (ts.failure .listUnclosed .textBehindEnd))

/-- The tokens from the next item on, or nothing at the end of the list. -/
def nextItem (first : Bool) : Tokens → Except Refusal (Option Tokens)
  | .ending p => .error (malformed [] ⟨.listUnclosed, p⟩)
  | .token t rest =>
    match t.lexeme, first with
    | .mark ']', _ => .ok none
    | .mark ',', false =>
      if rest.count = 0 ∨ rest.startsWith ']' then
        .error (malformed [] (rest.failure .valueMissing .commaBeforeEnd))
      else .ok (some rest)
    | _, false => .error (malformed [] ⟨.listGoesOn, t.intoStart⟩)
    | _, true => .ok (some (.token t rest))

/-- **Reads the items of a list**, the first of which is the item `i`, into the fields in their
order. -/
def readItems (s : Settings) (i : Nat) (ts : Tokens) : List Field → Except Refusal Settings
  | [] => do
    readListEnd ts
    return s
  | field :: later => do
    match ← nextItem (i == 0) ts with
    | none => return s
    | some item =>
      let (s, rest) ← readField s [.item i] item field
      readItems s (i + 1) rest later

/-- What the settings as a whole are called in a refusal. -/
def wholeName : String := "struct UnifyConfig"

/-- Reads the settings from the tokens of a text. -/
def ofTokens : Tokens → Except Refusal Settings
  | .token ⟨.mark '\x7b', _, _⟩ rest => readFields Field.all true .default rest
  | .token ⟨.mark '[', _, _⟩ rest => readItems .default 0 rest Field.all
  | ts => .error (refuse [] wholeName ts)

/-- Why settings are not accepted. -/
inductive ReadError where
  | refused (r : Refusal)
  | chained (c : Chained)

/-- The wording of an error. -/
def ReadError.message : ReadError → Text
  | .refused r => r.message
  | .chained c =>
    "at .".toList ++ c.table.toList ++ '.' :: c.source ++ " → target ".toList ++
      Reason.ticked c.target ++ " is itself substituted".toList

/-- **Reads settings.** -/
def read (t : Text) : Except ReadError Settings :=
  match ofTokens (tokens t) with
  | .error r => .error (.refused r)
  | .ok s =>
    match s.chained? with
    | some c => .error (.chained c)
    | none => .ok s

/-- Settings that have been read have no chained substitution. -/
theorem chained?_of_read {t : Text} {s : Settings} (h : read t = .ok s) : s.chained? = none := by
  simp only [read] at h
  split at h
  · simp at h
  · split at h
    · simp at h
    · rename_i hs
      simp only [Except.ok.injEq] at h
      exact h ▸ hs

end Settings

end CommonHeaders
