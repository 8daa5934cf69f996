import CommonHeaders.Header.Scan

/-! # What a line is used for

A line is not always taken for what it says. While a declaration waits, a line that begins nothing
new only continues it, and while an enumeration is open, such a line lists its members unless it
opens another one. Every other line does what it says, and drops the waiting declaration and leaves
the open enumeration before it does.

* `addMember_eq`, `corpus_modifyPlace_cases`: a member is read and put into the open interface.
* `enumBody_eq`: the members on one line are put behind those of the open enumeration.
* `feed_eq`: feeding a line, by what the line is used for. -/

namespace CommonHeaders

open Text

/-! ### Members -/

/-- A member of an interface. -/
inductive Declared where
  | method (m : Method)
  | property (p : Property)
deriving DecidableEq

/-- Under what a member is kept: a method under its selector, a property under its name. -/
inductive Slot where
  | method (key : Text)
  | property (name : Text)
deriving DecidableEq

namespace Declared

/-- The member that a complete declaration declares, if it can be read. -/
def ofText? (text : Text) : Option Declared :=
  if "@property".toList.isPrefixOf (trimStart text) then (Property.parse text).map property
  else (Method.parse text).map method

/-- Under what the member is kept. -/
def slot : Declared → Slot
  | method m => .method m.key
  | property p => .property p.name

/-- Is the member marked as required? -/
def required : Declared → Bool
  | method m => m.flags.required
  | property p => p.required

/-- The member, marked as required or not. -/
def withRequired (required : Bool) : Declared → Declared
  | method m => method { m with flags := { m.flags with required := required } }
  | property p => property { p with required := required }

@[simp] theorem slot_withRequired (required : Bool) (d : Declared) :
    (d.withRequired required).slot = d.slot := by cases d <;> rfl

@[simp] theorem required_withRequired (required : Bool) (d : Declared) :
    (d.withRequired required).required = required := by cases d <;> rfl

end Declared

namespace Interface

/-- The interface with one more member, in place of one that is kept under the same. -/
def addDeclared (i : Interface) : Declared → Interface
  | .method m => i.addMethod m
  | .property p => i.addProperty p

/-- The member of the interface that is kept in a slot. -/
def at? (i : Interface) : Slot → Option Declared
  | .method key => (i.methods.get? key).map .method
  | .property name => (i.properties.get? name).map .property

theorem at?_addDeclared (i : Interface) (d : Declared) (slot : Slot) :
    (i.addDeclared d).at? slot = if d.slot = slot then some d else i.at? slot := by
  cases d <;> cases slot <;>
    simp only [addDeclared, addMethod, addProperty, at?, Declared.slot, Slot.method.injEq,
      Slot.property.injEq, Table.get?_insert, reduceCtorEq, if_false]
  all_goals split <;> rfl

end Interface

/-! ### Places -/

namespace Corpus

/-- The interface in a place. -/
def interfaceAt? (c : Corpus) : Place → Option Interface
  | .inClass name => c.classes.get? name
  | .inProtocol name => c.protocols.get? name

/-- The member in a slot of the interface in a place. -/
def memberAt? (c : Corpus) (place : Place) (slot : Slot) : Option Declared :=
  (c.interfaceAt? place).bind (·.at? slot)

/-- The corpus with an interface in a place, instead of what is there. -/
def put (c : Corpus) (i : Interface) : Place → Corpus
  | .inClass name => { c with classes := c.classes.insert name i }
  | .inProtocol name => { c with protocols := c.protocols.insert name i }

theorem interfaceAt?_put (c : Corpus) (i : Interface) (place place' : Place) :
    (c.put i place).interfaceAt? place' =
      if place = place' then some i else c.interfaceAt? place' := by
  cases place <;> cases place' <;>
    simp only [put, interfaceAt?, Table.get?_insert, Place.inClass.injEq, Place.inProtocol.injEq,
      reduceCtorEq, if_false]

@[simp] theorem enums_put (c : Corpus) (i : Interface) (place : Place) :
    (c.put i place).enums = c.enums := by cases place <;> rfl

end Corpus

namespace Scan

variable {settings : Settings} {s : Scan}

theorem addMember_eq (s : Scan) (text : Text) :
    s.addMember text =
      match Declared.ofText? text with
      | some d => s.modifyPlace (·.addDeclared (d.withRequired s.requiresMember))
      | none => s := by
  unfold addMember Declared.ofText?
  split
  · cases Property.parse text <;> rfl
  · cases Method.parse text <;> rfl

/-- A change of the open interface puts the changed one in its place, if there is one. -/
theorem corpus_modifyPlace_cases (s : Scan) (f : Interface → Interface) :
    (s.modifyPlace f).corpus = s.corpus ∧
        (∀ place, s.place = some place → s.corpus.interfaceAt? place = none) ∨
      ∃ place i, s.place = some place ∧ s.corpus.interfaceAt? place = some i ∧
        (s.modifyPlace f).corpus = s.corpus.put (f i) place := by
  unfold modifyPlace
  cases hplace : s.place with
  | none => exact Or.inl ⟨rfl, fun _ h => by simp at h⟩
  | some place =>
    cases hat : s.corpus.interfaceAt? place with
    | none =>
      refine Or.inl ⟨?_, fun place' h => Option.some.inj h ▸ hat⟩
      cases place <;> simp only [Corpus.interfaceAt?] at hat <;> simp only [Table.modify, hat]
    | some i =>
      refine Or.inr ⟨place, i, rfl, hat, ?_⟩
      cases place <;> simp only [Corpus.interfaceAt?] at hat <;>
        simp only [Table.modify, hat, Corpus.put]

/-- The text up to the first closing brace. -/
def beforeBrace (text : Text) : Text := ((cutAt? '\x7d' text).map Prod.fst).getD text

/-- The members listed on one line of an enumeration body. -/
def listedMembers (text : Text) : List Member :=
  (bodyItems (beforeBrace text)).filterMap enumMember?

theorem enumBody_eq {name : Text} (h : s.enumeration = some name) (text : Text) :
    s.enumBody text = { s with
      corpus := { s.corpus with
        enums := s.corpus.enums.modify name fun e =>
          { e with members := e.members ++ listedMembers text } }
      enumeration := if (cutAt? '\x7d' text).isSome then none else some name } := by
  unfold enumBody listedMembers beforeBrace
  rw [h]
  cases cutAt? '\x7d' text <;> rfl

/-! ### Uses -/

/-- **What a line is used for.** -/
inductive Use where
  /-- The line does what it says. -/
  | acts
  /-- The line completes the waiting declaration to the text. -/
  | completes (text : Text)
  /-- The waiting declaration, with the line the text, goes on waiting. -/
  | waits (text : Text)
  /-- The line lists members of the open enumeration. -/
  | lists
deriving DecidableEq

/-- What the next line is used for. -/
def use (s : Scan) (line : Text) : Use :=
  if startsDeclaration line then .acts
  else
    match s.pending with
    | some waiting =>
      let joined := waiting ++ ' ' :: trim line
      if ';' ∈ joined then .completes joined else .waits joined
    | none => if s.enumeration.isSome && !opensEnum line then .lists else .acts

/-- What the next line is taken for: what it says, if it is not used up otherwise. -/
def processed (s : Scan) (line : Text) : Line :=
  match s.use line with
  | .acts => Line.classify line
  | _ => .other

/-- The scan outside of any unfinished declaration and enumeration. -/
def released (s : Scan) : Scan := { s with pending := none, enumeration := none }

/-- **Feeding a line**, by what the line is used for. -/
theorem feed_eq (settings : Settings) (s : Scan) (line : Text) :
    s.feed settings line =
      match s.use line with
      | .acts => s.released.feedLine settings line
      | .completes text => { s with pending := none }.addMember text
      | .waits text => { s with pending := some text }
      | .lists => s.enumBody line := by
  obtain ⟨corpus, place, enumeration, required, deprecated, pending⟩ := s
  cases hnew : startsDeclaration line with
  | true => cases pending <;> cases enumeration <;> simp [feed, feedOpen, use, released, hnew]
  | false =>
    cases pending with
    | none =>
      cases hopens : opensEnum line <;> cases enumeration <;>
        simp [feed, feedOpen, use, released, hnew, hopens]
    | some waiting =>
      simp only [feed, use, hnew, List.contains_eq_mem, decide_eq_true_eq, Bool.false_eq_true,
        if_false]
      split <;> rfl

end Scan

end CommonHeaders
