import CommonHeaders.Proofs.LineUses
import CommonHeaders.Proofs.ScanOverlay
import Mathlib.Data.List.Induction

/-! # Which members are required

Members of a protocol are required from its opening on, until `@optional`, and again from
`@required` on; `@end` makes them required as well. These marks count wherever they stand, since a
line that begins with a mark is never used up by what is unfinished. A member is marked when its
declaration is finished, and members of classes never are.

* `memberAt?_feed`: a line stores the member whose declaration it finishes, and nothing else.
* `required_feed`, `required_feedAll`: what a line, and what a run of lines, does to the mark.
* `stored_required_iff`: the members stored over a run, by the marks before them. -/

namespace CommonHeaders

open Text

namespace Line

/-- The declaration on a line of a member. -/
def declaration? : Line → Option Text
  | method text => some text
  | property text => some text
  | _ => none

end Line

namespace Corpus

theorem memberAt?_put (c : Corpus) (i : Interface) (place place' : Place) (slot : Slot) :
    (c.put i place).memberAt? place' slot =
      if place = place' then i.at? slot else c.memberAt? place' slot := by
  rw [memberAt?, interfaceAt?_put]
  split <;> rfl

/-- An interface with the members of the one in its place, if there is one, keeps all members. -/
theorem memberAt?_put_of_same {c : Corpus} {i : Interface} (place : Place) (new : Interface)
    (h : ∀ slot, i.at? slot = ((c.interfaceAt? place).getD new).at? slot)
    (hnew : ∀ slot, new.at? slot = none) (place' : Place) (slot : Slot) :
    (c.put i place).memberAt? place' slot = c.memberAt? place' slot := by
  rw [memberAt?_put]
  split
  · rename_i he
    subst he
    rw [h, memberAt?]
    cases c.interfaceAt? place with
    | none => exact hnew slot
    | some old => rfl
  · rfl

end Corpus

namespace Interface

theorem at?_newClass (name : Text) (superclass : Option Text) (slot : Slot) :
    (newClass name superclass).at? slot = none := by cases slot <;> rfl

theorem at?_newProtocol (name : Text) (slot : Slot) : (newProtocol name).at? slot = none := by
  cases slot <;> rfl

theorem at?_adoptAll (i : Interface) (names : List Text) (slot : Slot) :
    (i.adoptAll names).at? slot = i.at? slot := by cases slot <;> rfl

theorem at?_setSuperclass (i : Interface) (name : Text) (slot : Slot) :
    (i.setSuperclass name).at? slot = i.at? slot := by
  unfold setSuperclass
  cases i.kind <;> cases slot <;> rfl

end Interface

namespace Scan

variable {settings : Settings} {s : Scan}

/-! ### What a line stores -/

/-- **The declaration that the next line finishes**, if any. -/
def finished? (s : Scan) (line : Text) : Option Text :=
  match s.use line with
  | .completes text => some text
  | _ => (s.processed line).declaration?.filter (·.contains ';')

/-- **The member that the next line stores**, and where, if it finishes a declaration that can be
read while an interface is open. The member has no mark yet. -/
def stored? (s : Scan) (line : Text) : Option (Place × Declared) := do
  let place ← s.place
  let text ← s.finished? line
  let d ← Declared.ofText? text
  some (place, d)

/-- The interface that is open stands in its place. -/
def Placed (s : Scan) : Prop :=
  ∀ place, s.place = some place → ∃ i, s.corpus.interfaceAt? place = some i

theorem memberAt?_addMember (hs : s.Placed) (text : Text) (place : Place) (slot : Slot) :
    (s.addMember text).corpus.memberAt? place slot =
      match s.place, Declared.ofText? text with
      | some here, some d =>
        if here = place ∧ d.slot = slot then some (d.withRequired s.requiresMember)
        else s.corpus.memberAt? place slot
      | _, _ => s.corpus.memberAt? place slot := by
  rw [addMember_eq]
  cases Declared.ofText? text with
  | none => cases s.place <;> rfl
  | some d =>
    simp only
    obtain ⟨h, hnone⟩ | ⟨here, i, hhere, hat, h⟩ :=
      s.corpus_modifyPlace_cases (·.addDeclared (d.withRequired s.requiresMember)) <;> rw [h]
    · cases hplace : s.place with
      | none => rfl
      | some here =>
        obtain ⟨i, hi⟩ := hs here hplace
        rw [hnone here hplace] at hi
        cases hi
    · rw [hhere, Corpus.memberAt?_put, Interface.at?_addDeclared, Declared.slot_withRequired]
      by_cases hplace : here = place
      · have hold : i.at? slot = s.corpus.memberAt? place slot := by
          rw [Corpus.memberAt?, ← hplace, hat]
          rfl
        simp only [hplace, if_true, true_and, hold]
      · simp only [hplace, if_false, false_and]

/-- Lists of enumerations hold no members. -/
theorem memberAt?_congr {c c' : Corpus} (hclasses : c'.classes = c.classes)
    (hprotocols : c'.protocols = c.protocols) (place : Place) (slot : Slot) :
    c'.memberAt? place slot = c.memberAt? place slot := by
  cases place <;> simp only [Corpus.memberAt?, Corpus.interfaceAt?, hclasses, hprotocols]

theorem memberAt?_enumBody (s : Scan) (text : Text) (place : Place) (slot : Slot) :
    (s.enumBody text).corpus.memberAt? place slot = s.corpus.memberAt? place slot := by
  cases henum : s.enumeration with
  | none => simp only [enumBody, henum]
  | some name =>
    rw [enumBody_eq henum]
    exact memberAt?_congr rfl rfl place slot

theorem memberAt?_openEnum (s : Scan) (kind : EnumKind) (underlying name : Text)
    (body : Option Text) (place : Place) (slot : Slot) :
    (s.openEnum settings kind underlying name body).corpus.memberAt? place slot =
      s.corpus.memberAt? place slot := by
  unfold openEnum
  cases body with
  | none => exact memberAt?_congr rfl rfl place slot
  | some body =>
    rw [memberAt?_enumBody]
    exact memberAt?_congr rfl rfl place slot

theorem memberAt?_openClass (s : Scan) (name superclass : Text) (adopted : Option Text)
    (deprecated : Bool) (place : Place) (slot : Slot) :
    (s.openClass name superclass adopted deprecated).corpus.memberAt? place slot =
      s.corpus.memberAt? place slot :=
  Corpus.memberAt?_put_of_same (.inClass name) (.newClass name none)
    (fun slot => by rw [Interface.at?_adoptAll, Interface.at?_setSuperclass]; rfl)
    (Interface.at?_newClass name none) place slot

theorem memberAt?_openCategory (s : Scan) (className category : Text) (adopted : Option Text)
    (place : Place) (slot : Slot) :
    (s.openCategory settings className category adopted).corpus.memberAt? place slot =
      s.corpus.memberAt? place slot := by
  unfold openCategory
  split
  · rfl
  · exact Corpus.memberAt?_put_of_same (.inClass className) (.newClass className none)
      (fun slot => by rw [Interface.at?_adoptAll]; rfl) (Interface.at?_newClass className none)
      place slot

theorem memberAt?_openProtocol (s : Scan) (name : Text) (adopted : Option Text) (place : Place)
    (slot : Slot) :
    (s.openProtocol name adopted).corpus.memberAt? place slot = s.corpus.memberAt? place slot :=
  Corpus.memberAt?_put_of_same (.inProtocol name) (.newProtocol name)
    (fun slot => by rw [Interface.at?_adoptAll]; rfl) (Interface.at?_newProtocol name) place slot

/-- A declaration on one line is read if it is complete; with no interface open it is read for
nothing. -/
theorem memberAt?_beginMember (s : Scan) (text : Text) (place : Place) (slot : Slot) :
    (s.beginMember text).corpus.memberAt? place slot =
      if text.contains ';' then (s.addMember text).corpus.memberAt? place slot
      else s.corpus.memberAt? place slot := by
  unfold beginMember
  cases hplace : s.place with
  | none =>
    have hnothing : s.addMember text = s := by
      rw [addMember_eq]
      cases Declared.ofText? text with
      | none => rfl
      | some d => simp only [modifyPlace, hplace]
    simp only [Option.isNone_none, if_true, hnothing, ite_self]
  | some here =>
    simp only [Option.isNone_some, Bool.false_eq_true, if_false]
    split <;> rfl

theorem memberAt?_feedLine (s : Scan) (line : Text) (place : Place) (slot : Slot) :
    (s.feedLine settings line).corpus.memberAt? place slot =
      match (Line.classify line).declaration?.filter (·.contains ';') with
      | some text => (s.addMember text).corpus.memberAt? place slot
      | none => s.corpus.memberAt? place slot := by
  have hmember (text : Text) : (s.beginMember text).corpus.memberAt? place slot =
      match (some text).filter (·.contains ';') with
      | some text => (s.addMember text).corpus.memberAt? place slot
      | none => s.corpus.memberAt? place slot := by
    rw [memberAt?_beginMember, Option.filter_some]
    cases text.contains ';' <;> rfl
  unfold feedLine
  cases Line.classify line with
  | classOpen => exact memberAt?_openClass s _ _ _ _ place slot
  | categoryOpen => exact memberAt?_openCategory s _ _ _ place slot
  | protocolOpen => exact memberAt?_openProtocol s _ _ place slot
  | enumOpen => exact memberAt?_openEnum s _ _ _ _ place slot
  | method text => exact hmember text
  | property text => exact hmember text
  | _ => rfl

/-- **A line stores the member whose declaration it finishes**, marked as the section asks, and
leaves every other member as it is. -/
theorem memberAt?_feed (settings : Settings) (hs : s.Placed) (line : Text) (place : Place)
    (slot : Slot) :
    (s.feed settings line).corpus.memberAt? place slot =
      match s.stored? line with
      | some (here, d) =>
        if here = place ∧ d.slot = slot then some (d.withRequired s.requiresMember)
        else s.corpus.memberAt? place slot
      | none => s.corpus.memberAt? place slot := by
  have hadd (text : Text) (hfinished : s.finished? line = some text) {s' : Scan}
      (hcorpus : s'.corpus = s.corpus) (hplace : s'.place = s.place)
      (hrequired : s'.requiresMember = s.requiresMember) :
      (s'.addMember text).corpus.memberAt? place slot =
        match s.stored? line with
        | some (here, d) =>
          if here = place ∧ d.slot = slot then some (d.withRequired s.requiresMember)
          else s.corpus.memberAt? place slot
        | none => s.corpus.memberAt? place slot := by
    have hs' : s'.Placed := by
      rw [Placed, hcorpus, hplace]
      exact hs
    rw [memberAt?_addMember hs', hcorpus, hplace, hrequired]
    simp only [stored?, hfinished, Option.bind_eq_bind, Option.bind_some]
    cases s.place with
    | none => rfl
    | some here => cases Declared.ofText? text <;> rfl
  have hnone (hfinished : s.finished? line = none) : s.stored? line = none := by
    simp only [stored?, hfinished, Option.bind_eq_bind, Option.bind_none, Option.bind_fun_none]
  rw [feed_eq]
  cases huse : s.use line with
  | acts =>
    have hfinished : s.finished? line =
        (Line.classify line).declaration?.filter (·.contains ';') := by
      simp only [finished?, processed, huse]
    rw [memberAt?_feedLine, ← hfinished]
    cases htext : s.finished? line with
    | none => rw [hnone htext]; rfl
    | some text => exact hadd text htext rfl rfl rfl
  | completes text => exact hadd text (by simp only [finished?, huse]) rfl rfl rfl
  | waits text =>
    have hfinished : s.finished? line = none := by
      simp only [finished?, processed, huse, Line.declaration?, Option.filter_none]
    rw [hnone hfinished]
  | lists =>
    have hfinished : s.finished? line = none := by
      simp only [finished?, processed, huse, Line.declaration?, Option.filter_none]
    rw [hnone hfinished]
    exact memberAt?_enumBody s line place slot

/-- In a run of lines over any corpus, what is open stands in its place. -/
theorem placed_feedAll (settings : Settings) (c : Corpus) (lines : List Text) :
    (Scan.feedAll settings { corpus := c } lines).Placed := by
  have hstart : ({ corpus := c } : Scan) = Scan.laidOver c { corpus := .empty } := rfl
  have hgrounded : (Scan.feedAll settings { corpus := .empty } lines).Grounded :=
    (stable_grounded settings).feedAll lines grounded_empty
  rw [hstart, feedAll_laidOver c grounded_empty]
  intro place hplace
  cases place with
  | inClass name =>
    obtain ⟨i, hi⟩ := Table.mem_keys_iff.mp (hgrounded.inClass hplace)
    simp only [laidOver, Corpus.overlay, Corpus.interfaceAt?, Table.get?_overlayWith, hi]
    exact ⟨_, rfl⟩
  | inProtocol name =>
    obtain ⟨i, hi⟩ := Table.mem_keys_iff.mp (hgrounded.inProtocol hplace)
    simp only [laidOver, Corpus.overlay, Corpus.interfaceAt?, Table.get?_overlayWith, hi]
    exact ⟨_, rfl⟩

end Scan

/-! ### Marks -/

namespace Line

/-- Does the line close an interface or a section? -/
def isMark : Line → Bool
  | interfaceEnd => true
  | required => true
  | optional => true
  | _ => false

theorem isMark_classifyOpening (t : Text) : (classifyOpening t).isMark = false := by
  unfold classifyOpening
  split
  · unfold ofEnumOpening
    split <;> rfl
  · split
    · rfl
    · split
      · rfl
      · split
        · unfold ofProtocolOpening
          split <;> rfl
        · split <;> rfl

/-- A mark begins with an at sign, so nothing unfinished uses it up. -/
theorem startsDeclaration_of_isMark {line : Text} (h : (classify line).isMark = true) :
    Scan.startsDeclaration line = true := by
  have hat {keyword : String} (hkeyword : keyword.toList.head? = some '@')
      (hstarts : startsWith keyword (trim line) = true) :
      Scan.startsDeclaration line = true := by
    obtain ⟨rest, hrest⟩ := List.isPrefixOf_iff_prefix.mp hstarts
    have hhead : (trim line).head? = some '@' := by
      rw [← hrest, List.head?_append, hkeyword, Option.some_or]
    rw [Scan.startsDeclaration, ← head?_trim, hhead]
    rfl
  unfold classify at h
  dsimp only at h
  split at h
  · cases h
  split at h
  · rename_i hend
    exact hat rfl hend
  split at h
  · rename_i hrequired
    exact hat rfl hrequired
  split at h
  · rename_i hoptional
    exact hat rfl hoptional
  split at h
  · cases h
  split at h
  · cases h
  split at h
  · cases h
  rw [isMark_classifyOpening] at h
  cases h

end Line

namespace Scan

variable {settings : Settings} {s : Scan}

theorem use_of_isMark (s : Scan) {line : Text} (h : (Line.classify line).isMark = true) :
    s.use line = .acts := by rw [use, Line.startsDeclaration_of_isMark h, if_pos rfl]

/-- **Marks count in every state**: whatever waits or is open. -/
theorem feed_of_isMark (settings : Settings) (s : Scan) {line : Text}
    (h : (Line.classify line).isMark = true) :
    s.feed settings line = s.released.feedLine settings line := by
  rw [feed_eq, use_of_isMark s h]

/-- **The line makes members required again**: `@required`, `@end`, or the opening of a protocol. -/
def Resets (s : Scan) (line : Text) : Prop :=
  Line.classify line = .required ∨ Line.classify line = .interfaceEnd ∨
    ∃ name adopted, s.processed line = .protocolOpen name adopted

theorem classify_of_processed {line : Text} {l : Line} (h : s.processed line = l)
    (hl : l ≠ .other) : Line.classify line = l := by
  unfold processed at h
  split at h
  · exact h
  · exact absurd h.symm hl

theorem Resets.not_optional {line : Text} (h : s.Resets line) : Line.classify line ≠ .optional := by
  rcases h with h | h | ⟨name, adopted, h⟩
  · rw [h]
    exact Line.noConfusion
  · rw [h]
    exact Line.noConfusion
  · rw [classify_of_processed h Line.noConfusion]
    exact Line.noConfusion

/-! ### The mark over a run of lines -/

theorem required_modifyPlace (s : Scan) (f : Interface → Interface) :
    (s.modifyPlace f).required = s.required := by
  unfold modifyPlace
  split <;> rfl

theorem required_addMember (s : Scan) (text : Text) :
    (s.addMember text).required = s.required := by
  rw [addMember_eq]
  split
  · exact required_modifyPlace s _
  · rfl

theorem required_beginMember (s : Scan) (text : Text) :
    (s.beginMember text).required = s.required := by
  unfold beginMember
  split
  · rfl
  · split
    · exact required_addMember s text
    · rfl

theorem required_enumBody (s : Scan) (text : Text) : (s.enumBody text).required = s.required := by
  unfold enumBody
  split <;> rfl

theorem required_openEnum (s : Scan) (kind : EnumKind) (underlying name : Text)
    (body : Option Text) :
    (s.openEnum settings kind underlying name body).required = s.required := by
  unfold openEnum
  cases body with
  | none => rfl
  | some body => exact required_enumBody _ body

theorem required_openCategory (s : Scan) (className category : Text) (adopted : Option Text) :
    (s.openCategory settings className category adopted).required = s.required := by
  unfold openCategory
  split <;> rfl

/-- What a line does to the mark when it does what it says. -/
theorem required_feedLine (s : Scan) (line : Text) :
    (s.feedLine settings line).required =
      match Line.classify line with
      | .protocolOpen .. => true
      | .interfaceEnd => true
      | .required => true
      | .optional => false
      | _ => s.required := by
  unfold feedLine
  cases Line.classify line with
  | categoryOpen => exact required_openCategory s _ _ _
  | enumOpen => exact required_openEnum s _ _ _ _
  | method text => exact required_beginMember s text
  | property text => exact required_beginMember s text
  | _ => rfl

/-- **What a line does to the mark.** -/
theorem required_feed (settings : Settings) (s : Scan) (line : Text) :
    (s.feed settings line).required = true ↔
      s.Resets line ∨ s.required = true ∧ Line.classify line ≠ .optional := by
  -- a line used up otherwise is no mark, and it is taken for no opening
  have hunused (huse : s.use line ≠ .acts) :
      s.required = true ↔ s.Resets line ∨ s.required = true ∧ Line.classify line ≠ .optional := by
    have hnot {l : Line} (hl : l.isMark = true) : Line.classify line ≠ l := fun h =>
      huse (use_of_isMark s (h ▸ hl))
    have hresets : ¬ s.Resets line := by
      rintro (h | h | ⟨name, adopted, h⟩)
      · exact hnot rfl h
      · exact hnot rfl h
      · unfold processed at h
        split at h
        · rename_i hacts
          exact huse hacts
        · cases h
    simp only [hresets, hnot (l := .optional) rfl, ne_eq, not_false_eq_true, and_true, false_or]
  rw [feed_eq]
  cases huse : s.use line with
  | acts =>
    have hprocessed : s.processed line = Line.classify line := by simp only [processed, huse]
    rw [required_feedLine, Resets, hprocessed]
    cases Line.classify line <;> simp [released]
  | completes text =>
    rw [required_addMember]
    exact hunused (huse ▸ Use.noConfusion)
  | waits text => exact hunused (huse ▸ Use.noConfusion)
  | lists =>
    rw [required_enumBody]
    exact hunused (huse ▸ Use.noConfusion)

/-- **An `@optional` is in force** behind a run of lines: one that no later line undoes. -/
def OptionalInForce (settings : Settings) (start : Scan) (lines : List Text) : Prop :=
  ∃ before line after, lines = before ++ line :: after ∧ Line.classify line = .optional ∧
    ∀ early next late, after = early ++ next :: late →
      ¬ (start.feedAll settings (before ++ line :: early)).Resets next

theorem not_optionalInForce_nil (settings : Settings) (start : Scan) :
    ¬ OptionalInForce settings start [] := by
  rintro ⟨before, line, after, h, -⟩
  simp at h

theorem optionalInForce_concat {start : Scan} {lines : List Text} {line : Text} :
    OptionalInForce settings start (lines ++ [line]) ↔
      Line.classify line = .optional ∨
        OptionalInForce settings start lines ∧ ¬ (start.feedAll settings lines).Resets line := by
  constructor
  · rintro ⟨before, mark, after, h, hmark, hafter⟩
    rcases List.eq_nil_or_concat after with rfl | ⟨after, last, rfl⟩
    · obtain ⟨-, h⟩ := List.append_inj' h rfl
      exact Or.inl (by rw [List.singleton_inj.mp h, hmark])
    · rw [List.concat_eq_append, ← List.cons_append, ← List.append_assoc] at h
      obtain ⟨rfl, hlast⟩ := List.append_inj' h rfl
      obtain rfl := List.singleton_inj.mp hlast
      refine Or.inr ⟨⟨before, mark, after, rfl, hmark, fun early next late he => ?_⟩, ?_⟩
      · refine hafter early next (late ++ [line]) ?_
        rw [List.concat_eq_append, he, List.append_assoc, List.cons_append]
      · exact hafter after line [] (List.concat_eq_append ..)
  · rintro (hmark | ⟨⟨before, mark, after, rfl, hmark, hafter⟩, hline⟩)
    · exact ⟨lines, line, [], rfl, hmark, fun early next late he => by simp at he⟩
    · refine ⟨before, mark, after ++ [line], by simp, hmark, fun early next late he => ?_⟩
      rcases List.eq_nil_or_concat late with rfl | ⟨late, last, rfl⟩
      · obtain ⟨rfl, hlast⟩ := List.append_inj' he rfl
        rw [← List.singleton_inj.mp hlast]
        exact hline
      · rw [List.concat_eq_append, ← List.cons_append, ← List.append_assoc] at he
        obtain ⟨rfl, -⟩ := List.append_inj' he rfl
        exact hafter early next late rfl

/-- **The mark over a run of lines**: members are required unless an `@optional` is in force. -/
theorem required_feedAll (settings : Settings) {start : Scan} (hstart : start.required = true)
    (lines : List Text) :
    (start.feedAll settings lines).required = true ↔ ¬ OptionalInForce settings start lines := by
  induction lines using List.reverseRecOn with
  | nil => exact iff_of_true hstart (not_optionalInForce_nil settings start)
  | append_singleton lines line ih =>
    rw [feedAll_concat, required_feed, optionalInForce_concat, ih]
    constructor
    · rintro (hresets | ⟨hforce, hline⟩)
      · rintro (hline | ⟨-, hnot⟩)
        · exact hresets.not_optional hline
        · exact hnot hresets
      · rintro (h | ⟨h, -⟩)
        · exact hline h
        · exact hforce h
    · intro h
      by_cases hresets : (start.feedAll settings lines).Resets line
      · exact Or.inl hresets
      · exact Or.inr ⟨fun hforce => h (Or.inr ⟨hforce, hresets⟩), fun hline => h (Or.inl hline)⟩

theorem requiresMember_iff (s : Scan) {place : Place} (h : s.place = some place) :
    s.requiresMember = true ↔ (∃ name, place = .inProtocol name) ∧ s.required = true := by
  unfold requiresMember
  rw [h]
  cases place <;> simp

/-- **Members are required as the marks before them say.** Over any run of lines from the start of a
scan, a member that is stored in a protocol is required unless an `@optional` is in force, one
stored in a class never is, and every line leaves all other members as they are. The marks count in
every state of a scan, whatever waits or is open. -/
theorem stored_required_iff (settings : Settings) (c : Corpus) (lines : List Text) :
    let start : Scan := { corpus := c }
    let s := start.feedAll settings lines
    (∀ line place d, s.stored? line = some (place, d) →
      ∃ required,
        (s.feed settings line).corpus.memberAt? place d.slot = some (d.withRequired required) ∧
        (required = true ↔
          (∃ name, place = .inProtocol name) ∧ ¬ OptionalInForce settings start lines)) ∧
    (∀ line place slot, (∀ d, s.stored? line = some (place, d) → d.slot ≠ slot) →
      (s.feed settings line).corpus.memberAt? place slot = s.corpus.memberAt? place slot) ∧
    ∀ (s' : Scan) line,
      (Line.classify line = .optional →
        s'.feed settings line = { s'.released with required := false }) ∧
      (Line.classify line = .required →
        s'.feed settings line = { s'.released with required := true }) ∧
      (Line.classify line = .interfaceEnd →
        s'.feed settings line =
          { s'.released with place := none, required := true, deprecated := false }) := by
  intro start s
  have hplaced : s.Placed := placed_feedAll settings c lines
  have hmark (s' : Scan) {line : Text} {l : Line} (h : Line.classify line = l)
      (hl : l.isMark = true) : s'.feed settings line = s'.released.feedLine settings line :=
    feed_of_isMark settings s' (h ▸ hl)
  refine ⟨fun line place d hstored => ?_, fun line place slot hnone => ?_, fun s' line => ?_⟩
  · have hplace : s.place = some place := by
      simp only [stored?, Option.bind_eq_bind, Option.bind_eq_some_iff, Option.some.injEq,
        Prod.mk.injEq] at hstored
      obtain ⟨here, hhere, _, -, _, -, rfl, -⟩ := hstored
      exact hhere
    refine ⟨s.requiresMember, ?_, ?_⟩
    · simp only [memberAt?_feed settings hplaced, hstored, and_self, if_true]
    · rw [requiresMember_iff s hplace, required_feedAll settings rfl]
  · rw [memberAt?_feed settings hplaced]
    cases hstored : s.stored? line with
    | none => rfl
    | some stored =>
      obtain ⟨here, d⟩ := stored
      refine if_neg fun ⟨hhere, hslot⟩ => ?_
      exact hnone d (hhere ▸ hstored) hslot
  · refine ⟨fun h => ?_, fun h => ?_, fun h => ?_⟩ <;>
    · rw [hmark s' h rfl, feedLine, h]

/-- An `@optional` behind a declaration without an end, and an enumeration without an end behind it:
the next method of the protocol is not required, and behind `@required` one is. -/
theorem stored_required_iff_unfinished :
    let start : Scan := { corpus := .empty }
    let before := ["@protocol UIThing".toList, "- (void)endless".toList, "@optional".toList,
      "typedef NS_ENUM(NSInteger, Kind) \x7b".toList]
    let s := start.feedAll .default before
    let line := "- (void)a;".toList
    let place := Place.inProtocol "UIThing".toList
    ∃ d, s.stored? line = some (place, d) ∧ d.slot = .method "a".toList ∧
      (s.feed .default line).corpus.memberAt? place d.slot = some (d.withRequired false) ∧
      (s.feed .default "@required".toList).required = true := by
  intro start before s line place
  obtain ⟨hstores, -, hmarks⟩ := stored_required_iff .default .empty before
  have hstored : (s.stored? line).map (fun (here, d) => (here, d.slot)) =
      some (place, .method "a".toList) := by decide +kernel
  obtain ⟨⟨here, d⟩, hd, heq⟩ := Option.map_eq_some_iff.mp hstored
  obtain ⟨rfl, hslot⟩ := Prod.mk.inj heq
  obtain ⟨required, hmember, hrequired⟩ := hstores line _ d hd
  have hforce : OptionalInForce .default start before := by
    refine ⟨["@protocol UIThing".toList, "- (void)endless".toList], "@optional".toList,
      ["typedef NS_ENUM(NSInteger, Kind) \x7b".toList], rfl, by decide +kernel, ?_⟩
    intro early next late he
    rcases early with _ | ⟨first, early⟩
    · obtain ⟨rfl, -⟩ := List.cons.inj he
      rintro (h | h | ⟨name, adopted, h⟩)
      · exact absurd h (by decide +kernel)
      · exact absurd h (by decide +kernel)
      · have h := classify_of_processed h Line.noConfusion
        have hopens : opensEnum "typedef NS_ENUM(NSInteger, Kind) \x7b".toList = true := by
          decide +kernel
        rw [opensEnum, h] at hopens
        cases hopens
    · simp at he
  have hfalse : required = false := by
    rw [← Bool.not_eq_true]
    exact fun h => (hrequired.mp h).2 hforce
  refine ⟨d, hd, hslot, hfalse ▸ hmember, ?_⟩
  rw [(hmarks s "@required".toList).2.1 (by decide +kernel)]

end Scan

end CommonHeaders
