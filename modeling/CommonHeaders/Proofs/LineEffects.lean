import CommonHeaders.Proofs.LineUses
import Mathlib.Data.List.Infix

/-! # One line changes one entry

A line may end a declaration and an enumeration and open something else, but of what a corpus holds
it changes at most one interface or one enumeration, and what it changes there only grows: no member
and no adoption is taken back. Only the opening of a class gives a class another superclass, and
only the opening of an enumeration begins one anew. So no interface is ever lost again.

* `Touched`: what a line may do to a corpus.
* `touched_feed`: every line does no more than that, whatever the scan.
* `feed_local`: the entries before and after a line.
* `growsTo_feedAll`: the interfaces before and after any run of lines. -/

namespace CommonHeaders

open Text Naming

theorem Table.modify_insert {α : Type} (t : Table α) (key : Text) (a : α) (f : α → α) :
    (t.insert key a).modify key f = t.insert key (f a) := by
  ext key'
  rw [get?_modify, get?_insert, get?_insert]
  split <;> rfl

/-! ### Growth -/

theorem Adoptions.prefix_adoptAll (l : Adoptions) (names : List Text) :
    l.names <+: (l.adoptAll names).names := by
  induction names generalizing l with
  | nil => exact List.prefix_refl _
  | cons name rest ih =>
    have hadopt : l.names <+: (l.adopt name).names := by
      unfold adopt
      split
      · exact List.prefix_refl _
      · exact List.prefix_append _ _
    exact hadopt.trans (ih (l.adopt name))

/-- **An interface grows**: it keeps its name and its kind, everything under which a member is kept,
and the protocols it adopts, in order, in front of new ones. -/
structure Interface.GrowsTo (old new : Interface) : Prop where
  name_eq : new.name = old.name
  isClass_eq : new.isClass = old.isClass
  methods : ∀ key ∈ old.methods.keys, key ∈ new.methods.keys
  properties : ∀ name ∈ old.properties.keys, name ∈ new.properties.keys
  protocols : old.protocols.names <+: new.protocols.names

/-- **An enumeration grows**: all stays as it is, with new members behind the old ones. -/
structure Enumeration.GrowsTo (old new : Enumeration) : Prop where
  kind_eq : new.kind = old.kind
  underlying_eq : new.underlying = old.underlying
  name_eq : new.name = old.name
  members : old.members <+: new.members

namespace Interface

theorem GrowsTo.refl (i : Interface) : i.GrowsTo i :=
  ⟨rfl, rfl, fun _ h => h, fun _ h => h, List.prefix_refl _⟩

theorem GrowsTo.trans {i j k : Interface} (hij : i.GrowsTo j) (hjk : j.GrowsTo k) :
    i.GrowsTo k where
  name_eq := hjk.name_eq.trans hij.name_eq
  isClass_eq := hjk.isClass_eq.trans hij.isClass_eq
  methods key h := hjk.methods key (hij.methods key h)
  properties name h := hjk.properties name (hij.properties name h)
  protocols := hij.protocols.trans hjk.protocols

theorem growsTo_addDeclared (i : Interface) (d : Declared) : i.GrowsTo (i.addDeclared d) := by
  cases d with
  | method m =>
    exact { GrowsTo.refl i with methods := fun _ h => Table.mem_keys_insert.mpr (Or.inr h) }
  | property p =>
    exact { GrowsTo.refl i with properties := fun _ h => Table.mem_keys_insert.mpr (Or.inr h) }

theorem growsTo_adoptAll (i : Interface) (names : List Text) : i.GrowsTo (i.adoptAll names) :=
  { GrowsTo.refl i with protocols := i.protocols.prefix_adoptAll names }

theorem growsTo_setSuperclass (i : Interface) (superclass : Text) :
    i.GrowsTo (i.setSuperclass superclass) := by
  unfold setSuperclass
  cases hkind : i.kind with
  | ofClass _ => exact { GrowsTo.refl i with isClass_eq := by simp only [isClass, hkind] }
  | ofProtocol => exact GrowsTo.refl i

theorem superclass_addDeclared (i : Interface) (d : Declared) :
    (i.addDeclared d).superclass = i.superclass := by cases d <;> rfl

end Interface

/-! ### What a line may do -/

namespace Line

/-- The line opens the class of that name. -/
def OpensClass (line : Line) (name : Text) : Prop :=
  ∃ superclass adopted deprecated, line = classOpen name superclass adopted deprecated

/-- The line opens the enumeration of that common name. -/
def OpensEnum (settings : Settings) (line : Line) (name : Text) : Prop :=
  ∃ kind underlying source body, line = enumOpen kind underlying source body ∧
    settings.enumName (toUnified source) = name

end Line

/-- **How a line may change an interface** in a place. -/
structure Interface.Follows (line : Line) (place : Place) (old new : Interface) : Prop where
  grows : old.GrowsTo new
  superclass : new.superclass ≠ old.superclass →
    ∃ name, place = .inClass name ∧ line.OpensClass name

/-- **How a line may change an enumeration** of that name. -/
def Enumeration.Follows (settings : Settings) (line : Line) (name : Text) (old new : Enumeration) :
    Prop :=
  old.GrowsTo new ∨ line.OpensEnum settings name

/-- **What a line may do to a corpus**: nothing, or put one interface or one enumeration in the
place of what it follows, if anything was there. -/
inductive Touched (settings : Settings) (line : Line) (c : Corpus) : Corpus → Prop where
  | nothing : Touched settings line c c
  | interface {i : Interface} {place : Place}
      (h : ∀ old, c.interfaceAt? place = some old → old.Follows line place i) :
      Touched settings line c (c.put i place)
  | enumeration {e : Enumeration} {name : Text}
      (h : ∀ old, c.enums.get? name = some old → old.Follows settings line name e) :
      Touched settings line c { c with enums := c.enums.insert name e }

namespace Scan

variable {settings : Settings} {line : Line}

theorem touched_addMember (s : Scan) (text : Text) :
    Touched settings line s.corpus (s.addMember text).corpus := by
  rw [addMember_eq]
  cases Declared.ofText? text with
  | none => exact .nothing
  | some d =>
    simp only
    obtain ⟨h, -⟩ | ⟨place, i, -, hat, h⟩ :=
      s.corpus_modifyPlace_cases (·.addDeclared (d.withRequired s.requiresMember)) <;> rw [h]
    · exact .nothing
    · refine .interface fun old hold => ?_
      rw [← Option.some.inj (hat.symm.trans hold)]
      exact ⟨i.growsTo_addDeclared _, fun hne => absurd (i.superclass_addDeclared _) hne⟩

theorem touched_beginMember (s : Scan) (text : Text) :
    Touched settings line s.corpus (s.beginMember text).corpus := by
  unfold beginMember
  split
  · exact .nothing
  · split
    · exact touched_addMember s text
    · exact .nothing

/-- An interface that follows what is in its place, if anything, by adoptions. -/
theorem follows_adoptAll {c : Corpus} {place : Place} {new : Interface} (names : List Text) :
    ∀ old, c.interfaceAt? place = some old →
      old.Follows line place (((c.interfaceAt? place).getD new).adoptAll names) := by
  intro old hold
  rw [hold]
  exact ⟨old.growsTo_adoptAll names, fun hne => absurd rfl hne⟩

theorem touched_openClass (s : Scan) {name superclass : Text} {adopted : Option Text}
    {deprecated : Bool} (hline : line = .classOpen name superclass adopted deprecated) :
    Touched settings line s.corpus (s.openClass name superclass adopted deprecated).corpus := by
  refine @Touched.interface settings line s.corpus _ (.inClass name) fun old hold => ?_
  have hold : s.corpus.classes.get? name = some old := hold
  rw [hold]
  exact ⟨(old.growsTo_setSuperclass superclass).trans (Interface.growsTo_adoptAll _ _),
    fun _ => ⟨name, rfl, superclass, adopted, deprecated, hline⟩⟩

theorem touched_openCategory (s : Scan) (className category : Text) (adopted : Option Text) :
    Touched settings line s.corpus
      (s.openCategory settings className category adopted).corpus := by
  unfold openCategory
  split
  · exact .nothing
  · exact @Touched.interface settings line s.corpus _ (.inClass className) (follows_adoptAll _)

theorem touched_openProtocol (s : Scan) (name : Text) (adopted : Option Text) :
    Touched settings line s.corpus (s.openProtocol name adopted).corpus :=
  @Touched.interface settings line s.corpus _ (.inProtocol name) (follows_adoptAll _)

theorem touched_enumBody (s : Scan) (text : Text) :
    Touched settings line s.corpus (s.enumBody text).corpus := by
  cases henum : s.enumeration with
  | none =>
    have hsame : s.enumBody text = s := by simp only [enumBody, henum]
    rw [hsame]
    exact .nothing
  | some name =>
    rw [enumBody_eq henum]
    cases hat : s.corpus.enums.get? name with
    | none =>
      simp only [Table.modify, hat]
      exact .nothing
    | some e =>
      simp only [Table.modify, hat]
      refine .enumeration fun old hold => Or.inl ?_
      rw [← Option.some.inj (hat.symm.trans hold)]
      exact ⟨rfl, rfl, rfl, List.prefix_append _ _⟩

/-- An enumeration is put in place at once, also if its body begins on the line that opens it. -/
theorem touched_openEnum (s : Scan) {kind : EnumKind} {underlying source : Text}
    {body : Option Text} (hline : line = .enumOpen kind underlying source body) :
    Touched settings line s.corpus
      (s.openEnum settings kind underlying source body).corpus := by
  have hopens : line.OpensEnum settings (settings.enumName (toUnified source)) :=
    ⟨kind, underlying, source, body, hline, rfl⟩
  unfold openEnum
  cases body with
  | none => exact .enumeration fun _ _ => Or.inr hopens
  | some body =>
    simp only
    rw [enumBody_eq rfl]
    simp only [Table.modify_insert]
    exact .enumeration fun _ _ => Or.inr hopens

/-- What a line does outside of declarations and enumerations. -/
theorem touched_feedLine (s : Scan) (line : Text) :
    Touched settings (Line.classify line) s.corpus (s.feedLine settings line).corpus := by
  unfold feedLine
  split
  case h_1 hline => exact touched_openClass s hline
  case h_2 => exact touched_openCategory s _ _ _
  case h_3 => exact touched_openProtocol s _ _
  case h_4 hline => exact touched_openEnum s hline
  case h_5 text _ => exact touched_beginMember s text
  case h_6 text _ => exact touched_beginMember s text
  all_goals exact .nothing

/-- **What any line does to the corpus**, whatever the scan. -/
theorem touched_feed (settings : Settings) (s : Scan) (line : Text) :
    Touched settings (s.processed line) s.corpus (s.feed settings line).corpus := by
  rw [feed_eq, processed]
  cases s.use line with
  | acts => exact touched_feedLine s.released line
  | completes text => exact touched_addMember { s with pending := none } text
  | waits text => exact .nothing
  | lists => exact touched_enumBody s line

end Scan

/-! ### Entries -/

/-- An entry of one of the three tables: an interface in its place or an enumeration under its
common name. -/
inductive Entry where
  | interface (place : Place)
  | enumeration (name : Text)
deriving DecidableEq

/-- What a corpus holds at an entry. -/
def Corpus.at? (c : Corpus) : Entry → Option (Interface ⊕ Enumeration)
  | .interface place => (c.interfaceAt? place).map .inl
  | .enumeration name => (c.enums.get? name).map .inr

namespace Touched

variable {settings : Settings} {line : Line} {c c' : Corpus}

/-- At most one entry is touched. -/
theorem exists_entry (h : Touched settings line c c') :
    ∃ entry, ∀ other, other ≠ entry → c'.at? other = c.at? other := by
  cases h with
  | nothing => exact ⟨.enumeration [], fun _ _ => rfl⟩
  | @interface i place _ =>
    refine ⟨.interface place, fun other hother => ?_⟩
    cases other with
    | interface place' =>
      have hne : place ≠ place' := fun he => hother (he ▸ rfl)
      rw [Corpus.at?, Corpus.at?, Corpus.interfaceAt?_put, if_neg hne]
    | enumeration name => rw [Corpus.at?, Corpus.at?, Corpus.enums_put]
  | @enumeration e name _ =>
    refine ⟨.enumeration name, fun other hother => ?_⟩
    cases other with
    | interface place => cases place <;> rfl
    | enumeration name' =>
      have hne : name ≠ name' := fun he => hother (he ▸ rfl)
      simp only [Corpus.at?, Table.get?_insert, if_neg hne]

/-- What is in a place is followed there. -/
theorem exists_interface (h : Touched settings line c c') {place : Place} {old : Interface}
    (hold : c.interfaceAt? place = some old) :
    ∃ new, c'.interfaceAt? place = some new ∧ old.Follows line place new := by
  have hsame : old.Follows line place old :=
    ⟨Interface.GrowsTo.refl old, fun hne => absurd rfl hne⟩
  cases h with
  | nothing => exact ⟨old, hold, hsame⟩
  | @interface i place' h =>
    rw [Corpus.interfaceAt?_put]
    split
    · rename_i he
      exact ⟨i, rfl, he ▸ h old (he ▸ hold)⟩
    · exact ⟨old, hold, hsame⟩
  | enumeration _ => exact ⟨old, by cases place <;> exact hold, hsame⟩

/-- What is under a common name is followed there. -/
theorem exists_enumeration (h : Touched settings line c c') {name : Text} {old : Enumeration}
    (hold : c.enums.get? name = some old) :
    ∃ new, c'.enums.get? name = some new ∧ old.Follows settings line name new := by
  have hsame : old.Follows settings line name old :=
    Or.inl ⟨rfl, rfl, rfl, List.prefix_refl _⟩
  cases h with
  | nothing => exact ⟨old, hold, hsame⟩
  | interface _ => exact ⟨old, by rw [Corpus.enums_put]; exact hold, hsame⟩
  | @enumeration e name' h =>
    simp only [Table.get?_insert]
    split
    · rename_i he
      exact ⟨e, rfl, he ▸ h old (he ▸ hold)⟩
    · exact ⟨old, hold, hsame⟩

end Touched

namespace Scan

/-- **A line changes one entry at most, and nothing is lost.** Every interface stays in its place
and grows, and it has another superclass only behind the opening of its class; every enumeration
stays under its name and grows, unless the line opens one of that name. -/
theorem feed_local (settings : Settings) (s : Scan) (line : Text) :
    (∃ entry, ∀ other, other ≠ entry →
      (s.feed settings line).corpus.at? other = s.corpus.at? other) ∧
    (∀ place old, s.corpus.interfaceAt? place = some old →
      ∃ new, (s.feed settings line).corpus.interfaceAt? place = some new ∧
        old.Follows (s.processed line) place new) ∧
    ∀ name old, s.corpus.enums.get? name = some old →
      ∃ new, (s.feed settings line).corpus.enums.get? name = some new ∧
        old.Follows settings (s.processed line) name new := by
  have h := touched_feed settings s line
  exact ⟨h.exists_entry, fun _ _ => h.exists_interface, fun _ _ => h.exists_enumeration⟩

/-- A class that is opened again, with another superclass, in the middle of the body of an
enumeration: the class takes the superclass and keeps its method, and the enumeration stays. -/
theorem feed_local_reopened :
    let s := Scan.feedAll .default { corpus := .empty } ["@interface UIThing : A <P>".toList,
      "-(int)a;".toList, "typedef NS_ENUM(NSInteger, Kind) \x7b".toList, "KindA,".toList]
    let line := "@interface UIThing : B <Q>".toList
    let place := Place.inClass "UIThing".toList
    ∃ old new e e', s.corpus.interfaceAt? place = some old ∧
      s.corpus.enums.get? "Kind".toList = some e ∧
      (s.feed .default line).corpus.interfaceAt? place = some new ∧
      (s.feed .default line).corpus.enums.get? "Kind".toList = some e' ∧
      old.Follows (s.processed line) place new ∧ new.superclass ≠ old.superclass ∧
      old.methods.keys = ["a".toList] ∧ e.GrowsTo e' := by
  intro s line place
  obtain ⟨-, hinterfaces, henums⟩ := feed_local .default s line
  have hsuperclass : (s.corpus.interfaceAt? place).map (fun i => (i.superclass, i.methods.keys)) =
      some (some "A".toList, ["a".toList]) := by decide +kernel
  obtain ⟨old, hold, hmembers⟩ := Option.map_eq_some_iff.mp hsuperclass
  obtain ⟨new, hnew, hfollows⟩ := hinterfaces place old hold
  have hnewSuperclass : ((s.feed .default line).corpus.interfaceAt? place).map
      Interface.superclass = some (some "B".toList) := by decide +kernel
  have hkind : (s.corpus.enums.get? "Kind".toList).isSome = true := by decide +kernel
  obtain ⟨e, he⟩ := Option.isSome_iff_exists.mp hkind
  obtain ⟨e', he', hgrows⟩ := henums _ e he
  have hline : s.processed line =
      .classOpen "UIThing".toList "B".toList (some "Q".toList) false := by decide +kernel
  refine ⟨old, new, e, e', hold, he, hnew, he', hfollows, ?_, congrArg Prod.snd hmembers, ?_⟩
  · rw [hnew] at hnewSuperclass
    rw [Option.some.inj hnewSuperclass, show old.superclass = _ from congrArg Prod.fst hmembers]
    decide
  · refine hgrows.resolve_right ?_
    rintro ⟨kind, underlying, source, body, hopens, -⟩
    rw [hline] at hopens
    cases hopens

/-! ### Runs of lines -/

/-- **Over any run of lines no interface is lost** and none shrinks, and no enumeration is lost. -/
theorem growsTo_feedAll (settings : Settings) (s : Scan) (lines : List Text) :
    (∀ place old, s.corpus.interfaceAt? place = some old →
      ∃ new, (s.feedAll settings lines).corpus.interfaceAt? place = some new ∧
        old.GrowsTo new) ∧
    ∀ name ∈ s.corpus.enums.keys, name ∈ (s.feedAll settings lines).corpus.enums.keys := by
  induction lines generalizing s with
  | nil => exact ⟨fun _ old hold => ⟨old, hold, Interface.GrowsTo.refl old⟩, fun _ h => h⟩
  | cons line rest ih =>
    have htouched := touched_feed settings s line
    obtain ⟨hrest, hrestEnums⟩ := ih (s.feed settings line)
    refine ⟨fun place old hold => ?_, fun name hname => ?_⟩
    · obtain ⟨mid, hmid, hfollows⟩ := htouched.exists_interface hold
      obtain ⟨new, hnew, hgrows⟩ := hrest place mid hmid
      exact ⟨new, hnew, hfollows.grows.trans hgrows⟩
    · obtain ⟨old, hold⟩ := Table.mem_keys_iff.mp hname
      obtain ⟨mid, hmid, -⟩ := htouched.exists_enumeration hold
      exact hrestEnums name (Table.mem_keys_of_get? hmid)

end Scan

end CommonHeaders
