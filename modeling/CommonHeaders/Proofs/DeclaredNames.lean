import CommonHeaders.Proofs.RenamedWords
import CommonHeaders.Proofs.ScanSteps

/-! # Declared names are words

An opening is recognised by a word where its name stands, and nothing but openings puts a name into
a corpus. So classes and protocols stand under words, and so do enumerations, whose names are given
the common tag and then renamed, provided that what they are renamed to are words.

* `namesWord_classify`: every line that opens something names it by a word.
* `Scanned.wordInterfaces`, `Scanned.wordKeys`: what a scanned corpus declares is declared under a
  word. -/

namespace CommonHeaders

open Text

/-! ### Lines -/

namespace Line

/-- If the line opens something, it names it by a word. -/
def NamesWord : Line → Prop
  | .classOpen name _ _ _ => IsWord name
  | .categoryOpen className _ _ => IsWord className
  | .protocolOpen name _ => IsWord name
  | .enumOpen _ _ name _ => IsWord name
  | _ => True

theorem isWord_of_enumCall? {macroName t : Text} {o : EnumOpening}
    (h : enumCall? macroName t = some o) : IsWord o.name := by
  simp only [enumCall?, Option.bind_eq_bind, Option.bind_eq_some_iff] at h
  obtain ⟨_, _, _, _, ⟨_, _⟩, _, _, _, ⟨name, _⟩, hname, _, _, ho⟩ := h
  have ho := Option.some.inj ho
  rw [← ho]
  exact isWord_of_word? hname

theorem isWord_of_enumOpening? {before : Option Char} {t : Text} {o : EnumOpening}
    (h : enumOpening? before t = some o) : IsWord o.name := by
  unfold enumOpening? at h
  split at h
  · simp at h
  · obtain ⟨macroName, -, hcall⟩ := List.exists_of_findSome?_eq_some h
    exact isWord_of_enumCall? hcall

theorem isWord_of_classOpening? {t : Text} {o : ClassOpening} (h : classOpening? t = some o) :
    IsWord o.name := by
  simp only [classOpening?, Option.bind_eq_bind, Option.bind_eq_some_iff] at h
  obtain ⟨_, _, _, _, ⟨name, _⟩, hname, _, _, _, _, _, _, ho⟩ := h
  have ho := Option.some.inj ho
  rw [← ho]
  exact isWord_of_word? hname

theorem isWord_of_categoryOpening? {t : Text} {o : CategoryOpening}
    (h : categoryOpening? t = some o) : IsWord o.className := by
  simp only [categoryOpening?, Option.bind_eq_bind, Option.bind_eq_some_iff] at h
  obtain ⟨_, _, _, _, ⟨name, _⟩, hname, _, _, _, _, _, _, ho⟩ := h
  have ho := Option.some.inj ho
  rw [← ho]
  exact isWord_of_word? hname

theorem isWord_of_protocolOpening? {t name tail : Text}
    (h : protocolOpening? t = some (name, tail)) : IsWord name := by
  simp only [protocolOpening?, Option.bind_eq_bind, Option.bind_eq_some_iff] at h
  obtain ⟨_, _, _, _, ⟨name', _⟩, hname, _, _, ho⟩ := h
  have ho : name' = name := (Prod.mk.inj (Option.some.inj ho)).1
  rw [← ho]
  exact isWord_of_word? hname

theorem namesWord_classifyOpening (t : Text) : (classifyOpening t).NamesWord := by
  unfold classifyOpening
  split
  · rename_i o h
    obtain ⟨_, _, hopening, -⟩ := searchFrom_append h
    unfold ofEnumOpening
    split
    · trivial
    · exact isWord_of_enumOpening? hopening
  · split
    · rename_i o h
      obtain ⟨_, hopening, -⟩ := search_append h
      exact isWord_of_classOpening? hopening
    · split
      · rename_i o h
        obtain ⟨_, hopening, -⟩ := search_append h
        exact isWord_of_categoryOpening? hopening
      · split
        · rename_i name tail h
          obtain ⟨_, hopening, -⟩ := search_append h
          unfold ofProtocolOpening
          split
          · trivial
          · trivial
          · exact isWord_of_protocolOpening? hopening
        · split <;> trivial

/-- **Every line that opens something names it by a word.** -/
theorem namesWord_classify (line : Text) : (classify line).NamesWord := by
  unfold classify
  simp only
  repeat' split
  all_goals first | trivial | exact namesWord_classifyOpening _

theorem namesWord_of_classify {line : Text} {l : Line} (h : classify line = l) : l.NamesWord :=
  h ▸ namesWord_classify line

end Line

/-! ### Corpora -/

theorem Settings.isWord_enumName {settings : Settings}
    (henums : settings.enumRenames.WordTargets) {name : Text} (h : IsWord name) :
    IsWord (settings.enumName (Naming.toUnified name)) := by
  unfold enumName
  cases htarget : settings.enumRenames.get? (Naming.toUnified name) with
  | none => exact Naming.isWord_toUnified h
  | some target => exact henums _ _ htarget

namespace Corpus

/-- **Classes and protocols are declared under words.** -/
structure WordInterfaces (c : Corpus) : Prop where
  classes : ∀ name ∈ c.classes.keys, IsWord name
  protocols : ∀ name ∈ c.protocols.keys, IsWord name

/-- Enumerations are declared under words. -/
def WordEnums (c : Corpus) : Prop := ∀ name ∈ c.enums.keys, IsWord name

/-- **Everything is declared under a word.** -/
structure WordKeys (c : Corpus) : Prop extends c.WordInterfaces where
  enums : c.WordEnums

end Corpus

namespace Table

variable {α : Type} {t : Table α}

theorem isWord_keys_empty : ∀ name ∈ (empty : Table α).keys, IsWord name :=
  fun _ h => by simp [keys, empty] at h

theorem isWord_keys_insert {key : Text} {value : α} (ht : ∀ name ∈ t.keys, IsWord name)
    (hkey : IsWord key) : ∀ name ∈ (t.insert key value).keys, IsWord name := by
  intro name hname
  rcases mem_keys_insert.mp hname with rfl | hname
  · exact hkey
  · exact ht name hname

theorem isWord_keys_modify {key : Text} {f : α → α} (ht : ∀ name ∈ t.keys, IsWord name) :
    ∀ name ∈ (t.modify key f).keys, IsWord name :=
  fun name hname => ht name (mem_keys_modify.mp hname)

end Table

namespace Scan

variable {settings : Settings} {s : Scan}

/-! ### Classes and protocols -/

theorem wordInterfaces_modifyPlace (hs : s.corpus.WordInterfaces) (f : Interface → Interface) :
    (s.modifyPlace f).corpus.WordInterfaces := by
  unfold modifyPlace
  split
  · exact { hs with classes := Table.isWord_keys_modify hs.classes }
  · exact { hs with protocols := Table.isWord_keys_modify hs.protocols }
  · exact hs

theorem wordInterfaces_addMember (text : Text) (hs : s.corpus.WordInterfaces) :
    (s.addMember text).corpus.WordInterfaces := by
  unfold addMember
  split
  · split
    · exact wordInterfaces_modifyPlace hs _
    · exact hs
  · split
    · exact wordInterfaces_modifyPlace hs _
    · exact hs

theorem wordInterfaces_openCategory {className category : Text} {adopted : Option Text}
    (hname : IsWord className) (hs : s.corpus.WordInterfaces) :
    (s.openCategory settings className category adopted).corpus.WordInterfaces := by
  unfold openCategory
  split
  · exact hs
  · exact { hs with classes := Table.isWord_keys_insert hs.classes hname }

theorem wordInterfaces_enumBody (text : Text) (hs : s.corpus.WordInterfaces) :
    (s.enumBody text).corpus.WordInterfaces := by
  unfold enumBody
  split
  · exact hs
  · exact { hs with }

/-- Every step of a scan declares interfaces under words, -/
theorem stable_wordInterfaces (settings : Settings) :
    Stable settings fun s => s.corpus.WordInterfaces where
  leave hs := hs
  endEnum hs := hs
  note _ _ _ hs := hs
  addMember := wordInterfaces_addMember
  openClass hline hs :=
    { hs with classes := Table.isWord_keys_insert hs.classes (Line.namesWord_of_classify hline) }
  openCategory hline hs := wordInterfaces_openCategory (Line.namesWord_of_classify hline) hs
  openProtocol hline hs :=
    { hs with
      protocols := Table.isWord_keys_insert hs.protocols (Line.namesWord_of_classify hline) }
  openEnum _ hs := { hs with }
  enumBody := wordInterfaces_enumBody

/-! ### Enumerations -/

theorem enums_modifyPlace (s : Scan) (f : Interface → Interface) :
    (s.modifyPlace f).corpus.enums = s.corpus.enums := by
  unfold modifyPlace
  split <;> rfl

theorem enums_addMember (s : Scan) (text : Text) :
    (s.addMember text).corpus.enums = s.corpus.enums := by
  unfold addMember
  split
  · split
    · exact enums_modifyPlace s _
    · rfl
  · split
    · exact enums_modifyPlace s _
    · rfl

theorem enums_openCategory (s : Scan) (className category : Text) (adopted : Option Text) :
    (s.openCategory settings className category adopted).corpus.enums = s.corpus.enums := by
  unfold openCategory
  split <;> rfl

theorem wordEnums_enumBody (text : Text) (hs : s.corpus.WordEnums) :
    (s.enumBody text).corpus.WordEnums := by
  unfold enumBody
  split
  · exact hs
  · exact Table.isWord_keys_modify hs

/-- and enumerations too, if they are renamed to words. -/
theorem stable_wordEnums (henums : settings.enumRenames.WordTargets) :
    Stable settings fun s => s.corpus.WordEnums where
  leave hs := hs
  endEnum hs := hs
  note _ _ _ hs := hs
  addMember {s} text hs := by rwa [Corpus.WordEnums, enums_addMember s text]
  openClass _ hs := hs
  openCategory {s} _ className category adopted _ hs := by
    rwa [Corpus.WordEnums, enums_openCategory s className category adopted]
  openProtocol _ hs := hs
  openEnum hline hs :=
    Table.isWord_keys_insert hs (Settings.isWord_enumName henums (Line.namesWord_of_classify hline))
  enumBody := wordEnums_enumBody

end Scan

namespace Corpus

variable {settings : Settings} {c : Corpus}

/-- **A scanned corpus declares classes and protocols under words**, -/
theorem Scanned.wordInterfaces (h : Scanned settings c) : c.WordInterfaces :=
  h.of_stable (Scan.stable_wordInterfaces settings)
    ⟨Table.isWord_keys_empty, Table.isWord_keys_empty⟩

/-- and enumerations too, if they are renamed to words. -/
theorem Scanned.wordEnums (henums : settings.enumRenames.WordTargets) (h : Scanned settings c) :
    c.WordEnums := h.of_stable (Scan.stable_wordEnums henums) Table.isWord_keys_empty

/-- **Everything in a scanned corpus is declared under a word**, if so. -/
theorem Scanned.wordKeys (hplain : settings.enumRenames.PlainTargets) (h : Scanned settings c) :
    c.WordKeys where
  toWordInterfaces := h.wordInterfaces
  enums := h.wordEnums hplain.wordTargets

end Corpus

end CommonHeaders
