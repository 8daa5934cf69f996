import CommonHeaders.Proofs.CommonEnums
import CommonHeaders.Proofs.DeclaredNames
import CommonHeaders.Proofs.TypeOccurrences

/-! # Types of the common model refer to the common model

The names that types are renamed to are fixed before anything is renamed: they are the names of the
pairs and of the enumerations in common, and these are the names under which the model then holds
its interfaces and enumerations. So whatever a type of a common interface could name in the model
it does name there: no platform spelling of a common name is left, and a word that is in no type of
the headers is a geometry type or in the model.

* `mem_classes_keys`, `mem_protocols_keys`: the model holds the names that types are renamed to.
* `plain_commonRenaming`: scanned corpora give plain renamings.
* `unify_types_closed`: the types of common interfaces are closed. -/

namespace CommonHeaders

open Naming Text

/-- **Settings with plain targets**: types and enumerations are replaced by words without a platform
tag. -/
structure Settings.PlainTargets (s : Settings) : Prop where
  geometry : s.geometry.PlainTargets
  enumRenames : s.enumRenames.PlainTargets

theorem Table.plainTargets_of_entries {t : Table Text}
    (h : ∀ e ∈ t.entries, e.2 ≠ [] ∧ e.2.all isWordChar = true ∧ platformRest? e.2 = none) :
    t.PlainTargets := by
  intro source target htarget
  obtain ⟨hne, hchars, hplain⟩ := h (source, target) (get?_eq_some_iff.mp htarget)
  exact ⟨isWord_of_all hne hchars, hplain⟩

/-- The settings that hold unless others are given have plain targets. -/
theorem Settings.plainTargets_default : Settings.default.PlainTargets :=
  ⟨Table.plainTargets_of_entries (by decide), Table.plainTargets_of_entries (by decide)⟩

/-! ### The names of the model -/

section Names

variable {settings : Settings} {mobile desktop : Corpus} {name : Text}

/-- The model holds classes under the names that types are renamed to, -/
theorem mem_classes_keys :
    name ∈ (unify settings mobile desktop).classes.keys ↔
      name ∈ (commonRenaming settings mobile desktop).names.classes := by
  have hkeys := congrArg Table.keys (classes_map_pair settings mobile desktop)
  rw [Table.keys_map] at hkeys
  rw [hkeys]
  rfl

/-- and so it does protocols. -/
theorem mem_protocols_keys :
    name ∈ (unify settings mobile desktop).protocols.keys ↔
      name ∈ (commonRenaming settings mobile desktop).names.protocols := by
  have hkeys := congrArg Table.keys (protocols_map_pair settings mobile desktop)
  rw [Table.keys_map] at hkeys
  rw [hkeys]
  rfl

/-- A name of a pair is common, if mobile interfaces are declared under words. -/
theorem isCommon_of_mem_pairs {mobile desktop : Table Interface}
    (hmobile : ∀ name ∈ mobile.keys, IsWord name)
    (h : name ∈ (pairInterfaces mobile desktop).keys) : IsCommon name := by
  obtain ⟨p, hp⟩ := Table.mem_keys_iff.mp h
  obtain ⟨rest, hupper, rfl, hside, -, hmem, -⟩ := rest_of_pair hp
  refine ⟨?_, rest, hupper, rfl⟩
  have hword := hmobile _ hmem
  rcases hside with hside | hside
  · exact isWord_unifiedTag.retag (hside ▸ hword)
  · exact isWord_unifiedTag.retag (hside ▸ hword)

/-- An enumeration in common is a mobile one. -/
theorem mem_keys_of_mem_unified {mobile desktop : Table Enumeration}
    (h : name ∈ (unifyEnums mobile desktop).unified.keys) : name ∈ mobile.keys := by
  obtain ⟨e, he⟩ := Table.mem_keys_iff.mp h
  obtain ⟨a, b, ha, -⟩ := get?_unifyEnums.mp he
  exact Table.mem_keys_of_get? ha

/-- Interfaces declared under words have words as common names. -/
theorem wordInterfaces_commonRenaming (hmobile : mobile.WordInterfaces) :
    (commonRenaming settings mobile desktop).WordInterfaces where
  classes _ h := isCommon_of_mem_pairs hmobile.classes h
  protocols _ h := isCommon_of_mem_pairs hmobile.protocols h

/-- **A plain renaming**: declarations under words and plain geometry targets make one. -/
theorem plain_commonRenaming (hgeometry : settings.geometry.PlainTargets)
    (hmobile : mobile.WordKeys) : (commonRenaming settings mobile desktop).Plain where
  toWordInterfaces := wordInterfaces_commonRenaming hmobile.toWordInterfaces
  geometry := hgeometry
  enums name h := hmobile.enums name (mem_keys_of_mem_unified h)

end Names

/-! ### Closed types -/

/-- Is the word in a type that occurs in the corpus? -/
def Corpus.Mentions (c : Corpus) (w : Text) : Prop := ∃ t, c.Occurs t ∧ w ∈ words t.name

/-- **A base name that is closed** in the common model of two corpora. -/
structure ClosedName (settings : Settings) (mobile desktop : Corpus) (name : Text) : Prop where
  /-- No word of it spells a class or a protocol of the model. -/
  no_interface : ∀ w ∈ words name, ∀ rest, Spells w rest →
    unifiedTag ++ rest ∉ (unify settings mobile desktop).classes.keys ∧
      unifiedTag ++ rest ∉ (unify settings mobile desktop).protocols.keys
  /-- The whole of it spells no enumeration of the model. -/
  no_enum : ∀ rest, startsUpper rest = true → Spells name rest →
    unifiedTag ++ rest ∉ (unify settings mobile desktop).enums.keys
  /-- Every word of it that is in no type of the corpora is a geometry target or in the model. -/
  new_word : ∀ w ∈ words name, ¬ mobile.Mentions w → ¬ desktop.Mentions w →
    (∃ source, settings.geometry.get? source = some w) ∨
      w ∈ (unify settings mobile desktop).classes.keys ∨
      w ∈ (unify settings mobile desktop).protocols.keys ∨
      w ∈ (unify settings mobile desktop).enums.keys

/-- Every name of a type in a corpus, renamed, is closed. -/
theorem closedName_renameBase {settings : Settings} {mobile desktop : Corpus} {t : TypeRef}
    (hr : (commonRenaming settings mobile desktop).Plain)
    (ht : mobile.Occurs t ∨ desktop.Occurs t) :
    ClosedName settings mobile desktop
      ((commonRenaming settings mobile desktop).renameBase t.name) where
  no_interface w hw rest hspells := by
    have hnot := (Renaming.settled_renameBase hr t.name).byWord w hw rest hspells
    rw [List.mem_append, not_or] at hnot
    exact ⟨fun h => hnot.1 (mem_classes_keys.mp h), fun h => hnot.2 (mem_protocols_keys.mp h)⟩
  no_enum rest hrest hspells :=
    (Renaming.settled_renameBase hr t.name).whole rest (hspells.platformRest? hrest)
  new_word w hw hmobile hdesktop := by
    rcases Renaming.words_renameBase_cases hr hw with hold | hgeometry | hclass | hprotocol | henum
    · rcases ht with ht | ht
      · exact absurd ⟨t, ht, hold⟩ hmobile
      · exact absurd ⟨t, ht, hold⟩ hdesktop
    · exact Or.inl hgeometry
    · exact Or.inr (Or.inl (mem_classes_keys.mpr hclass))
    · exact Or.inr (Or.inr (Or.inl (mem_protocols_keys.mpr hprotocol)))
    · exact Or.inr (Or.inr (Or.inr henum))

/-- A mobile class with a method whose type names it as an argument. -/
def nestMobile : Corpus :=
  Corpus.empty.scanText .default "@interface UINest : A\n-(NSSet<UINest*>*)me;".toList

/-- The same for the desktop. -/
def nestDesktop : Corpus :=
  Corpus.empty.scanText .default "@interface NSNest : A\n-(NSSet<NSNest*>*)me;".toList

/-- **The types of common interfaces are closed**, if the mobile corpus comes from headers, scanned
and unified under settings with plain targets, as the default ones are. What the desktop corpus
comes from does not matter. -/
theorem unify_types_closed :
    Settings.default.PlainTargets ∧
      ∀ {scanning settings : Settings} {mobile desktop : Corpus},
        scanning.PlainTargets → settings.PlainTargets → Corpus.Scanned scanning mobile →
          ∀ u, (unify settings mobile desktop).Has u → ∀ t, u.interface.Occurs t →
            ClosedName settings mobile desktop t.name := by
  refine ⟨Settings.plainTargets_default, ?_⟩
  intro scanning settings mobile desktop hscanning hsettings hmobile u hu t ht
  have hplain : (commonRenaming settings mobile desktop).Plain :=
    plain_commonRenaming hsettings.geometry (hmobile.wordKeys hscanning.enumRenames)
  obtain ⟨t', ht', rfl⟩ := occurs_unify hu ht
  exact closedName_renameBase hplain ht'

/-- The argument of the type is the common class, and the set stays the one of the platforms. -/
theorem unify_types_closed_nest :
    ∃ u, (unify .default nestMobile nestDesktop).Has u ∧
      ∃ t, u.interface.Occurs t ∧ t.name = "NSSet<MAINest*>".toList ∧
        ClosedName .default nestMobile nestDesktop t.name := by
  have h : ((unify .default nestMobile nestDesktop).classes.get? "MAINest".toList).any (fun u =>
      (u.interface.methods.get? "me".toList).any fun m =>
        m.returnType.name = "NSSet<MAINest*>".toList) = true := by decide +kernel
  obtain ⟨u, hu, hmethod⟩ := (Option.any_eq_true _ _).mp h
  obtain ⟨m, hm, hname⟩ := (Option.any_eq_true _ _).mp hmethod
  have hscanned : Corpus.Scanned .default nestMobile := .scanText _ .empty
  have hclosed := unify_types_closed.2 Settings.plainTargets_default Settings.plainTargets_default
    hscanned u (.inClass hu) m.returnType (.returnType hm)
  exact ⟨u, .inClass hu, m.returnType, .returnType hm, of_decide_eq_true hname, hclosed⟩

end CommonHeaders
