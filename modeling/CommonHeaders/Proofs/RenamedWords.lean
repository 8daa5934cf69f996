import CommonHeaders.Proofs.CollapsedText
import CommonHeaders.Proofs.Words
import CommonHeaders.Renaming

/-! # The words of a renamed base name

Renaming a base name replaces its words: first the name may be given the common tag, for the sake
of an enumeration that is all of it or of a class that is its first word, and then every word that
spells a common class or protocol is replaced. So each word afterwards was there before, or is a
common name; and no spelling of a common name is left, as it would have been replaced.

All of this needs that the common names of interfaces are words (`Renaming.WordInterfaces`), and
some of it that so are those of enumerations and what geometry types are replaced by, which then
also has no platform tag (`Renaming.Plain`).

* `words_renameBase_cases`: where the words of a renamed base name come from.
* `settled_renameBase`: none of them spells a common class or protocol, and the whole of it spells
  no common enumeration. -/

namespace CommonHeaders

open Naming Text

/-- **Substitutions by words**: every target is one. -/
def Table.WordTargets (t : Table Text) : Prop :=
  ∀ source target, t.get? source = some target → IsWord target

/-- **Substitutions by plain names**: every target is a word without a platform tag. -/
def Table.PlainTargets (t : Table Text) : Prop :=
  ∀ source target, t.get? source = some target → IsWord target ∧ platformRest? target = none

theorem Table.PlainTargets.wordTargets {t : Table Text} (h : t.PlainTargets) : t.WordTargets :=
  fun source target htarget => (h source target htarget).1

namespace Naming

/-! ### Spellings -/

/-- The name begins with the tag, an uppercase letter behind it. -/
def Carries (tag name : Text) : Prop := ∃ rest, startsUpper rest = true ∧ name = tag ++ rest

theorem carries_iff {tag name : Text} :
    Carries tag name ↔ ((Text.after? tag name).filter startsUpper).isSome = true := by
  simp only [Carries, Option.isSome_iff_exists, Option.filter_eq_some_iff, after?_eq_some_iff]
  exact exists_congr fun _ => and_comm

instance (tag name : Text) : Decidable (Carries tag name) := decidable_of_iff _ carries_iff.symm

/-- The name is a platform tag and the rest. -/
def Spells (name rest : Text) : Prop := name = desktopTag ++ rest ∨ name = mobileTag ++ rest

/-- A name of a common class or protocol: a word, with an uppercase letter behind the common tag. -/
structure IsCommon (name : Text) : Prop where
  isWord : IsWord name
  rest : Carries unifiedTag name

theorem not_spells_unifiedTag (rest rest' : Text) : ¬ Spells (unifiedTag ++ rest) rest' := by
  rintro (h | h)
  · exact absurd (List.cons.inj h).1 (by decide)
  · exact absurd (List.cons.inj h).1 (by decide)

theorem IsCommon.not_spells {name : Text} (h : IsCommon name) (rest : Text) :
    ¬ Spells name rest := by
  obtain ⟨rest', -, rfl⟩ := h.rest
  exact not_spells_unifiedTag rest' rest

theorem IsCommon.startsUpper {rest : Text} (h : IsCommon (unifiedTag ++ rest)) :
    startsUpper rest = true := by
  obtain ⟨rest', hupper, heq⟩ := h.rest
  rwa [List.append_cancel_left heq]

theorem Spells.platformRest? {name rest : Text} (h : Spells name rest)
    (hrest : startsUpper rest = true) : platformRest? name = some rest :=
  platformRest?_eq_some_iff.mpr ⟨hrest, h.symm⟩

theorem Spells.isWord_tag {name rest : Text} (h : Spells name rest) :
    ∃ tag, IsWord tag ∧ (∀ rest', Spells (tag ++ rest') rest') ∧ name = tag ++ rest := by
  rcases h with h | h
  · exact ⟨desktopTag, isWord_desktopTag, fun _ => Or.inl rfl, h⟩
  · exact ⟨mobileTag, isWord_mobileTag, fun _ => Or.inr rfl, h⟩

/-- A name with a platform tag spells its rest. -/
theorem spells_of_platformRest? {name rest : Text} (h : platformRest? name = some rest) :
    Spells name rest := (platformRest?_eq_some_iff.mp h).2.symm

end Naming

/-! ### The base of a name -/

namespace Text

/-- What follows the part of a name before its type arguments begins no word. -/
theorem exists_tail_of_base (t : Text) :
    ∃ tail, EndsWord tail ∧ t = trimEnd (t.takeWhile (· != '<')) ++ tail := by
  have hsplit := List.takeWhile_append_dropWhile (p := (· != '<')) (l := t)
  have htrim := dropEndWhile_append isBlank (t.takeWhile (· != '<'))
  refine ⟨((t.takeWhile (· != '<')).reverse.takeWhile isBlank).reverse ++ t.dropWhile (· != '<'),
    endsWord_append (fun c hc => ?_) fun c hc => ?_, ?_⟩
  · exact List.mem_takeWhile_imp (List.mem_reverse.mp hc)
  · have hangle := List.head?_dropWhile_not (· != '<') t
    rw [Option.mem_def.mp hc] at hangle
    have hc' : c = '<' := by simpa using hangle
    rw [hc']
    decide
  · rw [← List.append_assoc, trimEnd, htrim, hsplit]

/-- A word is all of its base: it has no type arguments and no blanks. -/
theorem base_of_isWord {w : Text} (hw : IsWord w) : trimEnd (w.takeWhile (· != '<')) = w := by
  have hangle : w.takeWhile (· != '<') = w := by
    refine List.takeWhile_eq_self_iff.mpr fun c hc => bne_iff_ne.mpr ?_
    rintro rfl
    exact absurd (hw.chars '<' hc) (by decide)
  have hblank : w.reverse.dropWhile isBlank = w.reverse := by
    refine List.dropWhile_eq_self_iff.mpr fun hlength hfirst => ?_
    have hword := hw.chars _ (List.mem_reverse.mp (List.getElem_mem hlength))
    rw [isWordChar_of_isBlank hfirst] at hword
    exact absurd hword (by decide)
  rw [hangle, trimEnd, dropEndWhile, hblank, List.reverse_reverse]

end Text

namespace Renaming

/-- The common names of classes and protocols are words. -/
structure WordInterfaces (r : Renaming) : Prop where
  classes : ∀ name ∈ r.names.classes, IsCommon name
  protocols : ∀ name ∈ r.names.protocols, IsCommon name

/-- **Plain renamings**: common names are words, and so is what geometry types are replaced by. -/
structure Plain (r : Renaming) : Prop extends r.WordInterfaces where
  geometry : r.geometry.PlainTargets
  enums : ∀ name ∈ r.names.enums, IsWord name

variable {r : Renaming}

theorem WordInterfaces.isCommon (hr : r.WordInterfaces) {name : Text}
    (h : name ∈ r.names.classes ++ r.names.protocols) : IsCommon name := by
  rcases List.mem_append.mp h with h | h
  · exact hr.classes name h
  · exact hr.protocols name h

/-! ### Words, renamed -/

/-- A name that spells none of the names given is not replaced. -/
theorem unifiedWord?_getD_eq_self {names : List Text} {w : Text}
    (h : ∀ rest, Spells w rest → unifiedTag ++ rest ∉ names) :
    (unifiedWord? names w).getD w = w := by
  cases hw : unifiedWord? names w with
  | none => rfl
  | some unified =>
    obtain ⟨hmem, rest, rfl, hspells⟩ := unifiedWord?_eq_some_iff.mp hw
    exact absurd hmem (h rest hspells)

/-- A spelling of one of the names given is replaced by it. -/
theorem unifiedWord?_getD_of_spells {names : List Text} {w rest : Text} (hspells : Spells w rest)
    (h : unifiedTag ++ rest ∈ names) : (unifiedWord? names w).getD w = unifiedTag ++ rest := by
  rw [unifiedWord?_eq_some_iff.mpr ⟨h, rest, rfl, hspells⟩]
  rfl

/-- A name becomes one of the names given, or stays and spells none. -/
theorem unifiedWord?_getD_cases (names : List Text) (w : Text) :
    (unifiedWord? names w).getD w ∈ names ∨
      (unifiedWord? names w).getD w = w ∧
        ∀ rest, Spells w rest → unifiedTag ++ rest ∉ names := by
  by_cases h : ∃ rest, Spells w rest ∧ unifiedTag ++ rest ∈ names
  · obtain ⟨rest, hspells, hmem⟩ := h
    exact Or.inl ((unifiedWord?_getD_of_spells hspells hmem).symm ▸ hmem)
  · have hnone : ∀ rest, Spells w rest → unifiedTag ++ rest ∉ names :=
      fun rest hspells hmem => h ⟨rest, hspells, hmem⟩
    exact Or.inr ⟨unifiedWord?_getD_eq_self hnone, hnone⟩

theorem renameWord_eq_self {w : Text}
    (h : ∀ rest, Spells w rest → unifiedTag ++ rest ∉ r.names.classes ++ r.names.protocols) :
    r.renameWord w = w := unifiedWord?_getD_eq_self h

/-- A word with the common tag is not replaced. -/
theorem renameWord_unifiedTag (r : Renaming) (rest : Text) :
    r.renameWord (unifiedTag ++ rest) = unifiedTag ++ rest :=
  renameWord_eq_self fun rest' hspells => absurd hspells (not_spells_unifiedTag rest rest')

/-- A word becomes a common name, or stays and spells none. -/
theorem renameWord_cases (r : Renaming) (w : Text) :
    r.renameWord w ∈ r.names.classes ++ r.names.protocols ∨
      r.renameWord w = w ∧
        ∀ rest, Spells w rest → unifiedTag ++ rest ∉ r.names.classes ++ r.names.protocols :=
  unifiedWord?_getD_cases _ w

/-- The name of an adopted protocol becomes that of a common protocol, or stays and spells none. -/
theorem renameProtocol_cases (r : Renaming) (name : Text) :
    r.renameProtocol name ∈ r.names.protocols ∨
      r.renameProtocol name = name ∧
        ∀ rest, Spells name rest → unifiedTag ++ rest ∉ r.names.protocols :=
  unifiedWord?_getD_cases _ name

/-- The name of an adopted protocol is not replaced if it has the common tag. -/
theorem renameProtocol_of_isUnified (r : Renaming) {name : Text}
    (h : isUnified name = true) : r.renameProtocol name = name := by
  obtain ⟨rest, rfl⟩ := isUnified_iff.mp h
  exact unifiedWord?_getD_eq_self fun rest' hspells =>
    absurd hspells (not_spells_unifiedTag rest rest')

theorem isWord_renameWord (hr : r.WordInterfaces) {w : Text} (hw : IsWord w) :
    IsWord (r.renameWord w) := by
  rcases r.renameWord_cases w with h | ⟨h, -⟩
  · exact (hr.isCommon h).isWord
  · exact h.symm ▸ hw

/-- No word is left that spells a common class or protocol. -/
theorem not_spells_renameWord (hr : r.WordInterfaces) {w rest : Text}
    (h : Spells (r.renameWord w) rest) :
    unifiedTag ++ rest ∉ r.names.classes ++ r.names.protocols := by
  rcases r.renameWord_cases w with hmem | ⟨heq, hnot⟩
  · exact absurd h ((hr.isCommon hmem).not_spells rest)
  · exact hnot rest (heq ▸ h)

/-! ### The common tag -/

/-- A name keeps its tag, or becomes a common enumeration, or begins with a common class. -/
theorem retag_cases (r : Renaming) (name : Text) :
    (r.retag name = name ∧ ∀ rest, platformRest? name = some rest →
      unifiedTag ++ rest ∉ r.names.enums) ∨
      ∃ rest, platformRest? name = some rest ∧ r.retag name = unifiedTag ++ rest ∧
        (unifiedTag ++ rest ∈ r.names.enums ∨
          trimEnd ((unifiedTag ++ rest).takeWhile (· != '<')) ∈ r.names.classes) := by
  unfold retag
  cases h : platformRest? name with
  | none => exact Or.inl ⟨rfl, fun rest hrest => by simp at hrest⟩
  | some rest =>
    simp only [Bool.or_eq_true, List.contains_iff_mem]
    split
    · rename_i hmem
      exact Or.inr ⟨rest, rfl, rfl, hmem⟩
    · rename_i hmem
      refine Or.inl ⟨rfl, fun rest' hrest' henum => hmem (Or.inl ?_)⟩
      rwa [Option.some.inj hrest']

/-- A name that begins with a common class under the common tag begins with a spelling of it under
its own tag, and what follows is the same. -/
theorem exists_first_of_base {name rest : Text} (hname : Spells name rest)
    (hbase : IsCommon (trimEnd ((unifiedTag ++ rest).takeWhile (· != '<')))) :
    ∃ first rest' tail, IsWord first ∧ Spells first rest' ∧ EndsWord tail ∧ name = first ++ tail ∧
      trimEnd ((unifiedTag ++ rest).takeWhile (· != '<')) = unifiedTag ++ rest' ∧
      unifiedTag ++ rest = unifiedTag ++ rest' ++ tail := by
  obtain ⟨tail, htail, hsplit⟩ := exists_tail_of_base (unifiedTag ++ rest)
  obtain ⟨rest', -, hrest'⟩ := hbase.rest
  obtain ⟨tag, htag, hspells, rfl⟩ := hname.isWord_tag
  have hrest : rest = rest' ++ tail := by
    rw [hrest', List.append_assoc] at hsplit
    exact List.append_cancel_left hsplit
  have hfirst : IsWord (tag ++ rest') := htag.retag (hrest' ▸ hbase.isWord)
  refine ⟨tag ++ rest', rest', tail, hfirst, hspells rest', htail, ?_, hrest', ?_⟩
  · rw [hrest, List.append_assoc]
  · rw [hrest, List.append_assoc]

/-- Behind the common tag stands the same first word as behind a platform tag. -/
theorem words_retag_of_base {name rest : Text} (hname : Spells name rest)
    (hbase : IsCommon (trimEnd ((unifiedTag ++ rest).takeWhile (· != '<')))) :
    ∃ first others rest', words name = first :: others ∧ Spells first rest' ∧
      trimEnd ((unifiedTag ++ rest).takeWhile (· != '<')) = unifiedTag ++ rest' ∧
      words (unifiedTag ++ rest) = (unifiedTag ++ rest') :: others := by
  obtain ⟨first, rest', tail, hfirst, hspells, htail, rfl, hrest', hsplit⟩ :=
    exists_first_of_base hname hbase
  refine ⟨first, words tail, rest', words_append hfirst htail, hspells, hrest', ?_⟩
  rw [hsplit, words_append (hrest' ▸ hbase.isWord) htail]

/-- **The words of a name under the common tag** were there before, or are common names. -/
theorem words_retag_cases (hr : r.Plain) {name w : Text} (hw : w ∈ words (r.retag name)) :
    w ∈ words name ∨ w ∈ r.names.classes ∨ w ∈ r.names.enums := by
  rcases r.retag_cases name with ⟨heq, -⟩ | ⟨rest, htagged, heq, henum | hclass⟩
  · exact Or.inl (heq ▸ hw)
  · rw [heq, words_of_isWord (hr.enums _ henum), List.mem_singleton] at hw
    exact Or.inr (Or.inr (hw ▸ henum))
  · have hspells := spells_of_platformRest? htagged
    obtain ⟨first, others, rest', hname, -, hbase, hretag⟩ :=
      words_retag_of_base hspells (hr.classes _ hclass)
    rw [heq, hretag] at hw
    rcases List.mem_cons.mp hw with rfl | hw
    · exact Or.inr (Or.inl (hbase ▸ hclass))
    · exact Or.inl (hname ▸ List.mem_cons_of_mem _ hw)

/-! ### Base names, renamed -/

/-- What a base name that is no geometry type is renamed to, word by word. -/
def substitute (r : Renaming) (name : Text) : Text := mapWords r.renameWord (r.retag name)

theorem renameBase_of_some {name target : Text}
    (h : r.geometry.get? name = some target) :
    r.renameBase name = target := by
  unfold renameBase
  rw [h]

theorem renameBase_of_none {name : Text} (h : r.geometry.get? name = none) :
    r.renameBase name = r.substitute name := by
  unfold renameBase
  rw [h]
  rfl

/-- A base name is replaced by a geometry type, or word by word. -/
theorem renameBase_cases (r : Renaming) (name : Text) :
    r.geometry.get? name = some (r.renameBase name) ∨ r.renameBase name = r.substitute name := by
  cases h : r.geometry.get? name with
  | some neutral => exact Or.inl (congrArg some (renameBase_of_some h).symm)
  | none => exact Or.inr (renameBase_of_none h)

theorem words_mapWords_renameWord (hr : r.WordInterfaces) (name : Text) :
    words (mapWords r.renameWord name) = (words name).map r.renameWord :=
  words_mapWords fun _ hw => isWord_renameWord hr (isWord_of_mem_words hw)

/-- **Where the words of a renamed base name come from.** -/
theorem words_renameBase_cases (hr : r.Plain) {name w : Text} (hw : w ∈ words (r.renameBase name)) :
    w ∈ words name ∨ (∃ source, r.geometry.get? source = some w) ∨ w ∈ r.names.classes ∨
      w ∈ r.names.protocols ∨ w ∈ r.names.enums := by
  rcases r.renameBase_cases name with h | h
  · rw [words_of_isWord (hr.geometry _ _ h).1, List.mem_singleton] at hw
    exact Or.inr (Or.inl ⟨name, hw ▸ h⟩)
  · rw [h, substitute, words_mapWords_renameWord hr.toWordInterfaces] at hw
    obtain ⟨v, hv, rfl⟩ := List.mem_map.mp hw
    rcases r.renameWord_cases v with hmem | ⟨heq, -⟩
    · rcases List.mem_append.mp hmem with hmem | hmem
      · exact Or.inr (Or.inr (Or.inl hmem))
      · exact Or.inr (Or.inr (Or.inr (Or.inl hmem)))
    · rw [heq]
      rcases words_retag_cases hr hv with hv | hv | hv
      · exact Or.inl hv
      · exact Or.inr (Or.inr (Or.inl hv))
      · exact Or.inr (Or.inr (Or.inr (Or.inr hv)))

/-- **Settled names**: none of the words spells a common class or protocol, and the name as a whole
spells no common enumeration. -/
structure Settled (r : Renaming) (name : Text) : Prop where
  byWord : ∀ w ∈ words name, ∀ rest, Spells w rest →
    unifiedTag ++ rest ∉ r.names.classes ++ r.names.protocols
  whole : ∀ rest, platformRest? name = some rest → unifiedTag ++ rest ∉ r.names.enums

/-- A name whose words have been replaced has no word left that spells a common class or
protocol. -/
theorem not_spells_of_mem_words_substitute (hr : r.WordInterfaces) {name w rest : Text}
    (hw : w ∈ words (r.substitute name)) (hspells : Spells w rest) :
    unifiedTag ++ rest ∉ r.names.classes ++ r.names.protocols := by
  rw [substitute, words_mapWords_renameWord hr] at hw
  obtain ⟨v, -, rfl⟩ := List.mem_map.mp hw
  exact not_spells_renameWord hr hspells

/-- A text that is a platform spelling after its words have been replaced has not been changed: what
replaces words has the common tag. -/
theorem mapWords_eq_of_spells (hr : r.WordInterfaces) {name rest : Text}
    (hword : IsWord (mapWords r.renameWord name)) (h : Spells (mapWords r.renameWord name) rest) :
    mapWords r.renameWord name = name := by
  have hwords := words_mapWords_renameWord hr name
  rw [words_of_isWord hword] at hwords
  have hsame : ∀ w ∈ words name, r.renameWord w = id w := by
    intro w hw
    have himage : r.renameWord w ∈ (words name).map r.renameWord := List.mem_map_of_mem hw
    rw [← hwords, List.mem_singleton] at himage
    rcases r.renameWord_cases w with hmem | ⟨heq, -⟩
    · exact absurd (himage ▸ h) ((hr.isCommon hmem).not_spells rest)
    · exact heq
  exact (mapWords_congr hsame).trans (mapWords_id name)

/-- A name whose words have been replaced is settled. -/
theorem settled_substitute (hr : r.Plain) (name : Text) : r.Settled (r.substitute name) where
  byWord _ hw _ := not_spells_of_mem_words_substitute hr.toWordInterfaces hw
  whole rest htagged henum := by
    have hspells : Spells (r.substitute name) rest := spells_of_platformRest? htagged
    obtain ⟨tag, htag, -, hout⟩ := hspells.isWord_tag
    have hword : IsWord (r.substitute name) := hout ▸ htag.retag (hr.enums _ henum)
    have hsame : r.substitute name = r.retag name :=
      mapWords_eq_of_spells hr.toWordInterfaces hword hspells
    -- so the name itself was the spelling, and would have been given the common tag
    rcases r.retag_cases name with ⟨heq, hnot⟩ | ⟨rest', -, heq, -⟩
    · rw [hsame, heq] at htagged
      exact hnot rest htagged henum
    · rw [hsame, heq] at hspells
      exact not_spells_unifiedTag rest' rest hspells

/-- What geometry types are replaced by is settled. -/
theorem settled_target (hr : r.Plain) {source target : Text}
    (h : r.geometry.get? source = some target) : r.Settled target := by
  obtain ⟨hword, huntagged⟩ := hr.geometry source target h
  have hno : ∀ rest, platformRest? target ≠ some rest := by
    intro rest htagged
    rw [huntagged] at htagged
    simp at htagged
  refine ⟨fun w hw rest hspells hmem => ?_, fun rest htagged => absurd htagged (hno rest)⟩
  rw [words_of_isWord hword, List.mem_singleton] at hw
  have hupper := (hr.isCommon hmem).startsUpper
  exact hno rest ((hw ▸ hspells).platformRest? hupper)

/-- **Renamed base names are settled.** -/
theorem settled_renameBase (hr : r.Plain) (name : Text) : r.Settled (r.renameBase name) := by
  rcases r.renameBase_cases name with h | h
  · exact settled_target hr h
  · rw [h]
    exact settled_substitute hr name

end Renaming

end CommonHeaders
