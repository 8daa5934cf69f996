import CommonHeaders.Proofs.EnumReferences

/-! # Renaming is replacing whole words

A base name is renamed by two rules, one after the other. The first puts the common tag in front of
the name, for the sake of an enumeration that is all of it or of a class that stands before its type
arguments; the second replaces every word that spells a common class or protocol, also in what the
first has written. For classes the first rule is not needed: where it applies, the name begins with
a word that the second replaces in the same way. So a base name that is no geometry type and no
enumeration is renamed word by word, and nothing is changed within a longer word.

What it means to be renamed word by word is said by a relation between texts, `ByWord`, which cuts
both of them at the same places.

* `byWord_iff`: the text that `mapWords` gives is the only one in the relation.
* `mapWords_retag`: the common tag of a class makes no difference to the words.
* `renameBase_word_by_word`: which name a base name is renamed to. -/

namespace CommonHeaders

open Naming Text

/-! ### Word by word -/

namespace Text

/-- **Texts related word by word.** Every word of the first text, read as far as it goes on, stands
against a related text in the second; every other character stands against itself. A word ends
where no word goes on, so none of them is part of a longer one. -/
inductive ByWord (R : Text → Text → Prop) : Text → Text → Prop where
  | nil : ByWord R [] []
  | other {c : Char} {t t' : Text} (hc : isWordChar c = false) (h : ByWord R t t') :
    ByWord R (c :: t) (c :: t')
  | word {w w' t t' : Text} (hw : IsWord w) (ht : EndsWord t) (hR : R w w') (h : ByWord R t t') :
    ByWord R (w ++ t) (w' ++ t')

/-- **There is one text word by word** if every word is related to one text. -/
theorem byWord_iff {R : Text → Text → Prop} {f : Text → Text} (hR : ∀ w w', R w w' ↔ w' = f w)
    {t t' : Text} : ByWord R t t' ↔ t' = mapWords f t := by
  constructor
  · intro h
    induction h with
    | nil => rfl
    | other hc _ ih => rw [mapWords_cons f _ hc, ih]
    | word hw ht hrel _ ih => rw [mapWords_append f hw ht, ih, (hR _ _).mp hrel]
  · rintro rfl
    induction t using word_induction with
    | nil => exact .nil
    | other c t hc ih =>
      rw [mapWords_cons f t hc]
      exact .other hc ih
    | word w t hw ht ih =>
      rw [mapWords_append f hw ht]
      exact .word hw ht ((hR _ _).mpr rfl) ih

end Text

/-! ### The two rules -/

namespace Renaming

variable {r : Renaming} {name : Text}

/-- **The common tag of a class makes no difference**: the word in front of the name, replaced by
itself, is the class. -/
theorem mapWords_retag (hr : r.WordInterfaces)
    (henum : ∀ rest, platformRest? name = some rest → unifiedTag ++ rest ∉ r.names.enums) :
    mapWords r.renameWord (r.retag name) = mapWords r.renameWord name := by
  rcases r.retag_cases name with ⟨hretag, -⟩ | ⟨rest, htagged, hretag, hmem | hclass⟩
  · rw [hretag]
  · exact absurd hmem (henum rest htagged)
  · obtain ⟨first, rest', tail, hfirst, hspells, htail, rfl, hbase, hsplit⟩ :=
      exists_first_of_base (spells_of_platformRest? htagged) (hr.classes _ hclass)
    rw [hbase] at hclass
    have hword : IsWord (unifiedTag ++ rest') := (hr.classes _ hclass).isWord
    have hreplaced : r.renameWord first = unifiedTag ++ rest' :=
      unifiedWord?_getD_of_spells hspells (List.mem_append_left _ hclass)
    calc mapWords r.renameWord (r.retag (first ++ tail))
        = mapWords r.renameWord (unifiedTag ++ rest' ++ tail) := by rw [hretag, hsplit]
      _ = unifiedTag ++ rest' ++ mapWords r.renameWord tail := by
          rw [mapWords_append _ hword htail, renameWord_unifiedTag]
      _ = mapWords r.renameWord (first ++ tail) := by
          rw [mapWords_append _ hfirst htail, hreplaced]

end Renaming

/-! ### Names in the model -/

/-- Is the name that of a class or a protocol of the model? -/
def UnifiedModel.NamesInterface (model : UnifiedModel) (name : Text) : Prop :=
  name ∈ model.classes.keys ∨ name ∈ model.protocols.keys

/-- **What a word is replaced by** in a model: by the name of the class or the protocol that it
spells, and if it spells none, by itself. -/
def UnifiedModel.Respells (model : UnifiedModel) (w w' : Text) : Prop :=
  (∃ rest, Spells w rest ∧ model.NamesInterface (unifiedTag ++ rest) ∧ w' = unifiedTag ++ rest) ∨
    w' = w ∧ ∀ rest, Spells w rest → ¬ model.NamesInterface (unifiedTag ++ rest)

section Model

variable {scanning settings : Settings} {mobile desktop : Corpus}

theorem namesInterface_iff {name : Text} :
    (unify settings mobile desktop).NamesInterface name ↔
      name ∈ (commonRenaming settings mobile desktop).names.classes ++
        (commonRenaming settings mobile desktop).names.protocols := by
  rw [UnifiedModel.NamesInterface, List.mem_append, mem_classes_keys, mem_protocols_keys]

/-- The renaming of a model replaces words as the model does. -/
theorem respells_iff (w w' : Text) :
    (unify settings mobile desktop).Respells w w' ↔
      w' = (commonRenaming settings mobile desktop).renameWord w := by
  simp only [UnifiedModel.Respells, namesInterface_iff]
  by_cases h : ∃ rest, Spells w rest ∧
      unifiedTag ++ rest ∈ (commonRenaming settings mobile desktop).names.classes ++
        (commonRenaming settings mobile desktop).names.protocols
  · obtain ⟨rest, hspells, hmem⟩ := h
    have hreplaced : (commonRenaming settings mobile desktop).renameWord w = unifiedTag ++ rest :=
      Renaming.unifiedWord?_getD_of_spells hspells hmem
    rw [hreplaced]
    constructor
    · rintro (⟨rest', hspells', hmem', rfl⟩ | ⟨-, hnone⟩)
      · exact hreplaced ▸ (Renaming.unifiedWord?_getD_of_spells hspells' hmem').symm
      · exact absurd hmem (hnone rest hspells)
    · intro hw'
      exact Or.inl ⟨rest, hspells, hmem, hw'⟩
  · have hnone : ∀ rest, Spells w rest → unifiedTag ++ rest ∉
        (commonRenaming settings mobile desktop).names.classes ++
          (commonRenaming settings mobile desktop).names.protocols :=
      fun rest hspells hmem => h ⟨rest, hspells, hmem⟩
    rw [Renaming.renameWord_eq_self hnone]
    constructor
    · rintro (⟨rest, hspells, hmem, -⟩ | ⟨hw', -⟩)
      · exact absurd hmem (hnone rest hspells)
      · exact hw'
    · intro hw'
      exact Or.inr ⟨hw', hnone⟩

/-- A spelling of an enumeration of the model becomes its name, if that is a word. -/
theorem renameBase_of_enum {name rest : Text} (hgeometry : settings.geometry.get? name = none)
    (hrest : startsUpper rest = true) (hspells : Spells name rest)
    (hword : IsWord (unifiedTag ++ rest))
    (henum : unifiedTag ++ rest ∈ (unify settings mobile desktop).enums.keys) :
    (commonRenaming settings mobile desktop).renameBase name = unifiedTag ++ rest := by
  obtain ⟨tag, htag, -, hname⟩ := hspells.isWord_tag
  have hcommon : toUnified name = unifiedTag ++ rest :=
    toUnified_of_platformRest? (hspells.platformRest? hrest)
  rw [renameBase_eq_ite_names hgeometry (hname ▸ htag.retag hword), hcommon]
  exact if_pos (Or.inl henum)

/-- **Renaming a base name is replacing whole words.** If the mobile headers are scanned under
settings that rename enumerations to words, then a base name that is no geometry type becomes the
name of the enumeration that all of it spells; and if it spells none, each of its words is replaced
by the class or protocol that the word spells, and nothing else is changed. -/
theorem renameBase_word_by_word (henums : scanning.enumRenames.WordTargets)
    (hmobile : Corpus.Scanned scanning mobile) {name : Text}
    (hgeometry : settings.geometry.get? name = none) :
    let r := commonRenaming settings mobile desktop
    let model := unify settings mobile desktop
    (∀ rest, startsUpper rest = true → Spells name rest → unifiedTag ++ rest ∈ model.enums.keys →
      r.renameBase name = unifiedTag ++ rest) ∧
    ((∀ rest, startsUpper rest = true → Spells name rest →
        unifiedTag ++ rest ∉ model.enums.keys) →
      ∀ renamed, r.renameBase name = renamed ↔ ByWord model.Respells name renamed) := by
  intro r model
  refine ⟨fun rest hrest hspells henum => ?_, fun hnone renamed => ?_⟩
  · have hword : IsWord (unifiedTag ++ rest) :=
      hmobile.wordEnums henums _ (mem_keys_of_mem_unified henum)
    exact renameBase_of_enum hgeometry hrest hspells hword henum
  · have hr : r.WordInterfaces := wordInterfaces_commonRenaming hmobile.wordInterfaces
    have hretag : mapWords r.renameWord (r.retag name) = mapWords r.renameWord name :=
      Renaming.mapWords_retag hr fun rest htagged =>
        hnone rest (platformRest?_eq_some_iff.mp htagged).1 (spells_of_platformRest? htagged)
    rw [byWord_iff respells_iff, Renaming.renameBase_of_none hgeometry, Renaming.substitute, hretag]
    exact eq_comm

end Model

/-- A mobile class, a protocol and an enumeration. -/
def lidMobile : Corpus :=
  Corpus.empty.scanText .default
    "@interface UIBox : A\n@protocol UILid\ntypedef NS_ENUM(int, UIMode) \x7b UIOn \x7d;".toList

/-- The same for the desktop. -/
def lidDesktop : Corpus :=
  Corpus.empty.scanText .default
    "@interface NSBox : A\n@protocol NSLid\ntypedef NS_ENUM(int, NSMode) \x7b NSOn \x7d;".toList

/-- Words are replaced before, within and behind type arguments, but not within longer words, nor an
enumeration that is not the whole name. -/
theorem renameBase_word_by_word_lids :
    Settings.default.enumRenames.WordTargets ∧ Corpus.Scanned .default lidMobile ∧
      (commonRenaming .default lidMobile lidDesktop).renameBase "NSMode".toList =
        "MAIMode".toList ∧
      ByWord (unify .default lidMobile lidDesktop).Respells
        "NSBox<id<UILid>,UIBoxes*,éUIBox,UIMode> UIBox".toList
        "MAIBox<id<MAILid>,UIBoxes*,éUIBox,UIMode> MAIBox".toList := by
  have henums : Settings.default.enumRenames.WordTargets :=
    Settings.plainTargets_default.enumRenames.wordTargets
  have hmobile : Corpus.Scanned .default lidMobile := .scanText _ .empty
  have hfacts : Settings.default.geometry.get? "NSMode".toList = none ∧
      "MAIMode".toList ∈ (unify .default lidMobile lidDesktop).enums.keys ∧
      Settings.default.geometry.get?
        "NSBox<id<UILid>,UIBoxes*,éUIBox,UIMode> UIBox".toList = none ∧
      platformRest? "NSBox<id<UILid>,UIBoxes*,éUIBox,UIMode> UIBox".toList =
        some "Box<id<UILid>,UIBoxes*,éUIBox,UIMode> UIBox".toList ∧
      (unify .default lidMobile lidDesktop).enums.keys = ["MAIMode".toList] ∧
      (commonRenaming .default lidMobile lidDesktop).renameBase
          "NSBox<id<UILid>,UIBoxes*,éUIBox,UIMode> UIBox".toList =
        "MAIBox<id<MAILid>,UIBoxes*,éUIBox,UIMode> MAIBox".toList := by decide +kernel
  obtain ⟨hmode, henum, hbox, hrest, hkeys, hrenamed⟩ := hfacts
  obtain ⟨hwhole, -⟩ := renameBase_word_by_word henums hmobile hmode
  obtain ⟨-, hwords⟩ := renameBase_word_by_word henums hmobile hbox
  refine ⟨henums, hmobile, hwhole "Mode".toList (by decide) (Or.inl rfl) henum,
    (hwords (fun rest hupper hspells hmem => ?_) _).mp hrenamed⟩
  obtain rfl := Option.some.inj (hrest.symm.trans (hspells.platformRest? hupper))
  rw [hkeys, List.mem_singleton] at hmem
  exact absurd hmem (by decide)

end CommonHeaders
