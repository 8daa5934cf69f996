import CommonHeaders.Proofs.ClosedTypes

/-! # References to enumerations

An enumeration gets its name where it is declared: the common name of the one in the header,
replaced if the settings rename it. References to it are renamed later, and the settings are not
asked again: a word gets the common tag if that makes it the name of a common enumeration, class or
protocol, and otherwise stays as it is. So a reference ends under the name of the declaration if the
settings leave the enumeration its common name, or if they give it back the name in the header and
nothing else has the common one.

* `renameBase_of_isWord`, `renameBase_eq_ite_names`: what becomes of a base name that is a word.
* `renameBase_enumName_iff`: when a reference ends under the name of the declaration. -/

namespace CommonHeaders

open Naming Text

/-! ### Base names that are words -/

namespace Renaming

variable {r : Renaming} {name rest : Text}

theorem retag_of_untagged (h : platformRest? name = none) : r.retag name = name := by
  unfold retag
  rw [h]

/-- A word is given the common tag for the sake of an enumeration or of a class. -/
theorem retag_of_isWord (hw : IsWord name) (h : platformRest? name = some rest) :
    r.retag name =
      if unifiedTag ++ rest ∈ r.names.enums ∨ unifiedTag ++ rest ∈ r.names.classes
      then unifiedTag ++ rest else name := by
  have hcommon : IsWord (unifiedTag ++ rest) := toUnified_of_platformRest? h ▸ isWord_toUnified hw
  unfold retag
  rw [h]
  simp only [base_of_isWord hcommon, Bool.or_eq_true, List.contains_iff_mem]

variable (hr : ∀ rest, unifiedTag ++ rest ∈ r.names.classes ++ r.names.protocols →
  startsUpper rest = true)
include hr

theorem renameWord_of_untagged (h : platformRest? name = none) : r.renameWord name = name := by
  refine renameWord_eq_self fun rest hspells hmem => ?_
  rw [hspells.platformRest? (hr rest hmem)] at h
  exact absurd h (by simp)

theorem renameWord_of_tagged (h : platformRest? name = some rest) :
    r.renameWord name =
      if unifiedTag ++ rest ∈ r.names.classes ++ r.names.protocols then unifiedTag ++ rest
      else name := by
  split
  · rename_i hmem
    exact unifiedWord?_getD_of_spells (spells_of_platformRest? h) hmem
  · rename_i hnot
    refine renameWord_eq_self fun rest' hspells hmem => hnot ?_
    obtain rfl : rest' = rest :=
      Option.some.inj ((hspells.platformRest? (hr rest' hmem)).symm.trans h)
    exact hmem

/-- **A word is renamed to its common name** if something goes by that, and otherwise it stays. -/
theorem renameBase_of_isWord (hgeometry : r.geometry.get? name = none) (hw : IsWord name) :
    r.renameBase name =
      if toUnified name ∈ r.names.enums ∨ toUnified name ∈ r.names.classes ++ r.names.protocols
      then toUnified name else name := by
  rw [renameBase_of_none hgeometry, substitute]
  cases htag : platformRest? name with
  | none =>
    rw [toUnified_of_not htag, ite_self, retag_of_untagged htag, mapWords_of_isWord _ hw,
      renameWord_of_untagged hr htag]
  | some rest =>
    have hcommon : IsWord (unifiedTag ++ rest) :=
      toUnified_of_platformRest? htag ▸ isWord_toUnified hw
    rw [toUnified_of_platformRest? htag, retag_of_isWord hw htag]
    by_cases hmem : unifiedTag ++ rest ∈ r.names.enums ∨ unifiedTag ++ rest ∈ r.names.classes
    · have hcommonName := hmem.imp_right (List.mem_append_left r.names.protocols)
      rw [if_pos hmem, if_pos hcommonName, mapWords_of_isWord _ hcommon,
        renameWord_unifiedTag]
    · rw [if_neg hmem, mapWords_of_isWord _ hw, renameWord_of_tagged hr htag]
      have henum : unifiedTag ++ rest ∉ r.names.enums := fun h => hmem (Or.inl h)
      simp only [henum, false_or]

end Renaming

/-! ### Declarations and references -/

/-- Reading members loses no enumeration. -/
theorem Scan.mem_enums_enumBody {s : Scan} {name : Text} (text : Text)
    (h : name ∈ s.corpus.enums.keys) : name ∈ (s.enumBody text).corpus.enums.keys := by
  unfold enumBody
  split
  · exact h
  · exact Table.mem_keys_modify.mpr h

/-- An opening line declares the enumeration under the name that the settings give it. -/
theorem Scan.mem_enums_feedLine {settings : Settings} {line underlying name : Text}
    {kind : EnumKind} {body : Option Text}
    (hline : Line.classify line = .enumOpen kind underlying name body) (s : Scan) :
    settings.enumName (toUnified name) ∈ (s.feedLine settings line).corpus.enums.keys := by
  unfold feedLine
  rw [hline]
  cases body with
  | none => exact Table.mem_keys_insert.mpr (Or.inl rfl)
  | some body => exact mem_enums_enumBody body (Table.mem_keys_insert.mpr (Or.inl rfl))

section Model

variable {settings : Settings} {mobile desktop : Corpus} {name : Text}

/-- **Is the name that of an enumeration, a class or a protocol of the model?** -/
def UnifiedModel.Names (model : UnifiedModel) (name : Text) : Prop :=
  name ∈ model.enums.keys ∨ name ∈ model.classes.keys ∨ name ∈ model.protocols.keys

theorem UnifiedModel.names_iff {model : UnifiedModel} {name : Text} :
    (model.enums.contains name || (model.classes.contains name || model.protocols.contains name)) =
      true ↔ model.Names name := by
  rw [Bool.or_eq_true, Bool.or_eq_true, Table.contains_iff, Table.contains_iff,
    Table.contains_iff, Names]

instance (model : UnifiedModel) (name : Text) : Decidable (model.Names name) :=
  decidable_of_iff _ UnifiedModel.names_iff

/-- The names that references are renamed to are those of the model. -/
theorem mem_commonRenaming_iff :
    (name ∈ (commonRenaming settings mobile desktop).names.enums ∨
      name ∈ (commonRenaming settings mobile desktop).names.classes ++
        (commonRenaming settings mobile desktop).names.protocols) ↔
      (unify settings mobile desktop).Names name := by
  rw [UnifiedModel.Names, List.mem_append, mem_classes_keys, mem_protocols_keys]
  rfl

theorem startsUpper_of_mem_commonRenaming {rest : Text}
    (h : unifiedTag ++ rest ∈ (commonRenaming settings mobile desktop).names.classes ++
      (commonRenaming settings mobile desktop).names.protocols) : startsUpper rest = true := by
  rcases List.mem_append.mp h with h | h
  · exact startsUpper_of_mem_keys_pairInterfaces h
  · exact startsUpper_of_mem_keys_pairInterfaces h

/-- **A word that is no geometry type** gets its common name if the model has something under it. -/
theorem renameBase_eq_ite_names (hgeometry : settings.geometry.get? name = none)
    (hw : IsWord name) :
    (commonRenaming settings mobile desktop).renameBase name =
      if (unify settings mobile desktop).Names (toUnified name) then toUnified name else name := by
  have hupper : ∀ rest, unifiedTag ++ rest ∈
      (commonRenaming settings mobile desktop).names.classes ++
        (commonRenaming settings mobile desktop).names.protocols → startsUpper rest = true :=
    fun _ hmem => startsUpper_of_mem_commonRenaming hmem
  rw [Renaming.renameBase_of_isWord hupper hgeometry hw]
  simp only [mem_commonRenaming_iff]

/-- **When a reference ends under the name of the declaration.** The enumeration on an opening line
is declared under the name that the settings give it. If that is in common, a reference to it by the
name in the header ends under the same name exactly if the settings leave it its common name, or
give it the name in the header back while nothing else goes by its common name. -/
theorem renameBase_enumName_iff {line underlying : Text} {kind : EnumKind} {body : Option Text}
    (hline : Line.classify line = .enumOpen kind underlying name body)
    (hgeometry : settings.geometry.get? name = none)
    (henum : settings.enumName (toUnified name) ∈ (unify settings mobile desktop).enums.keys) :
    (∀ s : Scan,
      settings.enumName (toUnified name) ∈ (s.feedLine settings line).corpus.enums.keys) ∧
    ((commonRenaming settings mobile desktop).renameBase name = settings.enumName (toUnified name) ↔
      settings.enumName (toUnified name) = toUnified name ∨
        settings.enumName (toUnified name) = name ∧
          ¬ (unify settings mobile desktop).Names (toUnified name)) := by
  refine ⟨Scan.mem_enums_feedLine hline, ?_⟩
  rw [renameBase_eq_ite_names hgeometry (Line.namesWord_of_classify hline)]
  by_cases hnames : (unify settings mobile desktop).Names (toUnified name)
  · rw [if_pos hnames, eq_comm]
    exact (or_iff_left fun h => h.2 hnames).symm
  · have hrenamed : settings.enumName (toUnified name) ≠ toUnified name :=
      fun h => hnames (Or.inl (h ▸ henum))
    rw [if_neg hnames, eq_comm, or_iff_right hrenamed]
    exact (and_iff_left hnames).symm

end Model

/-- An enumeration that goes by its common name. -/
def modesMobile : Corpus :=
  Corpus.empty.scanText .default "typedef NS_ENUM(int, UIMode) \x7b UIModeA \x7d;".toList

/-- The same for the desktop. -/
def modesDesktop : Corpus :=
  Corpus.empty.scanText .default "typedef NS_ENUM(int, NSMode) \x7b NSModeA \x7d;".toList

/-- References by the mobile name end under the common one. -/
theorem renameBase_enumName_iff_modes :
    Line.classify "typedef NS_ENUM(int, UIMode) \x7b UIModeA \x7d;".toList =
        .enumOpen .plain "int".toList "UIMode".toList (some " UIModeA \x7d;".toList) ∧
      Settings.default.geometry.get? "UIMode".toList = none ∧
      "MAIMode".toList ∈ (unify .default modesMobile modesDesktop).enums.keys ∧
      (commonRenaming .default modesMobile modesDesktop).renameBase "UIMode".toList =
        "MAIMode".toList := by
  have hfacts : Line.classify "typedef NS_ENUM(int, UIMode) \x7b UIModeA \x7d;".toList =
        .enumOpen .plain "int".toList "UIMode".toList (some " UIModeA \x7d;".toList) ∧
      Settings.default.geometry.get? "UIMode".toList = none ∧
      Settings.default.enumName (toUnified "UIMode".toList) = "MAIMode".toList ∧
      toUnified "UIMode".toList = "MAIMode".toList ∧
      "MAIMode".toList ∈ (unify .default modesMobile modesDesktop).enums.keys := by decide +kernel
  obtain ⟨hline, hgeometry, hname, hcommon, henum⟩ := hfacts
  have hends := (renameBase_enumName_iff hline hgeometry (hname.symm ▸ henum)).2
  rw [hname, hcommon] at hends
  exact ⟨hline, hgeometry, henum, hends.mpr (Or.inl rfl)⟩

/-- A line that declares an enumeration which the default settings rename. -/
def editsLine : Text :=
  "typedef NS_OPTIONS(int, NSTextStorageEditedOptions) \x7b NSA \x7d;".toList

/-- Both sides declare the enumeration under its own name. -/
def editsCorpus : Corpus := Corpus.empty.scanText .default editsLine

/-- **A reference that does not end under the name of the declaration.** -/
theorem renameBase_editedOptions :
    Corpus.Scanned .default editsCorpus ∧
    Line.classify editsLine = .enumOpen .options "int".toList
      "NSTextStorageEditedOptions".toList (some " NSA \x7d;".toList) ∧
    Settings.default.geometry.get? "NSTextStorageEditedOptions".toList = none ∧
    Settings.default.enumName (toUnified "NSTextStorageEditedOptions".toList) =
      "MAITextStorageEditActions".toList ∧
    "MAITextStorageEditActions".toList ∈ (unify .default editsCorpus editsCorpus).enums.keys ∧
    (commonRenaming .default editsCorpus editsCorpus).renameBase
      "NSTextStorageEditedOptions".toList = "NSTextStorageEditedOptions".toList := by
  refine ⟨.scanText _ .empty, ?_⟩
  decide +kernel

end CommonHeaders
