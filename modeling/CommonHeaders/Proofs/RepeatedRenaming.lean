import CommonHeaders.Proofs.ClosedTypes
import CommonHeaders.Proofs.Overlay
import CommonHeaders.Settings.Reader

/-! # Renaming twice

A base name is replaced in stages: as a whole if it is a geometry type, and otherwise by its tag and
then word by word. What one stage puts in place another may replace, so that renaming twice is not
renaming once. Settings in which a table chains with itself are refused when they are read, but a
geometry type may still be replaced by the spelling of a common class.

A renaming *settles* if what geometry types are replaced by is replaced by no later stage, and what
the later stages put in place is no geometry type and spells no common enumeration. Under settings
that have been read this is exactly what renaming twice takes. It holds of all corpora if geometry
types and what they are replaced by stay apart from common names, as in the default settings.

* `substitute_eq_self_iff`: which names the later stages leave alone.
* `renameBase_renameBase_iff`: renaming twice is renaming once exactly if the renaming settles.
* `settles_of_keepsApart`: settings under which every renaming settles.
* `renameType_idempotent_iff`: the same for types and whole corpora under settings that have been
  read. -/

namespace CommonHeaders

open Naming Text

namespace Renaming

/-- **Settling renamings**: no stage puts in place what a stage replaces. -/
structure Settles (r : Renaming) : Prop where
  targets : ∀ source target, r.geometry.get? source = some target → r.Settled target
  sources : ∀ name, r.geometry.get? name = none → r.geometry.get? (r.substitute name) = none
  enums : ∀ name, r.geometry.get? name = none → ∀ rest,
    platformRest? (r.substitute name) = some rest → unifiedTag ++ rest ∉ r.names.enums

variable {r : Renaming} {name : Text}

/-! ### Names left alone -/

/-- A name that is left alone has every word left alone. -/
theorem renameWord_eq_of_mapWords (hr : r.WordInterfaces) (h : mapWords r.renameWord name = name)
    {w : Text} (hw : w ∈ words name) : r.renameWord w = w := by
  have hwords : (words name).map r.renameWord = (words name).map id := by
    rw [← words_mapWords_renameWord hr, h, List.map_id]
  exact List.map_inj_left.mp hwords w hw

/-- Behind the common tag no platform tag is brought about by replacing words. -/
theorem exists_mapWords_unifiedTag (r : Renaming) (rest : Text) :
    ∃ rest', mapWords r.renameWord (unifiedTag ++ rest) = unifiedTag ++ rest' := by
  obtain ⟨more, tail, rfl, hword, htail⟩ := isWord_unifiedTag.exists_more rest
  refine ⟨more ++ mapWords r.renameWord tail, ?_⟩
  rw [← List.append_assoc, mapWords_append _ hword htail, renameWord_unifiedTag, List.append_assoc]

/-- A name that is left alone keeps its tag. -/
theorem retag_eq_of_substitute (h : r.substitute name = name) : r.retag name = name := by
  rcases r.retag_cases name with ⟨hretag, -⟩ | ⟨rest, htagged, hretag, -⟩
  · exact hretag
  · obtain ⟨rest', hrest'⟩ := r.exists_mapWords_unifiedTag rest
    have hname : name = unifiedTag ++ rest' := by rw [← hrest', ← hretag, ← substitute, h]
    have hspells : Spells name rest := spells_of_platformRest? htagged
    exact absurd (hname ▸ hspells) (not_spells_unifiedTag rest' rest)

/-- A settled name keeps its tag, as a common class in front of it would be spelled by a word. -/
theorem Settled.retag_eq (hr : r.WordInterfaces) (h : r.Settled name) : r.retag name = name := by
  rcases r.retag_cases name with ⟨hretag, -⟩ | ⟨rest, htagged, -, henum | hclass⟩
  · exact hretag
  · exact absurd henum (h.whole rest htagged)
  · have hspells : Spells name rest := spells_of_platformRest? htagged
    obtain ⟨first, others, rest', hwords, hfirst, hbase, -⟩ :=
      words_retag_of_base hspells (hr.classes _ hclass)
    have hmem : first ∈ words name := hwords ▸ List.mem_cons_self
    exact absurd (List.mem_append_left _ (hbase ▸ hclass)) (h.byWord first hmem rest' hfirst)

/-- **The names that the later stages leave alone** are the settled ones. -/
theorem substitute_eq_self_iff (hr : r.WordInterfaces) :
    r.substitute name = name ↔ r.Settled name := by
  constructor
  · intro h
    have hretag := retag_eq_of_substitute h
    have hmap : mapWords r.renameWord name = name := by rwa [substitute, hretag] at h
    refine ⟨fun w hw rest hspells => ?_, fun rest htagged henum => ?_⟩
    · have hsame := renameWord_eq_of_mapWords hr hmap hw
      exact not_spells_renameWord hr (hsame.symm ▸ hspells)
    · rcases r.retag_cases name with ⟨-, hnot⟩ | ⟨rest', htagged', hretag', -⟩
      · exact hnot rest htagged henum
      · have hspells : Spells name rest' := spells_of_platformRest? htagged'
        rw [← hretag, hretag'] at hspells
        exact not_spells_unifiedTag rest' rest' hspells
  · intro h
    have hsame : ∀ w ∈ words name, r.renameWord w = id w :=
      fun w hw => renameWord_eq_self (h.byWord w hw)
    rw [substitute, h.retag_eq hr, mapWords_congr hsame]
    exact mapWords_id name

/-! ### Renaming twice -/

/-- **Renaming twice is renaming once exactly if the renaming settles**, if geometry types do not
chain. -/
theorem renameBase_renameBase_iff (hr : r.WordInterfaces)
    (hchain : ∀ source target, r.geometry.get? source = some target →
      r.geometry.get? target = none) :
    (∀ name, r.renameBase (r.renameBase name) = r.renameBase name) ↔ r.Settles := by
  constructor
  · intro h
    have hsources : ∀ name, r.geometry.get? name = none →
        r.geometry.get? (r.substitute name) = none := by
      intro name hname
      have htwice := h name
      rw [renameBase_of_none hname] at htwice
      cases hsource : r.geometry.get? (r.substitute name) with
      | none => rfl
      | some target =>
        -- the second pass would put the target in its own place
        rw [renameBase_of_some hsource] at htwice
        have hnone := hchain _ _ hsource
        rw [htwice, hsource] at hnone
        exact hnone
    refine ⟨fun source target hsource => ?_, hsources, fun name hname => ?_⟩
    · have htwice := h source
      rw [renameBase_of_some hsource, renameBase_of_none (hchain _ _ hsource)] at htwice
      exact (substitute_eq_self_iff hr).mp htwice
    · have htwice := h name
      rw [renameBase_of_none hname, renameBase_of_none (hsources name hname)] at htwice
      exact ((substitute_eq_self_iff hr).mp htwice).whole
  · intro h name
    cases hname : r.geometry.get? name with
    | some target =>
      rw [renameBase_of_some hname, renameBase_of_none (hchain _ _ hname)]
      exact (substitute_eq_self_iff hr).mpr (h.targets name target hname)
    | none =>
      have hsettled : r.Settled (r.substitute name) :=
        ⟨fun _ hw _ => not_spells_of_mem_words_substitute hr hw, h.enums name hname⟩
      rw [renameBase_of_none hname, renameBase_of_none (h.sources name hname)]
      exact (substitute_eq_self_iff hr).mpr hsettled

/-! ### Types, members and corpora -/

/-- Renaming types twice is renaming base names twice. -/
theorem renameType_renameType_iff :
    (∀ t, r.renameType (r.renameType t) = r.renameType t) ↔
      ∀ name, r.renameBase (r.renameBase name) = r.renameBase name := by
  constructor
  · intro h name
    exact congrArg TypeRef.name (h (.named name))
  · intro h t
    unfold renameType
    rw [h t.name]

/-- The name of an adopted protocol is replaced by one that spells no other. -/
theorem renameProtocol_renameProtocol (hr : r.WordInterfaces) (name : Text) :
    r.renameProtocol (r.renameProtocol name) = r.renameProtocol name := by
  rcases r.renameProtocol_cases name with hmem | ⟨heq, -⟩
  · have hcommon := hr.protocols _ hmem
    exact unifiedWord?_getD_eq_self fun rest hspells => absurd hspells (hcommon.not_spells rest)
  · rw [heq, heq]

end Renaming

namespace Adoptions

theorem names_adoptAll_of_nodup {l : Adoptions} {names : List Text}
    (h : (l.names ++ names).Nodup) : (l.adoptAll names).names = l.names ++ names := by
  induction names generalizing l with
  | nil => exact (List.append_nil _).symm
  | cons n rest ih =>
    have hn : n ∉ l.names := by
      intro hmem
      exact (List.nodup_append.mp h).2.2 n hmem n List.mem_cons_self rfl
    have hnames := names_adopt_of_not_mem hn
    have hrest := ih (l := l.adopt n) (by rwa [hnames, List.append_assoc])
    have hstep : l.adoptAll (n :: rest) = (l.adopt n).adoptAll rest := rfl
    rw [hstep, hrest, hnames, List.append_assoc]
    rfl

theorem ofList_names (l : Adoptions) : ofList l.names = l := by
  refine ext ?_
  have h : (empty.names ++ l.names).Nodup := l.nodup
  exact names_adoptAll_of_nodup h

/-- Replacing names twice is replacing them once, if that holds of each of them. -/
theorem map_map_of_idem {f : Text → Text} (hf : ∀ name, f (f name) = f name) (l : Adoptions) :
    (l.map f).map f = l.map f := by
  have hfixed : ∀ x ∈ (l.map f).names, f x = id x := by
    intro x hx
    obtain ⟨y, -, rfl⟩ := mem_map.mp hx
    exact hf y
  have hnames : (l.map f).names.map f = (l.map f).names := by
    rw [List.map_congr_left hfixed, List.map_id]
  calc (l.map f).map f
      = ofList ((l.map f).names.map f) := rfl
    _ = ofList (l.map f).names := by rw [hnames]
    _ = l.map f := ofList_names _

end Adoptions

theorem Table.map_map_of_idem {α : Type} {f : α → α} (hf : ∀ a, f (f a) = f a) (t : Table α) :
    (t.map f).map f = t.map f := by
  rw [map_map]
  exact congrArg t.map (funext hf)

namespace Renaming

variable {r : Renaming} (htype : ∀ t, r.renameType (r.renameType t) = r.renameType t)
include htype

theorem renameMethod_renameMethod (m : Method) :
    r.renameMethod (r.renameMethod m) = r.renameMethod m := by
  have harguments : ∀ a : Argument,
      ((fun a : Argument => { a with type := r.renameType a.type }) ∘
        fun a : Argument => { a with type := r.renameType a.type }) a =
        { a with type := r.renameType a.type } := by
    intro a
    simp only [Function.comp_apply, htype]
  unfold renameMethod
  simp only [htype, List.map_map, List.map_congr_left fun a _ => harguments a]

theorem renameProperty_renameProperty (p : Property) :
    r.renameProperty (r.renameProperty p) = r.renameProperty p := by
  unfold renameProperty
  simp only [htype]

theorem renameInterface_renameInterface (hr : r.WordInterfaces) (i : Interface) :
    r.renameInterface (r.renameInterface i) = r.renameInterface i := by
  unfold renameInterface
  simp only [Table.map_map_of_idem (renameMethod_renameMethod htype),
    Table.map_map_of_idem (renameProperty_renameProperty htype),
    Adoptions.map_map_of_idem (renameProtocol_renameProtocol hr)]

/-- **Corpora are renamed once by renaming twice**, if types are. -/
theorem renameCorpus_renameCorpus (hr : r.WordInterfaces) (c : Corpus) :
    r.renameCorpus (r.renameCorpus c) = r.renameCorpus c := by
  unfold renameCorpus
  simp only [Table.map_map_of_idem (renameInterface_renameInterface htype hr)]

end Renaming

/-! ### Settings under which every renaming settles -/

/-- **Settings that keep apart** what is replaced and what it is replaced by: targets are words
without a platform tag, and no word of a geometry type has the common tag. -/
structure Settings.KeepsApart (s : Settings) : Prop extends s.PlainTargets where
  sources : ∀ source target, s.geometry.get? source = some target →
    ∀ w ∈ words source, ¬ Carries unifiedTag w

theorem Settings.keepsApart_default : Settings.default.KeepsApart where
  toPlainTargets := plainTargets_default
  sources := by
    have hsources : ∀ e ∈ Settings.default.geometry.entries,
        ∀ w ∈ words e.1, ¬ Carries unifiedTag w := by decide +kernel
    intro source target h
    exact hsources (source, target) (Table.get?_eq_some_iff.mp h)

namespace Renaming

variable {r : Renaming} {name : Text}

/-- A name that the later stages do not leave alone has a common name among its words afterwards. -/
theorem exists_common_word (hr : r.Plain) (h : r.substitute name ≠ name) :
    ∃ w ∈ words (r.substitute name), Carries unifiedTag w := by
  have hwords : words (r.substitute name) = (words (r.retag name)).map r.renameWord :=
    words_mapWords_renameWord hr.toWordInterfaces _
  have hkept : ∀ rest, r.renameWord (unifiedTag ++ rest) = unifiedTag ++ rest := fun rest =>
    renameWord_eq_self fun rest' hspells => absurd hspells (not_spells_unifiedTag rest rest')
  rw [hwords]
  rcases r.retag_cases name with ⟨hretag, -⟩ | ⟨rest, htagged, hretag, henum | hclass⟩
  · -- some word of the name has been replaced by a common name
    rw [hretag]
    by_contra hnone
    refine h ?_
    have hsame : ∀ w ∈ words name, r.renameWord w = id w := by
      intro w hw
      rcases r.renameWord_cases w with hmem | ⟨heq, -⟩
      · exact absurd ⟨r.renameWord w, List.mem_map_of_mem hw, (hr.isCommon hmem).rest⟩ hnone
      · exact heq
    rw [substitute, hretag, mapWords_congr hsame]
    exact mapWords_id name
  · -- the name is a common enumeration
    have hupper := (platformRest?_eq_some_iff.mp htagged).1
    refine ⟨unifiedTag ++ rest, ?_, rest, hupper, rfl⟩
    rw [hretag, words_of_isWord (hr.enums _ henum), List.map_singleton, hkept]
    exact List.mem_singleton_self _
  · -- the name begins with a common class
    have hspells : Spells name rest := spells_of_platformRest? htagged
    obtain ⟨first, others, rest', -, -, hbase, hsplit⟩ :=
      words_retag_of_base hspells (hr.classes _ hclass)
    refine ⟨unifiedTag ++ rest', ?_, (hbase ▸ hr.classes _ hclass).rest⟩
    rw [hretag, hsplit, List.map_cons, hkept]
    exact List.mem_cons_self

/-- **Every renaming under settings that keep apart settles.** -/
theorem settles_of_keepsApart {settings : Settings} (hsettings : settings.KeepsApart)
    (hr : r.Plain) (hgeometry : r.geometry = settings.geometry) : r.Settles where
  targets _ _ hsource := settled_target hr hsource
  sources name hname := by
    cases hsource : r.geometry.get? (r.substitute name) with
    | none => rfl
    | some target =>
      have hchanged : r.substitute name ≠ name := by
        intro hsame
        rw [hsame, hname] at hsource
        simp at hsource
      obtain ⟨w, hw, hcommon⟩ := exists_common_word hr hchanged
      exact absurd hcommon (hsettings.sources _ target (hgeometry ▸ hsource) w hw)
  enums name _ := (settled_substitute hr name).whole

end Renaming

/-! ### Settings that have been read -/

/-- **Renaming twice under settings that have been read.** Types are renamed by it as by renaming
once exactly if the renaming settles, and then so are corpora; it does if the settings keep apart.
What the desktop corpus comes from does not matter. -/
theorem renameType_idempotent_iff {text : Text} {settings : Settings} {mobile desktop : Corpus}
    (hread : Settings.read text = .ok settings) (hmobile : Corpus.Scanned settings mobile) :
    let r := commonRenaming settings mobile desktop
    ((∀ t, r.renameType (r.renameType t) = r.renameType t) ↔ r.Settles) ∧
      (r.Settles → ∀ c, r.renameCorpus (r.renameCorpus c) = r.renameCorpus c) ∧
      (settings.KeepsApart → r.Settles) := by
  intro r
  have hr : r.WordInterfaces := wordInterfaces_commonRenaming hmobile.wordInterfaces
  have hchain := (Settings.chained?_eq_none_iff.mp (Settings.chained?_of_read hread)).1
  have htypes : (∀ t, r.renameType (r.renameType t) = r.renameType t) ↔ r.Settles :=
    Renaming.renameType_renameType_iff.trans (Renaming.renameBase_renameBase_iff hr hchain)
  refine ⟨htypes, fun hsettles c => ?_, fun hsettings => ?_⟩
  · exact Renaming.renameCorpus_renameCorpus (htypes.mpr hsettles) hr c
  · have hplain : r.Plain :=
      plain_commonRenaming hsettings.geometry (hmobile.wordKeys hsettings.enumRenames)
    exact Renaming.settles_of_keepsApart hsettings hplain rfl

/-- A text that is read as settings of which a check holds. -/
theorem Settings.exists_read {text : Text} {check : Settings → Bool}
    (h : (read text).toOption.any check = true) :
    ∃ settings, read text = .ok settings ∧ check settings = true := by
  cases hread : read text with
  | error e =>
    rw [hread] at h
    exact absurd h Bool.false_ne_true
  | ok settings =>
    rw [hread] at h
    exact ⟨settings, rfl, h⟩

/-- A mobile header with a view. -/
def viewsMobile (settings : Settings) : Corpus :=
  Corpus.empty.scanText settings "@interface UIView : NSObject".toList

/-- A desktop header with a view. -/
def viewsDesktop (settings : Settings) : Corpus :=
  Corpus.empty.scanText settings "@interface NSView : NSObject".toList

/-- The renaming of the views. -/
def viewsRenaming (settings : Settings) : Renaming :=
  commonRenaming settings (viewsMobile settings) (viewsDesktop settings)

/-- Under the settings that hold unless others are given, the renaming of the views settles. -/
theorem renameType_idempotent_iff_views :
    ∃ settings, Settings.read "\x7b\x7d".toList = .ok settings ∧
      (viewsRenaming settings).names.classes = ["MAIView".toList] ∧
      ∀ t, (viewsRenaming settings).renameType ((viewsRenaming settings).renameType t) =
        (viewsRenaming settings).renameType t := by
  have h : (Settings.read "\x7b\x7d".toList).toOption.any (fun s =>
      s.geometry = Settings.default.geometry ∧ s.enumRenames = Settings.default.enumRenames ∧
        (viewsRenaming s).names.classes = ["MAIView".toList]) = true := by decide +kernel
  obtain ⟨settings, hread, hsettings⟩ := Settings.exists_read h
  obtain ⟨hgeometry, henums, hclasses⟩ := of_decide_eq_true hsettings
  have hapart : settings.KeepsApart := by
    obtain ⟨⟨hg, he⟩, hs⟩ := Settings.keepsApart_default
    exact ⟨⟨hgeometry ▸ hg, henums ▸ he⟩, hgeometry ▸ hs⟩
  have hmobile : Corpus.Scanned settings (viewsMobile settings) := .scanText _ .empty
  obtain ⟨hiff, -, hsettles⟩ :
      ((∀ t, (viewsRenaming settings).renameType ((viewsRenaming settings).renameType t) =
          (viewsRenaming settings).renameType t) ↔ (viewsRenaming settings).Settles) ∧ _ ∧
        (settings.KeepsApart → (viewsRenaming settings).Settles) :=
    renameType_idempotent_iff hread hmobile
  exact ⟨settings, hread, hclasses, hiff.mpr (hsettles hapart)⟩

/-- If frames are replaced by desktop views, which is no chain in the table, the first pass puts a
desktop view in the place of a frame, and the second one a common view. -/
theorem renameType_renameType_frame :
    ∃ settings,
      Settings.read "\x7b\"geometry\":\x7b\"Frame\":\"NSView\"\x7d\x7d".toList = .ok settings ∧
      Corpus.Scanned settings (viewsMobile settings) ∧
      Corpus.Scanned settings (viewsDesktop settings) ∧
      (viewsRenaming settings).renameType (.named "Frame".toList) = .named "NSView".toList ∧
      (viewsRenaming settings).renameType ((viewsRenaming settings).renameType
        (.named "Frame".toList)) = .named "MAIView".toList := by
  have h : (Settings.read
      "\x7b\"geometry\":\x7b\"Frame\":\"NSView\"\x7d\x7d".toList).toOption.any (fun s =>
        (viewsRenaming s).renameType (.named "Frame".toList) = .named "NSView".toList ∧
        (viewsRenaming s).renameType ((viewsRenaming s).renameType (.named "Frame".toList)) =
          .named "MAIView".toList) = true := by decide +kernel
  obtain ⟨settings, hread, htypes⟩ := Settings.exists_read h
  exact ⟨settings, hread, .scanText _ .empty, .scanText _ .empty, of_decide_eq_true htypes⟩

end CommonHeaders
