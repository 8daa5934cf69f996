import CommonHeaders.Proofs.Overlay
import CommonHeaders.Proofs.ScanSteps

/-! # Scanning lays declarations over a corpus

What a header does to a corpus depends on the header alone. A scan never asks what the corpus held
before: whatever interface or enumeration is open was opened by the same header, so it is among the
declarations made since the header began. Hence a scan over some corpus is, line for line, the scan
of the same header from the empty corpus, laid over that corpus.

* `Grounded`: what is open has been opened in this scan.
* `feed_laidOver`: a line over a corpus does what it does alone.
* `scanText_eq_overlay`: scanning a header lays what it declares over the corpus.
* `scanText_scanText`: scanning a header again changes nothing. -/

namespace CommonHeaders

namespace Scan

/-- The scan with its declarations laid over a corpus. -/
def laidOver (below : Corpus) (s : Scan) : Scan := { s with corpus := below.overlay s.corpus }

/-- **What is open has been opened in this scan**, and its classes are classes. -/
structure Grounded (s : Scan) : Prop where
  inClass : ∀ {name}, s.place = some (.inClass name) → name ∈ s.corpus.classes.keys
  inProtocol : ∀ {name}, s.place = some (.inProtocol name) → name ∈ s.corpus.protocols.keys
  inEnum : ∀ {name}, s.enumeration = some name → name ∈ s.corpus.enums.keys
  isClass : ∀ {name i}, s.corpus.classes.get? name = some i → i.isClass = true

end Scan

namespace Interface

theorem isClass_setSuperclass (i : Interface) (name : Text) :
    (i.setSuperclass name).isClass = i.isClass := by
  unfold setSuperclass isClass
  cases h : i.kind with
  | ofClass _ => rfl
  | ofProtocol => simp only [h]

theorem isClass_getD {t : Table Interface} (h : ∀ {name i}, t.get? name = some i → i.isClass = true)
    (name name' : Text) : ((t.get? name).getD (newClass name' none)).isClass = true := by
  cases hi : t.get? name with
  | none => rfl
  | some i => exact h hi

end Interface

namespace Scan

variable {settings : Settings} {s : Scan}

/-! ### Scans stay grounded -/

theorem Grounded.insertClass (hs : s.Grounded) {name : Text} {i : Interface} {deprecated : Bool}
    (hi : i.isClass = true) :
    Grounded { s with
      corpus := { s.corpus with classes := s.corpus.classes.insert name i }
      place := some (.inClass name)
      deprecated := deprecated } where
  inClass h := by
    simp only [Option.some.injEq, Place.inClass.injEq] at h
    exact Table.mem_keys_insert.mpr (Or.inl h.symm)
  inProtocol h := by simp at h
  inEnum h := hs.inEnum h
  isClass h := by
    rw [Table.get?_insert] at h
    split at h
    · exact Option.some.inj h ▸ hi
    · exact hs.isClass h

theorem grounded_modifyPlace (hs : s.Grounded) {f : Interface → Interface}
    (hf : ∀ i, (f i).isClass = i.isClass) : (s.modifyPlace f).Grounded := by
  unfold modifyPlace
  split
  · rename_i name _
    refine ⟨fun h => Table.mem_keys_modify.mpr (hs.inClass h), fun h => hs.inProtocol h,
      fun h => hs.inEnum h, fun {name' i} h => ?_⟩
    simp only [Table.get?_modify] at h
    split at h
    · obtain ⟨i', hi', rfl⟩ := Option.map_eq_some_iff.mp h
      rw [hf]
      exact hs.isClass hi'
    · exact hs.isClass h
  · exact ⟨fun h => hs.inClass h, fun h => Table.mem_keys_modify.mpr (hs.inProtocol h),
      fun h => hs.inEnum h, fun h => hs.isClass h⟩
  · exact hs

theorem grounded_addMember (text : Text) (hs : s.Grounded) : (s.addMember text).Grounded := by
  unfold addMember
  split
  · split
    · exact grounded_modifyPlace hs fun _ => rfl
    · exact hs
  · split
    · exact grounded_modifyPlace hs fun _ => rfl
    · exact hs

theorem grounded_openClass (name superclass : Text) (adopted : Option Text) (deprecated : Bool)
    (hs : s.Grounded) : (s.openClass name superclass adopted deprecated).Grounded := by
  refine hs.insertClass ?_
  have hknown := Interface.isClass_getD hs.isClass name name
  exact (Interface.isClass_setSuperclass _ superclass).trans hknown

theorem grounded_openCategory (className category : Text) (adopted : Option Text)
    (hs : s.Grounded) : (s.openCategory settings className category adopted).Grounded := by
  unfold openCategory
  split
  · exact ⟨fun h => by simp at h, fun h => by simp at h, fun h => hs.inEnum h,
      fun h => hs.isClass h⟩
  · have hknown := Interface.isClass_getD hs.isClass className className
    exact hs.insertClass (i := Interface.adoptAll _ (adoptedNames adopted)) hknown

theorem grounded_openProtocol (name : Text) (adopted : Option Text) (hs : s.Grounded) :
    (s.openProtocol name adopted).Grounded where
  inClass h := by simp [openProtocol] at h
  inProtocol h := by
    simp only [openProtocol, Option.some.injEq, Place.inProtocol.injEq] at h
    exact Table.mem_keys_insert.mpr (Or.inl h.symm)
  inEnum h := hs.inEnum h
  isClass h := hs.isClass h

theorem grounded_openEnum (settings : Settings) (kind : EnumKind) (underlying name : Text)
    (hs : s.Grounded) :
    (s.openEnum settings kind underlying name none).Grounded where
  inClass h := hs.inClass h
  inProtocol h := hs.inProtocol h
  inEnum h := by
    simp only [openEnum, Option.some.injEq] at h
    exact Table.mem_keys_insert.mpr (Or.inl h.symm)
  isClass h := hs.isClass h

theorem grounded_enumBody (text : Text) (hs : s.Grounded) : (s.enumBody text).Grounded := by
  unfold enumBody
  split
  · exact hs
  · rename_i name hname
    refine ⟨fun h => hs.inClass h, fun h => hs.inProtocol h, fun {name'} h => ?_,
      fun h => hs.isClass h⟩
    have hname' : name = name' := by
      simp only at h
      split at h
      · simp at h
      · exact Option.some.inj h
    exact Table.mem_keys_modify.mpr (hname' ▸ hs.inEnum hname)

/-- **Every scan stays grounded.** -/
theorem stable_grounded (settings : Settings) : Stable settings Grounded where
  leave hs := ⟨fun h => by simp at h, fun h => by simp at h, fun h => hs.inEnum h,
    fun h => hs.isClass h⟩
  endEnum hs := ⟨fun h => hs.inClass h, fun h => hs.inProtocol h, fun h => by simp at h,
    fun h => hs.isClass h⟩
  note _ _ _ hs := ⟨hs.inClass, hs.inProtocol, hs.inEnum, hs.isClass⟩
  addMember := grounded_addMember
  openClass _ hs := grounded_openClass _ _ _ _ hs
  openCategory _ hs := grounded_openCategory _ _ _ hs
  openProtocol _ hs := grounded_openProtocol _ _ hs
  openEnum _ hs := grounded_openEnum settings _ _ _ hs
  enumBody := grounded_enumBody

/-! ### What a scan does over a corpus -/

variable (below : Corpus)

theorem modifyPlace_laidOver (hs : s.Grounded) {f : Interface → Interface}
    (hf : ∀ a b : Interface, f (a.overlay b) = a.overlay (f b)) :
    (s.laidOver below).modifyPlace f = (s.modifyPlace f).laidOver below := by
  have hplace : (s.laidOver below).place = s.place := rfl
  unfold modifyPlace
  rw [hplace]
  split
  · rename_i name h
    have hclasses := Table.overlayWith_modify below.classes hf (hs.inClass h)
    simp only [laidOver, Corpus.overlay, hclasses]
  · rename_i name h
    have hprotocols := Table.overlayWith_modify below.protocols hf (hs.inProtocol h)
    simp only [laidOver, Corpus.overlay, hprotocols]
  · rfl

theorem addMember_laidOver (hs : s.Grounded) (text : Text) :
    (s.laidOver below).addMember text = (s.addMember text).laidOver below := by
  have hrequired : (s.laidOver below).requiresMember = s.requiresMember := rfl
  unfold addMember
  rw [hrequired]
  split
  · split
    · exact modifyPlace_laidOver below hs fun a b => Interface.addProperty_overlay a b _
    · rfl
  · split
    · exact modifyPlace_laidOver below hs fun a b => Interface.addMethod_overlay a b _
    · rfl

theorem openClass_laidOver (hs : s.Grounded) (name superclass : Text) (adopted : Option Text)
    (deprecated : Bool) :
    (s.laidOver below).openClass name superclass adopted deprecated =
      (s.openClass name superclass adopted deprecated).laidOver below := by
  have hknown := Interface.isClass_getD hs.isClass name name
  have hinsert (names : List Text) := Table.overlayWith_insert_getD below.classes s.corpus.classes
    name (f := fun i => (i.setSuperclass superclass).adoptAll names)
    (fun a => a.overlay_newClass name) fun a => by
      rw [a.setSuperclass_overlay hknown, a.adoptAll_overlay]
  unfold openClass
  simp only [laidOver, Corpus.overlay, hinsert]

theorem openCategory_laidOver (className category : Text) (adopted : Option Text) :
    (s.laidOver below).openCategory settings className category adopted =
      (s.openCategory settings className category adopted).laidOver below := by
  have hinsert := Table.overlayWith_insert_getD below.classes s.corpus.classes className
    (f := fun i => i.adoptAll (adoptedNames adopted)) (fun a => a.overlay_newClass className)
    fun a => a.adoptAll_overlay _ _
  unfold openCategory
  split
  · rfl
  · simp only [laidOver, Corpus.overlay, hinsert]

theorem openProtocol_laidOver (name : Text) (adopted : Option Text) :
    (s.laidOver below).openProtocol name adopted =
      (s.openProtocol name adopted).laidOver below := by
  have hinsert := Table.overlayWith_insert_getD below.protocols s.corpus.protocols name
    (f := fun i => i.adoptAll (adoptedNames adopted)) (fun a => a.overlay_newProtocol name)
    fun a => a.adoptAll_overlay _ _
  unfold openProtocol
  simp only [laidOver, Corpus.overlay, hinsert]

theorem openEnum_laidOver (settings : Settings) (s : Scan) (kind : EnumKind)
    (underlying name : Text) :
    (s.laidOver below).openEnum settings kind underlying name none =
      (s.openEnum settings kind underlying name none).laidOver below := by
  simp only [openEnum, laidOver, Corpus.overlay, Table.union_insert]

theorem enumBody_laidOver (hs : s.Grounded) (text : Text) :
    (s.laidOver below).enumBody text = (s.enumBody text).laidOver below := by
  have henum : (s.laidOver below).enumeration = s.enumeration := rfl
  unfold enumBody
  rw [henum]
  split
  · rfl
  · rename_i name h
    simp only [laidOver, Corpus.overlay, Table.union_modify below.enums _ (hs.inEnum h)]

/-! ### What a line does over a corpus -/

theorem beginMember_laidOver (hs : s.Grounded) (text : Text) :
    (s.laidOver below).beginMember text = (s.beginMember text).laidOver below := by
  have hplace : (s.laidOver below).place = s.place := rfl
  unfold beginMember
  rw [hplace]
  split
  · rfl
  · split
    · exact addMember_laidOver below hs text
    · rfl

theorem feedLine_laidOver (hs : s.Grounded) (line : Text) :
    (s.laidOver below).feedLine settings line = (s.feedLine settings line).laidOver below := by
  unfold feedLine
  split
  case h_1 => exact openClass_laidOver below hs _ _ _ _
  case h_2 => exact openCategory_laidOver below _ _ _
  case h_3 => exact openProtocol_laidOver below _ _
  case h_4 kind underlying name body hline =>
    have hopen := openEnum_laidOver below settings s kind underlying name
    cases body with
    | none => exact hopen
    | some body =>
      have hgrounded := grounded_openEnum settings kind underlying name hs
      exact (congrArg (enumBody · body) hopen).trans (enumBody_laidOver below hgrounded body)
  case h_5 text _ => exact beginMember_laidOver below hs text
  case h_6 text _ => exact beginMember_laidOver below hs text
  all_goals rfl

theorem feedOpen_laidOver (hs : s.Grounded) (line : Text) :
    (s.laidOver below).feedOpen settings line = (s.feedOpen settings line).laidOver below := by
  have henum : (s.laidOver below).enumeration = s.enumeration := rfl
  unfold feedOpen
  rw [henum]
  split
  · split
    · exact feedLine_laidOver below ((stable_grounded settings).endEnum hs) line
    · exact enumBody_laidOver below hs line
  · exact feedLine_laidOver below hs line

/-- **A line over a corpus does what it does alone.** -/
theorem feed_laidOver (hs : s.Grounded) (line : Text) :
    (s.laidOver below).feed settings line = (s.feed settings line).laidOver below := by
  have hpending : (s.laidOver below).pending = s.pending := rfl
  have hcleared : Grounded { s with pending := none } :=
    (stable_grounded settings).note s.required s.deprecated none hs
  unfold feed
  rw [hpending]
  split
  · exact feedOpen_laidOver below hs line
  · simp only
    split
    · exact feedOpen_laidOver below hcleared line
    · split
      · exact addMember_laidOver below hcleared _
      · rfl

theorem feedAll_laidOver (hs : s.Grounded) (lines : List Text) :
    (s.laidOver below).feedAll settings lines = (s.feedAll settings lines).laidOver below := by
  induction lines generalizing s with
  | nil => rfl
  | cons line rest ih =>
    have hrest := ih ((stable_grounded settings).feed line hs)
    simp only [feedAll, List.foldl_cons] at hrest ⊢
    rw [feed_laidOver below hs, hrest]

theorem grounded_empty : Grounded { corpus := .empty } :=
  ⟨fun h => by simp at h, fun h => by simp at h, fun h => by simp at h,
    fun h => by simp [Corpus.empty] at h⟩

end Scan

namespace Corpus

/-- **Scanning a header lays what it declares over the corpus.** -/
theorem scanText_eq_overlay (settings : Settings) (c : Corpus) (text : Text) :
    c.scanText settings text = c.overlay (empty.scanText settings text) := by
  have hstart : ({ corpus := c } : Scan) = Scan.laidOver c { corpus := .empty } := rfl
  unfold scanText feedLines
  rw [hstart, Scan.feedAll_laidOver c Scan.grounded_empty]
  rfl

/-- **Scanning a header again changes nothing.** -/
theorem scanText_scanText (settings : Settings) (c : Corpus) (text : Text) :
    (c.scanText settings text).scanText settings text = c.scanText settings text := by
  rw [scanText_eq_overlay settings (c.scanText settings text), scanText_eq_overlay settings c,
    overlay_overlay_self]

end Corpus

end CommonHeaders
