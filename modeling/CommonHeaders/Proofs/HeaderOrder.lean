import CommonHeaders.Proofs.ScanOverlay
import CommonHeaders.Unification
import Mathlib.Data.List.Dedup

/-! # A corpus is made of headers, not of lists of headers

Headers are scanned in the order of their names, so the order in which they are handed in is lost
at once. What is left of it are the repeats: copies of one header, which stand next to each other
once the headers are sorted. As scanning a header again changes nothing, the corpus is that of the
sorted headers without repeats, and these are the same for all lists of the same headers.

* `foldl_dedup_of_sorted`: over sorted headers, a step that may be repeated takes no notice of
  repeats.
* `dedup_inNameOrder_eq`: lists of the same headers, sorted and without repeats, are equal.
* `unifyFiles_of_sameHeaders`: so are their corpora, and the models made of them. -/

namespace CommonHeaders

/-- **The same headers**: each stands in both lists, and headers of one name are one header. -/
structure SameHeaders (files files' : List SourceFile) : Prop where
  mem_iff : ∀ f, f ∈ files ↔ f ∈ files'
  text_eq : ∀ f ∈ files, ∀ g ∈ files, f.name = g.name → f.text = g.text

instance (files files' : List SourceFile) : Decidable (SameHeaders files files') :=
  decidable_of_iff
    (((∀ f ∈ files, f ∈ files') ∧ ∀ f ∈ files', f ∈ files) ∧
      ∀ f ∈ files, ∀ g ∈ files, f.name = g.name → f.text = g.text)
    ⟨fun ⟨⟨h, h'⟩, ht⟩ => ⟨fun f => ⟨h f, h' f⟩, ht⟩,
      fun ⟨h, ht⟩ => ⟨⟨fun f => (h f).mp, fun f => (h f).mpr⟩, ht⟩⟩

/-! ### Sorted headers -/

/-- Does the first header stand before the second, or beside it? -/
def SourceFile.NameLE (f g : SourceFile) : Prop := ¬ g.name < f.name

theorem SourceFile.NameLE.trans {f g h : SourceFile} (hfg : f.NameLE g) (hgh : g.NameLE h) :
    f.NameLE h := by
  intro hlt
  by_cases hne : g.name = f.name
  · exact hgh (hne ▸ hlt)
  · have hlt' : f.name < g.name := Entries.lt_of_not_lt hfg fun he => hne he.symm
    exact hgh (List.lt_trans hlt hlt')

theorem SourceFile.NameLE.total (f g : SourceFile) : f.NameLE g ∨ g.NameLE f := by
  by_cases h : g.name < f.name
  · exact Or.inr fun h' => List.lt_irrefl _ (List.lt_trans h h')
  · exact Or.inl h

theorem SourceFile.NameLE.name_eq {f g : SourceFile} (hfg : f.NameLE g) (hgf : g.NameLE f) :
    f.name = g.name := by
  by_cases hne : f.name = g.name
  · exact hne
  · exact absurd (Entries.lt_of_not_lt hfg hne) hgf

theorem sorted_inNameOrder (files : List SourceFile) :
    (Corpus.inNameOrder files).Pairwise SourceFile.NameLE := by
  have hle {f g : SourceFile} : (!decide (g.name < f.name)) = true ↔ f.NameLE g := by
    simp only [Bool.not_eq_true', decide_eq_false_iff_not, SourceFile.NameLE]
  have hsorted : (Corpus.inNameOrder files).Pairwise fun f g => !decide (g.name < f.name) := by
    refine List.pairwise_mergeSort (fun f g h hfg hgh => ?_) (fun f g => ?_) files
    · exact hle.mpr ((hle.mp hfg).trans (hle.mp hgh))
    · rw [Bool.or_eq_true, hle, hle]
      exact SourceFile.NameLE.total f g
  exact hsorted.imp hle.mp

theorem mem_inNameOrder {files : List SourceFile} {f : SourceFile} :
    f ∈ Corpus.inNameOrder files ↔ f ∈ files := List.mem_mergeSort

/-- **The sorted headers without repeats** do not depend on the order or on repeats. -/
theorem dedup_inNameOrder_eq {files files' : List SourceFile} (h : SameHeaders files files') :
    (Corpus.inNameOrder files).dedup = (Corpus.inNameOrder files').dedup := by
  have hmem (f : SourceFile) :
      f ∈ (Corpus.inNameOrder files).dedup ↔ f ∈ (Corpus.inNameOrder files').dedup := by
    rw [List.mem_dedup, List.mem_dedup, mem_inNameOrder, mem_inNameOrder]
    exact h.mem_iff f
  have hperm := (List.perm_ext_iff_of_nodup (List.nodup_dedup _) (List.nodup_dedup _)).mpr hmem
  have hsorted (files : List SourceFile) :=
    (sorted_inNameOrder files).sublist (List.dedup_sublist _)
  refine List.Perm.eq_of_pairwise (fun f g hf hg hfg hgf => ?_) (hsorted files) (hsorted files')
    hperm
  have hf' : f ∈ files := mem_inNameOrder.mp (List.mem_dedup.mp hf)
  have hg' : g ∈ files := mem_inNameOrder.mp (List.mem_dedup.mp ((hmem g).mpr hg))
  have hname := SourceFile.NameLE.name_eq hfg hgf
  cases f
  cases g
  exact congrArg₂ _ hname (h.text_eq _ hf' _ hg' hname)

/-! ### Repeats -/

/-- A header that comes again in a sorted list comes again at once. -/
theorem eq_cons_of_mem_of_sorted {f : SourceFile} {l : List SourceFile}
    (hsorted : (f :: l).Pairwise SourceFile.NameLE)
    (htext : ∀ g ∈ l, f.name = g.name → f.text = g.text) (hf : f ∈ l) : ∃ rest, l = f :: rest := by
  cases l with
  | nil => simp at hf
  | cons g rest =>
    obtain ⟨hfirst, hrest⟩ := List.pairwise_cons.mp hsorted
    have hfg : f.NameLE g := hfirst g List.mem_cons_self
    have hgf : g.NameLE f := by
      rcases List.mem_cons.mp hf with rfl | hf
      · exact hfg
      · exact (List.pairwise_cons.mp hrest).1 f hf
    have hname := SourceFile.NameLE.name_eq hfg hgf
    have htext := htext g List.mem_cons_self hname
    refine ⟨rest, congrArg (· :: rest) ?_⟩
    cases f
    cases g
    exact congrArg₂ _ hname.symm htext.symm

/-- **Repeats in sorted headers do not count**, if a step made twice in a row is a step made
once. -/
theorem foldl_dedup_of_sorted {σ : Type} {step : σ → SourceFile → σ}
    (hstep : ∀ s f, step (step s f) f = step s f) {l : List SourceFile}
    (hsorted : l.Pairwise SourceFile.NameLE)
    (htext : ∀ f ∈ l, ∀ g ∈ l, f.name = g.name → f.text = g.text) (s : σ) :
    l.dedup.foldl step s = l.foldl step s := by
  induction l generalizing s with
  | nil => rfl
  | cons f l ih =>
    have ih := ih (List.pairwise_cons.mp hsorted).2 fun f' hf' g' hg' =>
      htext f' (List.mem_cons_of_mem _ hf') g' (List.mem_cons_of_mem _ hg')
    by_cases hf : f ∈ l
    · obtain ⟨rest, rfl⟩ := eq_cons_of_mem_of_sorted hsorted
        (fun g hg => htext f List.mem_cons_self g (List.mem_cons_of_mem _ hg)) hf
      rw [List.dedup_cons_of_mem hf, ih]
      simp only [List.foldl_cons, hstep]
    · rw [List.dedup_cons_of_notMem hf]
      exact ih (step s f)

/-- The corpus of some headers is that of the sorted headers without repeats. -/
theorem ofFiles_eq_foldl_dedup (settings : Settings) {files : List SourceFile}
    (htext : ∀ f ∈ files, ∀ g ∈ files, f.name = g.name → f.text = g.text) :
    Corpus.ofFiles settings files =
      (Corpus.inNameOrder files).dedup.foldl (fun c f => c.scanText settings f.text) .empty := by
  refine (foldl_dedup_of_sorted (fun c f => c.scanText_scanText settings f.text)
    (sorted_inNameOrder files) (fun f hf g hg => ?_) Corpus.empty).symm
  exact htext f (mem_inNameOrder.mp hf) g (mem_inNameOrder.mp hg)

theorem ofFiles_of_sameHeaders (settings : Settings) {files files' : List SourceFile}
    (h : SameHeaders files files') :
    Corpus.ofFiles settings files = Corpus.ofFiles settings files' := by
  have htext' (f : SourceFile) (hf : f ∈ files') (g : SourceFile) (hg : g ∈ files') :=
    h.text_eq f ((h.mem_iff f).mpr hf) g ((h.mem_iff g).mpr hg)
  rw [ofFiles_eq_foldl_dedup settings h.text_eq, ofFiles_eq_foldl_dedup settings htext',
    dedup_inNameOrder_eq h]

/-! ### Main result -/

/-- **The corpora of two platforms and the model of both depend on the headers alone**, not on the
order in which these are handed in, nor on how often. -/
theorem unifyFiles_of_sameHeaders (settings : Settings)
    {mobile mobile' desktop desktop' : List SourceFile} (hm : SameHeaders mobile mobile')
    (hd : SameHeaders desktop desktop') :
    Corpus.ofFiles settings mobile = Corpus.ofFiles settings mobile' ∧
      Corpus.ofFiles settings desktop = Corpus.ofFiles settings desktop' ∧
      unifyFiles settings mobile desktop = unifyFiles settings mobile' desktop' := by
  have hmobile := ofFiles_of_sameHeaders settings hm
  have hdesktop := ofFiles_of_sameHeaders settings hd
  refine ⟨hmobile, hdesktop, ?_⟩
  unfold unifyFiles
  rw [hmobile, hdesktop]

/-- Two headers that name one class, and a list with a repeat in another order. -/
theorem unifyFiles_of_sameHeaders_pair :
    let thing : SourceFile := ⟨"a.h".toList, "@interface UIThing : NSObject <P>".toList⟩
    let again : SourceFile := ⟨"b.h".toList, "@interface UIThing : UIView <Q>".toList⟩
    let other : SourceFile := ⟨"c.h".toList, "@interface NSThing : NSObject <P>".toList⟩
    Corpus.ofFiles .default [again, thing, again] = Corpus.ofFiles .default [thing, again] ∧
      Corpus.ofFiles .default [other] = Corpus.ofFiles .default [other, other] ∧
      unifyFiles .default [again, thing, again] [other] =
        unifyFiles .default [thing, again] [other, other] :=
  unifyFiles_of_sameHeaders .default (by decide) (by decide)

end CommonHeaders
