import CommonHeaders.Proofs.PrintedTypes

/-! # Where qualifiers stand

A qualifier may stand in front of a base name or behind it, in any of its spellings, any number of
times and with any blanks between; behind the star of a pointer it needs no blanks. Nothing of this
shows in the type that is read: it has the base name and the pointer of the base text alone, and
each qualifier once. The base text must not itself begin or end with a qualifier, or the two would
run into each other.

Reading takes qualifiers off the front word by word, and off the end from the last space or star on.
The invariant of the second walk is `Ends`: what the text ends with, and that its first word, which
stops the first walk, is no qualifier. It holds of the base text and is kept by every mark behind
it.

* `Ends.concat`, `Ends.concat_star`: one more mark, behind blanks or behind a star.
* `parse_text_eq`: the type that is read.
* `parse_placed`: its name, pointer and qualifiers, and that it is equivalent to every other with
  the same qualifiers around the same base text. -/

namespace CommonHeaders

namespace Qualifier

open Text

theorem mem_foldl_addTo {q : Qualifier} (l : List Qualifier) (qs : List Qualifier) :
    q ∈ l.foldl addTo qs ↔ q ∈ qs ∨ q ∈ l := by
  induction l generalizing qs with
  | nil => simp
  | cons p rest ih =>
    have hadd : q ∈ addTo qs p ↔ q ∈ qs ∨ q = p := by
      unfold addTo
      split
      · rename_i hp
        exact ⟨Or.inl, fun h => h.elim id fun he => he ▸ hp⟩
      · rw [List.mem_append, List.mem_singleton]
    rw [List.foldl_cons, ih, hadd, List.mem_cons, or_assoc]

end Qualifier

namespace TypeRef

open Text

/-! ### Marks around a base text -/

/-- **A qualifier as it is written**: a word that spells it, and the blanks that stand between the
word and the base text. -/
structure Mark where
  qualifier : Qualifier
  word : Text
  blanks : Text
  spells : Qualifier.ofWord? word = some qualifier
  blank : ∀ c ∈ blanks, isBlank c = true

/-- The mark in front of the base text. -/
def Mark.before (m : Mark) : Text := m.word ++ m.blanks

/-- The mark behind it. -/
def Mark.behind (m : Mark) : Text := m.blanks ++ m.word

/-- **A base text** that neither begins nor ends with a qualifier: its first word is none, and
neither is what stands behind its last space or star. Any blanks count as one space, and those at
its ends do not count. -/
structure IsBase (t : Text) : Prop where
  nonblank : ∃ c ∈ t, isBlank c = false
  first : ∀ w ∈ (blankWords t).head?, Qualifier.ofWord? w = none
  last : Qualifier.ofWord? (lastToken (collapse t)) = none

/-- **Marks on either side of a base text**, kept apart by blanks, except that the first one behind
a star may touch it. -/
structure Marks (base : Text) where
  before : List Mark
  behind : List Mark
  apart_before : ∀ m ∈ before, m.blanks ≠ []
  apart_behind : ∀ m ∈ behind.tail, m.blanks ≠ []
  apart_first : ∀ m ∈ behind.head?, m.blanks ≠ [] ∨ base.getLast? = some '*'

/-- **The base text with its marks.** -/
def Marks.text {base : Text} (m : Marks base) : Text :=
  m.before.flatMap Mark.before ++ (base ++ m.behind.flatMap Mark.behind)

/-- Does one of the marks stand for the qualifier? -/
def Marks.Names {base : Text} (m : Marks base) (q : Qualifier) : Prop :=
  ∃ k ∈ m.before ++ m.behind, k.qualifier = q

/-! ### Marks behind the base text -/

theorem Mark.isName (m : Mark) : IsName m.word := Qualifier.isName_of_ofWord? m.spells

theorem trimEnd_trimEnd (t : Text) : trimEnd (trimEnd t) = trimEnd t := by
  have hreverse (t : Text) : trimEnd t = (trimStart t.reverse).reverse := rfl
  rw [hreverse t, hreverse, List.reverse_reverse, trimStart_trimStart]

theorem trailingQualifiers_trimEnd (t : Text) :
    trailingQualifiers (trimEnd t) = trailingQualifiers t := by
  conv_lhs => rw [trailingQualifiers, trimEnd_trimEnd]
  conv_rhs => rw [trailingQualifiers]

/-- **A qualifier behind a space or a star** is taken off. -/
theorem trailingQualifiers_append {a w : Text} {c : Char} {q : Qualifier} (hc : c = ' ' ∨ c = '*')
    (hq : Qualifier.ofWord? w = some q) : trailingQualifiers (a ++ c :: w) =
      (q :: (trailingQualifiers (a ++ [c])).1, (trailingQualifiers (a ++ [c])).2) := by
  have hname := Qualifier.isName_of_ofWord? hq
  have htrim : trimEnd (a ++ c :: w) = a ++ c :: w := by
    refine trimEnd_eq_self fun d hd => ?_
    rw [List.getLast?_append_of_ne_nil _ (List.cons_ne_nil c w),
      List.getLast?_cons_of_ne_nil hname.ne_nil] at hd
    exact hname.isPiece.chars d (List.mem_of_getLast? hd)
  have hlast : lastToken (a ++ c :: w) = w := by
    refine lastToken_append hc fun d hd => ?_
    have hplain := hname.chars d hd
    have hspace : d ≠ ' ' := ne_of_kind hplain (by decide)
    have hstar : d ≠ '*' := ne_of_kind hplain (by decide)
    simp [isTokenChar, hspace, hstar]
  have hbefore : beforeLastToken (a ++ c :: w) = a ++ [c] := by
    have hcut := beforeLastToken_append_lastToken (a ++ c :: w)
    rw [hlast] at hcut
    exact List.append_cancel_right (hcut.trans (List.append_cons a c w))
  have hne : a ++ [c] ≠ [] := by simp
  rw [trailingQualifiers, htrim, hbefore, if_neg hne, trailingQualifiers_trimEnd]
  split
  · rename_i p hp
    rw [hlast, hq] at hp
    rw [Option.some.inj hp]
  · rename_i hp
    rw [hlast, hq] at hp
    cases hp

/-- **How a text ends**: in the qualifiers `qs`, the last one first, behind the text `base`. Its
first word is no qualifier. -/
structure Ends (t : Text) (qs : List Qualifier) (base : Text) : Prop where
  first : ∃ w rest, blankWords t = w :: rest ∧ Qualifier.ofWord? w = none
  trailing : trailingQualifiers (collapse t) = (qs, base)

theorem blankWords_ne_nil {t : Text} (h : ∃ c ∈ t, isBlank c = false) : blankWords t ≠ [] := by
  intro hnil
  obtain ⟨c, hc, hblank⟩ := h
  rw [blankWords_eq_nil_iff.mp hnil c hc] at hblank
  cases hblank

/-- The base text ends in no qualifiers. -/
theorem IsBase.ends {base : Text} (h : IsBase base) : Ends base [] (collapse base) := by
  obtain ⟨w, rest, hwords⟩ := List.exists_cons_of_ne_nil (blankWords_ne_nil h.nonblank)
  have hfirst : Qualifier.ofWord? w = none := h.first w (by rw [hwords]; rfl)
  have htrim := trimEnd_of_collapse (collapse_collapse base)
  exact ⟨⟨w, rest, hwords, hfirst⟩,
    trailingQualifiers_of_endsPlain (endsPlain_iff.mpr (Or.inr h.last)) htrim⟩

/-- **One more mark behind blanks.** -/
theorem Ends.concat {t base : Text} {qs : List Qualifier} (h : Ends t qs base) (m : Mark)
    (hapart : m.blanks ≠ []) : Ends (t ++ m.behind) (m.qualifier :: qs) base := by
  obtain ⟨w, rest, hwords, hfirst⟩ := h.first
  have hmore : blankWords (t ++ m.behind) = blankWords t ++ [m.word] := by
    rw [Mark.behind, blankWords_append_blanks m.blank hapart,
      blankWords_of_isPiece m.isName.isPiece]
  have hcollapse : collapse (t ++ m.behind) = collapse t ++ ' ' :: m.word := by
    rw [collapse, hmore, join_concat (by simp [hwords])]
    rfl
  have hspace : trailingQualifiers (collapse t ++ [' ']) = (qs, base) := by
    rw [← trailingQualifiers_trimEnd, trimEnd_append_blank _ isBlank_space,
      trailingQualifiers_trimEnd, h.trailing]
  refine ⟨⟨w, rest ++ [m.word], by rw [hmore, hwords]; rfl, hfirst⟩, ?_⟩
  rw [hcollapse, trailingQualifiers_append (Or.inl rfl) m.spells, hspace]

/-- **A mark that touches the star** in front of it. -/
theorem Ends.concat_star {t base : Text} {qs : List Qualifier} (h : Ends t qs base) (m : Mark)
    (htouch : m.blanks = []) (hstar : t.getLast? = some '*') :
    Ends (t ++ m.behind) (m.qualifier :: qs) base := by
  obtain ⟨w, rest, hwords, hfirst⟩ := h.first
  obtain ⟨ws, v, hsplit, hmore, hlast⟩ :=
    exists_blankWords_append (t := t) ⟨'*', hstar, by decide⟩ m.isName.isPiece.chars
  have hbehind : m.behind = m.word := by rw [Mark.behind, htouch, List.nil_append]
  have hv : v.getLast? = some '*' := hlast.trans hstar
  have hvne : v ≠ [] := by
    rintro rfl
    cases hv
  rw [hbehind]
  constructor
  · -- the first word is the old one, or it has the star in it
    cases ws with
    | nil =>
      have hmem : '*' ∈ v ++ m.word := List.mem_append_left _ (List.mem_of_getLast? hv)
      exact ⟨v ++ m.word, [], hmore, Qualifier.ofWord?_eq_none_of_mem hmem (Or.inr rfl)⟩
    | cons u ws =>
      obtain ⟨rfl, -⟩ := List.cons.inj (hwords.symm.trans hsplit)
      exact ⟨w, ws ++ [v ++ m.word], hmore, hfirst⟩
  · have hcollapse : collapse (t ++ m.word) = collapse t ++ m.word := by
      rw [collapse, collapse, hmore, hsplit]
      by_cases hnone : ws = []
      · simp [hnone, join]
      · rw [join_concat hnone, join_concat hnone, List.append_assoc, List.cons_append]
    have hend : (collapse t).getLast? = some '*' := by
      rw [collapse, hsplit, getLast?_join_concat ws hvne, hv]
    obtain ⟨a, ha⟩ : ∃ a, collapse t = a ++ ['*'] :=
      ⟨_, (List.dropLast_append_getLast? '*' hend).symm⟩
    rw [hcollapse, ha, ← List.append_cons, trailingQualifiers_append (Or.inr rfl) m.spells, ← ha,
      h.trailing]

/-- **More marks**, each behind blanks. -/
theorem Ends.append {t base : Text} {qs : List Qualifier} (h : Ends t qs base) (marks : List Mark)
    (hapart : ∀ m ∈ marks, m.blanks ≠ []) :
    Ends (t ++ marks.flatMap Mark.behind) ((marks.map Mark.qualifier).reverse ++ qs) base := by
  induction marks generalizing t qs with
  | nil => simpa using h
  | cons m rest ih =>
    have hnext := h.concat m (hapart m List.mem_cons_self)
    have hlater := ih hnext fun k hk => hapart k (List.mem_cons_of_mem m hk)
    simpa using hlater

/-- **The base text with all marks behind it.** -/
theorem Marks.ends {base : Text} (hbase : IsBase base) (m : Marks base) :
    Ends (base ++ m.behind.flatMap Mark.behind) (m.behind.map Mark.qualifier).reverse
      (collapse base) := by
  obtain ⟨before, behind, -, htail, hhead⟩ := m
  cases behind with
  | nil => simpa using hbase.ends
  | cons k rest =>
    have hfirst : Ends (base ++ k.behind) [k.qualifier] (collapse base) := by
      by_cases hblanks : k.blanks = []
      · exact hbase.ends.concat_star k hblanks
          ((hhead k rfl).resolve_left fun hne => hne hblanks)
      · exact hbase.ends.concat k hblanks
    have hall := hfirst.append rest htail
    simpa using hall

/-! ### Marks in front of it -/

/-- **Qualifiers in front of a text** are taken off one by one. -/
theorem leadingQualifiers_before {before : List Mark} (hapart : ∀ m ∈ before, m.blanks ≠ [])
    {t : Text} (hne : blankWords t ≠ []) :
    leadingQualifiers (blankWords (before.flatMap Mark.before ++ t)) =
      (before.map Mark.qualifier ++ (leadingQualifiers (blankWords t)).1,
        (leadingQualifiers (blankWords t)).2) := by
  have hwords : blankWords (before.flatMap Mark.before ++ t) =
      before.map Mark.word ++ blankWords t :=
    blankWords_flatMap_append (fun m hm => ⟨m.isName.isPiece, m.blank, hapart m hm⟩) t
  rw [hwords, leadingQualifiers_append Mark.spells before hne]

/-! ### The type that is read -/

/-- **The type that is read**: the qualifiers of all marks, put together, and of the base text what
is read of it alone. -/
theorem parse_text_eq {base : Text} (hbase : IsBase base) (m : Marks base) :
    parse m.text =
      { parse base with
        qualifiers := (m.before.map Mark.qualifier ++
          (m.behind.map Mark.qualifier).reverse).foldl Qualifier.addTo [] } := by
  have hread {t : Text} {qs : List Qualifier} (h : Ends t qs (collapse base)) :
      leadingQualifiers (blankWords t) = ([], blankWords t) ∧
        trailingQualifiers (join [' '] (blankWords t)) = (qs, collapse base) := by
    obtain ⟨w, rest, hwords, hfirst⟩ := h.first
    refine ⟨leadingQualifiers_of_first fun w' v r hr => ?_, h.trailing⟩
    obtain ⟨rfl, -⟩ := List.cons.inj (hwords.symm.trans hr)
    exact hfirst
  obtain ⟨hleading, htrailing⟩ := hread (m.ends hbase)
  obtain ⟨hleading', htrailing'⟩ := hread hbase.ends
  obtain ⟨w, rest, hwords, -⟩ := (m.ends hbase).first
  have hbefore := leadingQualifiers_before m.apart_before
    (t := base ++ m.behind.flatMap Mark.behind) (by simp [hwords])
  rw [hleading, List.append_nil] at hbefore
  have hpointer : splitPointer (collapse base) =
      ((splitPointer (collapse base)).1, (splitPointer (collapse base)).2) := rfl
  rw [Marks.text, parse_eq hbefore htrailing hpointer, parse_eq hleading' htrailing' hpointer]

/-- **Where and how qualifiers are written does not matter**: the type that is read has the name and
the pointer of the base text, and the qualifiers that are named, each once. Marks that name the same
qualifiers give equivalent types. -/
theorem parse_placed {base : Text} (hbase : IsBase base) (m : Marks base) :
    (parse m.text).name = (parse base).name ∧ (parse m.text).pointer = (parse base).pointer ∧
      (parse m.text).qualifiers.Nodup ∧ (∀ q, q ∈ (parse m.text).qualifiers ↔ m.Names q) ∧
      ∀ m' : Marks base, (∀ q, m.Names q ↔ m'.Names q) →
        (parse m.text).equivalent (parse m'.text) = true := by
  have hnames (m : Marks base) (q : Qualifier) : q ∈ (parse m.text).qualifiers ↔ m.Names q := by
    rw [parse_text_eq hbase, Qualifier.mem_foldl_addTo, Marks.Names]
    simp only [List.not_mem_nil, false_or, List.mem_append, List.mem_reverse, List.mem_map,
      or_and_right, exists_or]
  have hname (m : Marks base) : (parse m.text).name = (parse base).name := by
    rw [parse_text_eq hbase]
  have hpointer (m : Marks base) : (parse m.text).pointer = (parse base).pointer := by
    rw [parse_text_eq hbase]
  refine ⟨hname m, hpointer m, nodup_qualifiers_parse _, hnames m, fun m' hsame => ?_⟩
  refine (equivalent_iff (nodup_qualifiers_parse _) (nodup_qualifiers_parse _)).mpr ?_
  refine Or.inl (Or.inl ⟨fun q => ?_, (hname m).trans (hname m').symm,
    (hpointer m).trans (hpointer m').symm⟩)
  rw [hnames m, hnames m', hsame q]

/-- A base text with a star at its end, -/
def stringsBase : Text := "NSArray < NSString *> *".toList

/-- marks of which one touches the star, -/
def touchingMarks : Marks stringsBase where
  before := [⟨.nullable, "_Nullable".toList, "\t ".toList, by decide, List.all_eq_true.mp rfl⟩,
    ⟨.kindOf, "__kindof".toList, " ".toList, by decide, List.all_eq_true.mp rfl⟩]
  behind := [⟨.const, "const".toList, [], by decide, List.all_eq_true.mp rfl⟩,
    ⟨.nullable, "nullable".toList, "\n".toList, by decide, List.all_eq_true.mp rfl⟩]
  apart_before := by decide
  apart_behind := by decide
  apart_first := by decide

/-- and marks that name the same qualifiers in front of it. -/
def leadingMarks : Marks stringsBase where
  before := [⟨.const, "const".toList, " ".toList, by decide, List.all_eq_true.mp rfl⟩,
    ⟨.kindOf, "__kindof".toList, " ".toList, by decide, List.all_eq_true.mp rfl⟩,
    ⟨.nullable, "__nullable".toList, " ".toList, by decide, List.all_eq_true.mp rfl⟩]
  behind := []
  apart_before := by decide
  apart_behind := by decide
  apart_first := by decide

theorem parse_placed_strings :
    touchingMarks.text =
        "_Nullable\t __kindof NSArray < NSString *> *const\nnullable".toList ∧
      leadingMarks.text = "const __kindof __nullable NSArray < NSString *> *".toList ∧
      IsBase stringsBase ∧ (∀ q, touchingMarks.Names q ↔ leadingMarks.Names q) ∧
      (parse touchingMarks.text).name = "NSArray<NSString*>".toList ∧
      (parse touchingMarks.text).qualifiers = [.nullable, .kindOf, .const] ∧
      (parse touchingMarks.text).equivalent (parse leadingMarks.text) = true := by
  have hbase : IsBase stringsBase :=
    ⟨⟨'N', by decide, by decide⟩, by decide +kernel, by decide +kernel⟩
  have hsame (q : Qualifier) : touchingMarks.Names q ↔ leadingMarks.Names q := by
    cases q <;> simp [Marks.Names, touchingMarks, leadingMarks]
  obtain ⟨hname, -, -, -, hequivalent⟩ := parse_placed hbase touchingMarks
  have halone : (parse stringsBase).name = "NSArray<NSString*>".toList := by decide +kernel
  exact ⟨by decide +kernel, by decide +kernel, hbase, hsame, hname.trans halone, by decide +kernel,
    hequivalent leadingMarks hsame⟩

end TypeRef

end CommonHeaders
