import CommonHeaders.Proofs.EnumItems
import CommonHeaders.Proofs.LineUses

/-! # Bodies of enumerations

The items of an enumeration stand between commas on the line that opens it and on the lines that
follow, up to a closing brace. Each line is split by itself, and every item declares its member or
none, so the enumeration lists what its items declare, however they are laid out over lines. It has
one member for each item, the one meant, exactly if all items are plain.

The line of the closing brace must be left to the body: if something behind the brace opens another
enumeration, the line is used for that one.

* `Row`, `BodyLines`, `Written`: layouts.
* `Row.filterMap_enumMember?`: what one line lists.
* `feedAll_bodyLines`: what the lines of a body list.
* `feedAll_written`: the enumeration that is stored. -/

namespace CommonHeaders

open Text

/-! ### Layouts -/

/-- **Items on one line**, blanks in front of each and commas between them, and maybe one at the
end. -/
inductive Row : List Item → Text → Prop
  | blank {t : Text} (ht : ∀ c ∈ t, isBlank c = true) : Row [] t
  | last {b : Text} (hb : ∀ c ∈ b, isBlank c = true) (i : Item) : Row [i] (b ++ i.text)
  | more {b t : Text} {items : List Item} (hb : ∀ c ∈ b, isBlank c = true) (i : Item)
      (h : Row items t) : Row (i :: items) (b ++ i.text ++ ',' :: t)

/-- **The lines of a body** up to its closing brace. Nothing behind the brace on its line may open an
enumeration. -/
inductive BodyLines : List Item → List Text → Prop
  | close {items : List Item} {t after : Text} (h : Row items t) (hafter : Line.OpensNone after) :
      BodyLines items [t ++ '\x7d' :: after]
  | line {items items' : List Item} {t : Text} {lines : List Text} (h : Row items t)
      (hrest : BodyLines items' lines) : BodyLines (items ++ items') (t :: lines)

/-- **An enumeration as it is written**: the line that opens it and those that follow. -/
inductive Written (kind : EnumKind) (underlying name : Text) : List Item → List Text → Prop
  /-- All on one line. -/
  | closed {line t after : Text} {items : List Item}
      (hline : Line.classify line = .enumOpen kind underlying name (some (t ++ '\x7d' :: after)))
      (h : Row items t) : Written kind underlying name items [line]
  /-- The opening brace on the first line. -/
  | opened {line t : Text} {items items' : List Item} {lines : List Text}
      (hline : Line.classify line = .enumOpen kind underlying name (some t)) (h : Row items t)
      (hrest : BodyLines items' lines) :
      Written kind underlying name (items ++ items') (line :: lines)
  /-- The opening brace on a later line, behind blank ones. -/
  | below {line b t : Text} {skipped lines : List Text} {items : List Item}
      (hline : Line.classify line = .enumOpen kind underlying name none)
      (hskipped : ∀ l ∈ skipped, ∀ c ∈ l, isBlank c = true) (hb : ∀ c ∈ b, isBlank c = true)
      (h : BodyLines items (t :: lines)) :
      Written kind underlying name items (line :: (skipped ++ (b ++ '\x7b' :: t) :: lines))

/-! ### What a line lists -/

namespace Item

/-- **What an item declares.** -/
def declared? (i : Item) : Option Member := Scan.enumMember? i.text

theorem enumMember?_blanks_append (i : Item) {b : Text} (hb : ∀ c ∈ b, isBlank c = true) :
    Scan.enumMember? (b ++ i.text) = i.declared? := by
  have htrim : trim (b ++ i.text) = trim i.text :=
    (i.trim_text hb).trans (i.trim_text (b := []) (by simp)).symm
  simp only [declared?, Scan.enumMember?, htrim]

theorem declared?_iff (i : Item) : i.declared? = some i.member ↔ i.IsPlain :=
  i.enumMember?_iff (b := []) (by simp)

/-- The brackets of an item are nested, and no comma stands outside of them. -/
theorem nests_text (i : Item) : Nests (· != ',') i.text := by
  have hvalue : Nests (· != ',') (valueText i.value) := by
    cases hv : i.value with
    | none => rfl
    | some v =>
      have hequals : Nests (· != ',') ['='] := rfl
      exact hequals.append (i.nests v hv)
  exact (Attribute.nests_of_isName i.isName).append (i.isMacros.nests.append hvalue)

end Item

namespace Row

variable {items : List Item} {t : Text}

/-- Blanks in front of an item do not matter. -/
theorem nests_piece {b : Text} (hb : ∀ c ∈ b, isBlank c = true) (i : Item) :
    Nests (· != ',') (b ++ i.text) := (Attribute.nests_of_blanks hb).append i.nests_text

theorem noBraces_piece {b : Text} (hb : ∀ c ∈ b, isBlank c = true) (i : Item) :
    ∀ c ∈ b ++ i.text, c ≠ '\x7b' ∧ c ≠ '\x7d' := by
  intro c hc
  rcases List.mem_append.mp hc with hc | hc
  · exact ⟨ne_of_kind (hb c hc) (by decide), ne_of_kind (hb c hc) (by decide)⟩
  · exact i.noBraces c hc

theorem noBraces (h : Row items t) : ∀ c ∈ t, c ≠ '\x7b' ∧ c ≠ '\x7d' := by
  induction h with
  | blank ht =>
    exact fun c hc => ⟨ne_of_kind (ht c hc) (by decide), ne_of_kind (ht c hc) (by decide)⟩
  | last hb i => exact noBraces_piece hb i
  | more hb i h ih =>
    intro c hc
    rcases List.mem_append.mp hc with hc | hc
    · exact noBraces_piece hb i c hc
    · rcases List.mem_cons.mp hc with rfl | hc
      · exact And.intro (by decide) (by decide)
      · exact ih c hc

theorem opensNone (h : Row items t) : Line.OpensNone t := by
  induction h with
  | @blank t ht =>
    have hnone := Line.opensNone_blanks_append ht (t := []) rfl
    rwa [List.append_nil] at hnone
  | last hb i => exact Line.opensNone_blanks_append hb i.opensNone
  | more hb i h ih =>
    exact Line.opensNone_append_comma (Line.opensNone_blanks_append hb i.opensNone)
      (nests_piece hb i) ih

/-- A line of items goes on being one without the blanks in front. -/
theorem trimStart (h : Row items t) : Row items (trimStart t) := by
  cases h with
  | @blank t ht =>
    have hnil : Text.trimStart t = [] := dropWhile_eq_nil.mpr ht
    rw [hnil]
    exact .blank (by simp)
  | @last b hb i =>
    have hstart := i.trimStart_text_append []
    rw [List.append_nil] at hstart
    rw [trimStart_blanks_append hb, hstart]
    exact .last (b := []) (by simp) i
  | @more b t items hb i h =>
    rw [List.append_assoc, trimStart_blanks_append hb, i.trimStart_text_append]
    exact .more (b := []) (by simp) i h

/-- **What the parts of a line declare** is what its items declare. -/
theorem filterMap_enumMember? (h : Row items t) :
    (splitItems ',' t).filterMap Scan.enumMember? = items.filterMap Item.declared? := by
  induction h with
  | @blank t ht =>
    have hblank : Nests (· != ',') t := Attribute.nests_of_blanks ht
    have hnone : Scan.enumMember? t = none := by
      have htrim : trim t = [] := by
        rw [trim, Text.trimStart, List.dropWhile_eq_nil_iff.mpr ht]
        rfl
      simp [Scan.enumMember?, htrim]
    rw [splitItems_of_nests rfl (Row.blank ht).noBraces hblank]
    simp [hnone]
  | last hb i =>
    rw [splitItems_of_nests rfl (noBraces_piece hb i) (nests_piece hb i), List.filterMap_cons,
      List.filterMap_cons, i.enumMember?_blanks_append hb]
    rfl
  | more hb i h ih =>
    rw [splitItems_append_cons rfl rfl rfl (noBraces_piece hb i) (nests_piece hb i),
      List.filterMap_cons, List.filterMap_cons, i.enumMember?_blanks_append hb, ih]

/-! ### Lines of a body -/

/-- What may stand in front of the items on a line: nothing, or the opening brace. -/
def Lead (front : Text) : Prop :=
  front = [] ∨ ∃ b : Text, (∀ c ∈ b, isBlank c = true) ∧ front = b ++ ['\x7b']

/-- What may stand behind the items on a line: nothing, or the closing brace. -/
def Tail (behind : Text) : Prop := behind = [] ∨ ∃ after, behind = '\x7d' :: after

theorem lead_nil : Lead [] := Or.inl rfl

theorem tail_nil : Tail [] := Or.inl rfl

theorem dropWhile_brace (h : Row items t) : t.dropWhile (· == '\x7b') = t := by
  cases t with
  | nil => rfl
  | cons c r =>
    have hc := (h.noBraces c List.mem_cons_self).1
    exact List.dropWhile_cons_of_neg (by simpa using hc)

theorem filterMap_bodyItems (h : Row items t) {front : Text} (hfront : Lead front) :
    (Scan.bodyItems (front ++ t)).filterMap Scan.enumMember? =
      items.filterMap Item.declared? := by
  rcases hfront with rfl | ⟨b, hb, rfl⟩
  · rw [Scan.bodyItems, List.nil_append, h.trimStart.dropWhile_brace]
    exact h.trimStart.filterMap_enumMember?
  · have hbrace : Text.trimStart (b ++ ['\x7b'] ++ t) = '\x7b' :: t := by
      rw [List.append_assoc, trimStart_blanks_append hb]
      rfl
    have hdrop : ('\x7b' :: t).dropWhile (· == '\x7b') = t :=
      (List.dropWhile_cons_of_pos rfl).trans h.dropWhile_brace
    rw [Scan.bodyItems, hbrace, hdrop]
    exact h.filterMap_enumMember?

theorem brace_notMem (h : Row items t) {front : Text} (hfront : Lead front) :
    '\x7d' ∉ front ++ t := by
  intro hmem
  rcases List.mem_append.mp hmem with hmem | hmem
  · rcases hfront with rfl | ⟨b, hb, rfl⟩
    · cases hmem
    · rcases List.mem_append.mp hmem with hmem | hmem
      · exact absurd (hb _ hmem) (by decide)
      · exact absurd (List.mem_singleton.mp hmem) (by decide)
  · exact (h.noBraces _ hmem).2 rfl

/-- **What a line of a body lists**, and whether it closes the body. -/
theorem listedMembers_line (h : Row items t) {front behind : Text} (hfront : Lead front)
    (hbehind : Tail behind) :
    Scan.listedMembers (front ++ t ++ behind) = items.filterMap Item.declared? ∧
      ((cutAt? '\x7d' (front ++ t ++ behind)).isSome = true ↔ behind ≠ []) := by
  have hno := h.brace_notMem hfront
  have hlisted := h.filterMap_bodyItems hfront
  rcases hbehind with rfl | ⟨after, rfl⟩
  · rw [List.append_nil, Scan.listedMembers, Scan.beforeBrace, cutAt?_eq_none hno]
    exact ⟨hlisted, by simp⟩
  · rw [Scan.listedMembers, Scan.beforeBrace, cutAt?_append hno]
    exact ⟨hlisted, by simp⟩

/-- A line of a body begins nothing new. -/
theorem startsDeclaration_line (h : Row items t) {front behind : Text} (hfront : Lead front)
    (hbehind : Tail behind) : Scan.startsDeclaration (front ++ t ++ behind) = false := by
  have hitem {b : Text} (hb : ∀ c ∈ b, isBlank c = true) (i : Item) (r : Text) :
      Scan.startsDeclaration (b ++ i.text ++ r) = false := by
    obtain ⟨c, r', hname, hc, -⟩ := isName_iff.mp i.isName
    obtain ⟨r'', hr⟩ := i.exists_text
    have hne : (c ≠ '@' ∧ c ≠ '-') ∧ c ≠ '+' :=
      ⟨⟨ne_of_kind hc (by decide), ne_of_kind hc (by decide)⟩, ne_of_kind hc (by decide)⟩
    rw [Scan.startsDeclaration, List.append_assoc, trimStart_blanks_append hb,
      i.trimStart_text_append, hr, hname]
    simpa using hne
  rcases hfront with rfl | ⟨b, hb, rfl⟩
  · rw [List.nil_append]
    cases h with
    | @blank t ht =>
      rw [Scan.startsDeclaration, trimStart_blanks_append ht]
      rcases hbehind with rfl | ⟨after, rfl⟩
      · rfl
      · rfl
    | last hb i => exact hitem hb i behind
    | @more b t items hb i h =>
      rw [List.append_assoc]
      exact hitem hb i _
  · rw [Scan.startsDeclaration, List.append_assoc, List.append_assoc, trimStart_blanks_append hb]
    rfl

theorem opensNone_line (h : Row items t) {front behind : Text} (hfront : Lead front)
    (hbehind : behind = [] ∨ ∃ after, behind = '\x7d' :: after ∧ Line.OpensNone after) :
    Line.OpensNone (front ++ t ++ behind) := by
  have hfirst : Line.OpensNone (front ++ t) := by
    rcases hfront with rfl | ⟨b, hb, rfl⟩
    · exact h.opensNone
    · rw [List.append_assoc]
      exact Line.opensNone_blanks_append hb
        (Line.opensNone_append_brace (t := []) (Or.inl rfl) rfl h.opensNone)
  rcases hbehind with rfl | ⟨after, rfl, hafter⟩
  · rwa [List.append_nil]
  · exact Line.opensNone_append_brace (Or.inr rfl) hfirst hafter

end Row

/-! ### Feeding a body -/

namespace Scan

variable (settings : Settings) {s : Scan} {name : Text} {e : Enumeration}

/-- **The scan inside of an enumeration**, with the members that were listed so far. -/
structure Lists (s : Scan) (name : Text) (e : Enumeration) : Prop where
  pending : s.pending = none
  enumeration : s.enumeration = some name
  stored : s.corpus.enums.get? name = some e

/-- A line of the body adds what it lists, and ends the enumeration if it has the closing brace. -/
theorem enumBody_line (hs : s.Lists name e) {items : List Item} {t front behind : Text}
    (h : Row items t) (hfront : Row.Lead front) (hbehind : Row.Tail behind) :
    (s.enumBody (front ++ t ++ behind)).pending = none ∧
      (s.enumBody (front ++ t ++ behind)).enumeration = (if behind = [] then some name else none) ∧
      (s.enumBody (front ++ t ++ behind)).corpus.enums.get? name =
        some { e with members := e.members ++ items.filterMap Item.declared? } := by
  obtain ⟨hlisted, hcloses⟩ := h.listedMembers_line hfront hbehind
  rw [enumBody_eq hs.enumeration, hlisted]
  refine ⟨hs.pending, ?_, ?_⟩
  · by_cases hnil : behind = []
    · rw [if_pos hnil, if_neg fun hsome => hcloses.mp hsome hnil]
    · rw [if_neg hnil, if_pos (hcloses.mpr hnil)]
  · dsimp only
    rw [Table.get?_modify]
    simp only [if_true, hs.stored, Option.map_some]

/-- Inside of an enumeration, a line that neither begins something nor opens an enumeration is a
line of the body. -/
theorem feed_eq_enumBody (hs : s.Lists name e) {line : Text}
    (hstart : startsDeclaration line = false) (hopens : Line.OpensNone line) :
    s.feed settings line = s.enumBody line := by
  have huse : s.use line = .lists := by
    simp only [use, hstart, hs.pending, hs.enumeration, opensEnum_eq_false hopens,
      Bool.false_eq_true, if_false, Option.isSome_some, Bool.not_false, Bool.and_self, if_true]
  rw [feed_eq, huse]

/-- **A line of items** goes on with the enumeration, -/
theorem lists_feed (hs : s.Lists name e) {items : List Item} {t front : Text} (h : Row items t)
    (hfront : Row.Lead front) :
    (s.feed settings (front ++ t)).Lists name
      { e with members := e.members ++ items.filterMap Item.declared? } := by
  have hline := enumBody_line hs h hfront (Or.inl rfl)
  have hstart := h.startsDeclaration_line hfront (Or.inl rfl)
  have hopens := h.opensNone_line hfront (Or.inl rfl)
  rw [List.append_nil] at hline hstart hopens
  rw [feed_eq_enumBody settings hs hstart hopens]
  exact ⟨hline.1, hline.2.1, hline.2.2⟩

/-- and one with the closing brace ends it. -/
theorem feed_close (hs : s.Lists name e) {items : List Item} {t front after : Text}
    (h : Row items t) (hfront : Row.Lead front) (hafter : Line.OpensNone after) :
    (s.feed settings (front ++ (t ++ '\x7d' :: after))).enumeration = none ∧
      (s.feed settings (front ++ (t ++ '\x7d' :: after))).corpus.enums.get? name =
        some { e with members := e.members ++ items.filterMap Item.declared? } := by
  have htail : Row.Tail ('\x7d' :: after) := Or.inr ⟨after, rfl⟩
  have hline := enumBody_line hs h hfront htail
  have hopens := h.opensNone_line hfront (Or.inr ⟨after, rfl, hafter⟩)
  have hstarts := h.startsDeclaration_line hfront htail
  rw [← List.append_assoc, feed_eq_enumBody settings hs hstarts hopens]
  exact ⟨hline.2.1, hline.2.2⟩

/-- Blank lines change nothing. -/
theorem lists_feedAll_blank (hs : s.Lists name e) {lines : List Text}
    (h : ∀ l ∈ lines, ∀ c ∈ l, isBlank c = true) : (s.feedAll settings lines).Lists name e := by
  induction lines generalizing s with
  | nil => exact hs
  | cons l lines ih =>
    have hfirst := lists_feed settings hs (Row.blank (h l List.mem_cons_self))
      (Or.inl rfl)
    rw [List.filterMap_nil, List.append_nil, List.nil_append] at hfirst
    exact ih hfirst fun l' hl' => h l' (List.mem_cons_of_mem l hl')

/-- **The lines of a body** add what their items declare, and end the enumeration. The opening brace
may stand in front of the first. -/
theorem feedAll_bodyLines {items : List Item} {l : Text} {lines : List Text}
    (h : BodyLines items (l :: lines)) {front : Text} (hfront : Row.Lead front)
    (hs : s.Lists name e) :
    (s.feedAll settings ((front ++ l) :: lines)).enumeration = none ∧
      (s.feedAll settings ((front ++ l) :: lines)).corpus.enums.get? name =
        some { e with members := e.members ++ items.filterMap Item.declared? } := by
  generalize hl : l :: lines = all at h
  induction h generalizing s e l lines front with
  | close h hafter =>
    obtain ⟨rfl, rfl⟩ := List.cons.inj hl
    exact feed_close settings hs h hfront hafter
  | @line items items' t rest h hrest ih =>
    obtain ⟨rfl, rfl⟩ := List.cons.inj hl
    have hnext := lists_feed settings hs h hfront
    cases lines with
    | nil => cases hrest
    | cons l' lines =>
      have hend := ih Row.lead_nil hnext rfl
      rw [List.filterMap_append, ← List.append_assoc]
      exact hend

/-! ### Opening an enumeration -/

/-- An opening line is used for what it says while no declaration waits. -/
theorem feed_opening (hs : s.pending = none) {line : Text} {kind : EnumKind}
    {underlying name : Text} {body : Option Text}
    (hline : Line.classify line = .enumOpen kind underlying name body) :
    s.feed settings line = s.released.openEnum settings kind underlying name body := by
  have hopens : opensEnum line = true := by rw [opensEnum, hline]
  have huse : s.use line = .acts := by
    unfold use
    split
    · rfl
    · rw [hs]
      simp [hopens]
  rw [feed_eq, huse]
  dsimp only
  rw [feedLine, hline]

/-- An enumeration that was just opened has no members. -/
theorem lists_openEnum (s : Scan) (kind : EnumKind) (underlying name : Text) :
    (s.released.openEnum settings kind underlying name none).Lists
      (settings.enumName (Naming.toUnified name))
      ⟨kind, TypeRef.parse underlying, settings.enumName (Naming.toUnified name), []⟩ :=
  ⟨rfl, rfl, Table.get?_insert_self ..⟩

/-- **The enumeration that is written** lists what its items declare. -/
theorem feedAll_written (hs : s.pending = none) {kind : EnumKind} {underlying name : Text}
    {items : List Item} {lines : List Text} (h : Written kind underlying name items lines) :
    (s.feedAll settings lines).enumeration = none ∧
      (s.feedAll settings lines).corpus.enums.get? (settings.enumName (Naming.toUnified name)) =
        some ⟨kind, TypeRef.parse underlying, settings.enumName (Naming.toUnified name),
          items.filterMap Item.declared?⟩ := by
  have hopened := lists_openEnum settings s kind underlying name
  cases h with
  | @closed line t after items hline h =>
    have hbody := enumBody_line hopened h Row.lead_nil (Or.inr ⟨after, rfl⟩)
    change (s.feed settings line).enumeration = none ∧
      (s.feed settings line).corpus.enums.get? _ = _
    rw [feed_opening settings hs hline]
    exact ⟨hbody.2.1, hbody.2.2⟩
  | @opened line t items items' lines hline h hrest =>
    have hbody := enumBody_line hopened h Row.lead_nil Row.tail_nil
    have hfeed := feed_opening settings hs hline
    rw [List.append_nil] at hbody
    cases lines with
    | nil => cases hrest
    | cons l lines =>
      have hlists : (s.released.openEnum settings kind underlying name (some t)).Lists _ _ :=
        ⟨hbody.1, hbody.2.1, hbody.2.2⟩
      rw [← hfeed] at hlists
      have hend := feedAll_bodyLines settings hrest Row.lead_nil hlists
      rw [List.filterMap_append]
      exact hend
  | @below line b t skipped lines items hline hskipped hb h =>
    have hfeed := feed_opening settings hs hline
    have hskip := lists_feedAll_blank settings (hfeed ▸ hopened) hskipped
    have hend := feedAll_bodyLines settings h (Or.inr ⟨b, hb, rfl⟩) hskip
    have hsplit : s.feedAll settings (line :: (skipped ++ (b ++ '\x7b' :: t) :: lines)) =
        ((s.feed settings line).feedAll settings skipped).feedAll settings
          ((b ++ ['\x7b'] ++ t) :: lines) := by
      rw [List.append_cons b, ← feedAll_append]
      rfl
    rw [hsplit]
    exact hend

end Scan

/-! ### What is listed -/

/-- The members listed are those that are meant exactly if every item declares the one it means. -/
theorem filterMap_eq_map_iff {α β : Type} {f : α → Option β} {g : α → β} {l : List α} :
    l.filterMap f = l.map g ↔ ∀ a ∈ l, f a = some (g a) := by
  constructor
  · intro h
    induction l with
    | nil => simp
    | cons a l ih =>
      rw [List.map_cons] at h
      cases hf : f a with
      | none =>
        rw [List.filterMap_cons_none hf] at h
        have hlen := congrArg List.length h
        have hle := List.length_filterMap_le f l
        rw [List.length_cons, List.length_map] at hlen
        omega
      | some b =>
        rw [List.filterMap_cons_some hf] at h
        obtain ⟨rfl, hrest⟩ := List.cons.inj h
        intro a' ha'
        rcases List.mem_cons.mp ha' with rfl | ha'
        · exact hf
        · exact ih hrest a' ha'
  · intro h
    induction l with
    | nil => rfl
    | cons a l ih =>
      rw [List.filterMap_cons_some (h a List.mem_cons_self), List.map_cons,
        ih fun a' ha' => h a' (List.mem_cons_of_mem a ha')]

/-- Without `=` in macros, the items whose names are spelled like macros are left out, and no
others. -/
theorem filterMap_declared? {items : List Item} (h : ∀ i ∈ items, '=' ∉ i.macros) :
    items.filterMap Item.declared? =
      (items.filter fun i => !Attribute.isMacroName i.name).map Item.member := by
  induction items with
  | nil => rfl
  | cons i items ih =>
    have hfirst := i.enumMember?_of_notMem (b := []) (by simp) (h i List.mem_cons_self)
    have hrest := ih fun i' hi' => h i' (List.mem_cons_of_mem i hi')
    rw [List.nil_append] at hfirst
    rw [List.filterMap_cons, Item.declared?, hfirst, hrest, List.filter_cons]
    cases Attribute.isMacroName i.name <;> rfl

/-- `UI_KIND_NONE = 0`: a name that is spelled like a macro. -/
def noneItem : Item where
  name := "UI_KIND_NONE".toList
  macros := [' ']
  value := some " 0".toList
  isName := by decide
  isMacros := .blank (by decide) .nil
  ends := endsName_cons (by decide)
  nests := by decide
  noBraces := noBraces_of_all (by decide)
  opensNone := by decide +kernel

/-- The arguments of the macro that says since when something is available. -/
def introduced : Text := "(availability(ios,introduced=7.0))".toList

/-- `UIKindNew __attribute__((availability(ios,introduced=7.0))) = 1`: an `=` in a macro. -/
def newItem : Item where
  name := "UIKindNew".toList
  macros := ' ' :: ("__attribute__".toList ++ ([] ++ ('(' :: introduced ++ [')', ' '])))
  value := some " 1".toList
  isName := by decide
  isMacros := .blank (by decide) (.call (by decide) (by decide) (by simp) (by decide)
    (.blank (by decide) .nil))
  ends := endsName_cons (by decide)
  nests := by decide
  noBraces := noBraces_of_all (by decide)
  opensNone := by decide +kernel

def kindLines : List Text :=
  ["typedef NS_ENUM(NSInteger, UIKind) \x7b".toList, "UI_KIND_NONE = 0,".toList,
    "UIKindNew __attribute__((availability(ios,introduced=7.0))) = 1".toList, "\x7d;".toList]

theorem written_kindLines :
    Written .plain "NSInteger".toList "UIKind".toList [noneItem, newItem] kindLines := by
  have hlines : kindLines = ["typedef NS_ENUM(NSInteger, UIKind) \x7b".toList,
      [] ++ noneItem.text ++ ',' :: [], [] ++ newItem.text, [] ++ '\x7d' :: ";".toList] := by
    decide +kernel
  have hopens : Line.classify "typedef NS_ENUM(NSInteger, UIKind) \x7b".toList =
      .enumOpen .plain "NSInteger".toList "UIKind".toList (some []) := by decide +kernel
  have hnone : Row [] [] := .blank (by simp)
  have hrest : BodyLines ([noneItem] ++ ([newItem] ++ [])) [[] ++ noneItem.text ++ ',' :: [],
      [] ++ newItem.text, [] ++ '\x7d' :: ";".toList] :=
    .line (.more (by simp) noneItem hnone) (.line (.last (by simp) newItem)
      (.close hnone (by decide +kernel)))
  have hwritten := Written.opened hopens hnone hrest
  rw [hlines]
  exact hwritten

end CommonHeaders
