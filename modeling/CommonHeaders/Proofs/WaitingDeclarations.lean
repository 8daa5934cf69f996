import CommonHeaders.Header.Scan
import Mathlib.Data.List.Basic
import Mathlib.Data.List.Induction

/-! # Declarations over several lines

A method or a property whose first line has no semicolon waits for the lines behind it. Whatever
those lines would do on their own (open an enumeration, a class, nothing at all), they only extend
the waiting declaration, until one of them has a semicolon or begins something new.

* `startsDeclaration_eq`, `classify_of_beginsMember`: the lines that begin something, by their
  marks.
* `feed_of_completes`, `feed_of_beginsAnew`: the two ways in which a declaration ends its waiting.
* `feedAll_unfinished`: the lines of an unfinished declaration wait as the one line they make.
* `feedAll_declaration`: a declaration over several lines does what that one line does, and one
  that is never finished does nothing.
* `feedLines_oneLine`, `feedLines_unfinished`: the same of whole headers. -/

namespace CommonHeaders

open Text

/-! ### Lines that begin something -/

namespace Line

/-- Does the trimmed line begin with one of the marks? -/
def begins (marks : List String) (line : Text) : Bool :=
  marks.any fun mark => startsWith mark (trim line)

/-- Does the line begin a method or a property? -/
def beginsMember (line : Text) : Bool := begins ["-", "+", "@property"] line

/-- Does the line begin a directive or a member? -/
def beginsAnew (line : Text) : Bool := begins ["@", "-", "+"] line

theorem begins_iff {marks : List String} {line : Text} :
    begins marks line ↔ ∃ mark ∈ marks, mark.toList <+: trim line := by
  simp only [begins, List.any_eq_true, startsWith, List.isPrefixOf_iff_prefix]

theorem trim_ne_nil_of_begins {marks : List String} {line : Text} (h : begins marks line)
    (hmarks : "" ∉ marks) : trim line ≠ [] := by
  obtain ⟨mark, hmark, hline⟩ := begins_iff.mp h
  intro hnil
  rw [hnil, List.prefix_nil, String.toList_eq_nil_iff] at hline
  exact hmarks (hline ▸ hmark)

theorem classify_of_beginsMember {line : Text} (h : beginsMember line) :
    classify line = .method (trim line) ∨ classify line = .property (trim line) := by
  obtain ⟨mark, hmark, t, ht⟩ := begins_iff.mp h
  have hmarks : mark = "-" ∨ mark = "+" ∨ mark = "@property" := by simpa using hmark
  unfold classify
  rw [← ht]
  rcases hmarks with rfl | rfl | rfl
  · exact Or.inl rfl
  · exact Or.inl rfl
  · exact Or.inr rfl

end Line

open Line

/-- The lines that continue nothing, by their marks. -/
theorem Scan.startsDeclaration_eq (line : Text) : startsDeclaration line = beginsAnew line := by
  rw [startsDeclaration, ← head?_trim, beginsAnew, begins]
  cases trim line with
  | nil => rfl
  | cons c r => simp [startsWith, List.isPrefixOf, Bool.or_assoc, BEq.comm (a := c)]

/-! ### Several lines as one -/

/-- **The one line of several lines**: trimmed, with one space between them. -/
def oneLine (lines : List Text) : Text := join [' '] (lines.map trim)

theorem oneLine_cons (first : Text) (rest : List Text) :
    oneLine (first :: rest) = trim first ++ rest.flatMap fun line => ' ' :: trim line := by
  rw [oneLine, List.map_cons, join_cons, List.flatMap_map]
  rfl

theorem oneLine_concat (first : Text) (rest : List Text) (last : Text) :
    oneLine (first :: rest ++ [last]) = oneLine (first :: rest) ++ ' ' :: trim last := by
  simp only [List.cons_append, oneLine_cons, List.flatMap_append, List.flatMap_singleton,
    List.append_assoc]

theorem mem_oneLine_iff {c : Char} (hc : isBlank c = false) {first : Text} {rest : List Text} :
    c ∈ oneLine (first :: rest) ↔ ∃ line ∈ first :: rest, c ∈ line := by
  have hne : c ≠ ' ' := fun h => by simp [h] at hc
  simp only [oneLine_cons, List.mem_append, List.mem_flatMap, List.mem_cons, hne, false_or,
    mem_trim_iff hc, exists_eq_or_imp]

/-- The one line begins with what its first line begins with. -/
theorem begins_oneLine {marks : List String} {first : Text} {rest : List Text}
    (h : begins marks first) (htrim : trim (oneLine (first :: rest)) = oneLine (first :: rest)) :
    begins marks (oneLine (first :: rest)) := by
  obtain ⟨mark, hmark, hfirst⟩ := begins_iff.mp h
  have hone : trim first <+: oneLine (first :: rest) := by
    rw [oneLine_cons]
    exact List.prefix_append _ _
  exact begins_iff.mpr ⟨mark, hmark, htrim.symm ▸ hfirst.trans hone⟩

theorem trim_oneLine {first : Text} {rest : List Text} {last : Text} (hfirst : trim first ≠ [])
    (hlast : trim last ≠ []) :
    trim (oneLine (first :: rest ++ [last])) = oneLine (first :: rest ++ [last]) := by
  refine trim_eq_self (fun c hc => ?_) (fun c hc => ?_)
  · refine not_isBlank_head?_trim first c ?_
    rwa [List.cons_append, oneLine_cons, List.head?_append_of_ne_nil (trim first) hfirst] at hc
  · refine not_isBlank_getLast?_trim last c ?_
    rwa [oneLine_concat, List.getLast?_append_of_ne_nil _ (List.cons_ne_nil ' ' _),
      List.getLast?_cons_of_ne_nil hlast] at hc

namespace Scan

variable {settings : Settings} {s : Scan}

/-! ### What one line does -/

/-- **Between members**: an interface is open, no enumeration is, and no declaration waits. -/
structure BetweenMembers (s : Scan) : Prop where
  place : s.place ≠ none
  enumeration : s.enumeration = none
  pending : s.pending = none

theorem feed_of_beginsMember (hs : s.BetweenMembers) {line : Text} (h : beginsMember line) :
    s.feed settings line =
      if ';' ∈ line then s.addMember (trim line) else { s with pending := some (trim line) } := by
  have hopen : s.feed settings line = s.feedLine settings line := by
    simp [feed, feedOpen, hs.pending, hs.enumeration]
  have hmember : s.feedLine settings line = s.beginMember (trim line) := by
    unfold feedLine
    rcases classify_of_beginsMember h with hline | hline <;> rw [hline]
  have hsemicolon : (trim line).contains ';' = true ↔ ';' ∈ line := by
    rw [List.contains_iff_mem, mem_trim_iff (by decide)]
  rw [hopen, hmember, beginMember]
  simp only [Option.isNone_iff_eq_none, hs.place, if_false, hsemicolon]

/-- A line with a semicolon that begins nothing completes the waiting declaration. -/
theorem feed_of_completes {waiting line : Text} (hs : s.pending = some waiting)
    (hnew : beginsAnew line = false) (hsemicolon : ';' ∈ line) :
    s.feed settings line = { s with pending := none }.addMember (waiting ++ ' ' :: trim line) := by
  have hjoined : (waiting ++ ' ' :: trim line).contains ';' = true := by
    rw [List.contains_iff_mem, List.mem_append, List.mem_cons, mem_trim_iff (by decide)]
    exact Or.inr (Or.inr hsemicolon)
  simp only [feed, hs, startsDeclaration_eq, hnew, hjoined, Bool.false_eq_true, if_false, if_true]

/-- A line that begins something does what it does when nothing waits. -/
theorem feed_of_beginsAnew {line : Text} (hnew : beginsAnew line) :
    s.feed settings line = { s with pending := none }.feed settings line := by
  cases hs : s.pending with
  | none =>
    have hself : s = { s with pending := none } := by rw [← hs]
    rw [← hself]
  | some waiting => simp only [feed, hs, startsDeclaration_eq, hnew, if_true]

/-! ### Unfinished declarations -/

/-- **An unfinished declaration**: a member begins on its first line, nothing begins on the others,
and no line has a semicolon. -/
structure Unfinished (first : Text) (rest : List Text) : Prop where
  beginsMember : beginsMember first
  continues : ∀ line ∈ rest, beginsAnew line = false
  noSemicolon : ∀ line ∈ first :: rest, ';' ∉ line

theorem Unfinished.of_concat {first : Text} {rest : List Text} {line : Text}
    (h : Unfinished first (rest ++ [line])) : Unfinished first rest where
  beginsMember := h.beginsMember
  continues l hl := h.continues l (List.mem_append_left _ hl)
  noSemicolon l hl := h.noSemicolon l (List.mem_append_left [line] hl)

theorem Unfinished.not_mem_oneLine {first : Text} {rest : List Text} (h : Unfinished first rest) :
    ';' ∉ oneLine (first :: rest) := by
  rw [mem_oneLine_iff (by decide)]
  rintro ⟨line, hline, hsemicolon⟩
  exact h.noSemicolon line hline hsemicolon

/-- **The lines of an unfinished declaration wait as the one line they make.** -/
theorem feedAll_unfinished (hs : s.BetweenMembers) {first : Text} {rest : List Text}
    (h : Unfinished first rest) :
    s.feedAll settings (first :: rest) = { s with pending := some (oneLine (first :: rest)) } := by
  -- the last line fed is the last of the rest, so the induction takes lines off that end
  induction rest using List.reverseRecOn with
  | nil =>
    have hnone : ';' ∉ first := h.noSemicolon first (List.mem_singleton_self first)
    have hline : oneLine [first] = trim first := by simp [oneLine_cons]
    rw [feedAll, List.foldl_cons, List.foldl_nil, feed_of_beginsMember hs h.beginsMember,
      if_neg hnone, hline]
  | append_singleton rest line ih =>
    have hnew : startsDeclaration line = false := by
      rw [startsDeclaration_eq]
      exact h.continues line (by simp)
    have hjoined : (oneLine (first :: rest) ++ ' ' :: trim line).contains ';' = false := by
      rw [← oneLine_concat, List.contains_eq_mem, decide_eq_false_iff_not]
      exact h.not_mem_oneLine
    rw [← List.cons_append, feedAll_concat, ih h.of_concat, feed_of_pending rfl hnew hjoined,
      oneLine_concat]

theorem BetweenMembers.cleared (hs : s.BetweenMembers) (waiting : Option Text) :
    { { s with pending := waiting } with pending := none } = s := by
  rw [← hs.pending]

/-- A declaration finished on its last line does what its one line does. -/
theorem feedAll_finished (hs : s.BetweenMembers) {first : Text} {rest : List Text}
    (h : Unfinished first rest) {last : Text} (hnew : beginsAnew last = false)
    (hsemicolon : ';' ∈ last) :
    s.feedAll settings (first :: rest ++ [last]) =
      s.feed settings (oneLine (first :: rest ++ [last])) := by
  have htrim : trim (oneLine (first :: rest ++ [last])) = oneLine (first :: rest ++ [last]) :=
    trim_oneLine (trim_ne_nil_of_begins h.beginsMember (by decide))
      (List.ne_nil_of_mem ((mem_trim_iff (by decide)).mpr hsemicolon))
  have hone : Line.beginsMember (oneLine (first :: rest ++ [last])) :=
    begins_oneLine h.beginsMember htrim
  have hmem : ';' ∈ oneLine (first :: rest ++ [last]) :=
    (mem_oneLine_iff (by decide)).mpr ⟨last, by simp, hsemicolon⟩
  calc s.feedAll settings (first :: rest ++ [last])
      = { s with pending := some (oneLine (first :: rest)) }.feed settings last := by
        rw [feedAll_concat, feedAll_unfinished hs h]
    _ = s.addMember (oneLine (first :: rest ++ [last])) := by
        rw [feed_of_completes rfl hnew hsemicolon, hs.cleared, oneLine_concat]
    _ = s.feed settings (oneLine (first :: rest ++ [last])) := by
        rw [feed_of_beginsMember hs hone, if_pos hmem, htrim]

/-- A declaration given up for a directive or another member has done nothing. -/
theorem feedAll_givenUp (hs : s.BetweenMembers) {first : Text} {rest : List Text}
    (h : Unfinished first rest) {next : Text} (hnew : beginsAnew next) :
    s.feedAll settings (first :: rest ++ [next]) = s.feed settings next := by
  rw [feedAll_concat, feedAll_unfinished hs h, feed_of_beginsAnew hnew, hs.cleared]

/-- **A declaration over several lines does what its one line does, or nothing**: finished, it
leaves the scan as the one line does; given up for a directive or another member, it leaves that
line to do what it does alone; at the end of a header it has declared nothing. -/
theorem feedAll_declaration (settings : Settings) {s : Scan} (hs : s.BetweenMembers)
    {first : Text} {rest : List Text} (h : Unfinished first rest) :
    (∀ last, beginsAnew last = false → ';' ∈ last →
      s.feedAll settings (first :: rest ++ [last]) =
        s.feed settings (oneLine (first :: rest ++ [last]))) ∧
    (∀ next, beginsAnew next →
      s.feedAll settings (first :: rest ++ [next]) = s.feed settings next) ∧
    (s.feedAll settings (first :: rest)).corpus = s.corpus := by
  refine ⟨fun last hnew hsemicolon => feedAll_finished hs h hnew hsemicolon,
    fun next hnew => feedAll_givenUp hs h hnew, ?_⟩
  rw [feedAll_unfinished hs h]

/-- A method over several lines, one of which would open an enumeration if nothing waited: it is
read as from one line, and given up for `@end` it leaves a closed class. -/
theorem feedAll_declaration_fold :
    let s := Scan.feed .default { corpus := .empty } "@interface UIThing : NSObject".toList
    let first := "- (void)fold:(id)first".toList
    let rest := ["  with:(id)second".toList, [], "NS_ENUM(NSInteger, Kind) \x7b".toList]
    let last := "NS_AVAILABLE(10_0);".toList
    let finished := s.feedAll .default (first :: rest ++ [last])
    rest.map opensEnum = [false, false, true] ∧
      finished = s.feed .default (oneLine (first :: rest ++ [last])) ∧
      (finished.corpus.classes.get? "UIThing".toList).map (·.methods.keys) =
        some ["fold:with:".toList] ∧
      s.feedAll .default (first :: rest ++ ["@end".toList]) = s.feed .default "@end".toList ∧
      (s.feedAll .default (first :: rest)).corpus = s.corpus := by
  intro s first rest last finished
  have hs : s.BetweenMembers :=
    ⟨by decide +kernel, by decide +kernel, by decide +kernel⟩
  have h : Unfinished first rest :=
    ⟨by decide +kernel, by decide +kernel, by decide +kernel⟩
  obtain ⟨hlast, hnext, hend⟩ := feedAll_declaration .default hs h
  have hfinished := hlast last (by decide +kernel) (by decide +kernel)
  have hclosed := hnext "@end".toList (by decide +kernel)
  exact ⟨by decide +kernel, hfinished, by decide +kernel, hclosed, hend⟩

end Scan

/-! ### Headers -/

namespace Corpus

variable (settings : Settings) (c : Corpus) {before rest : List Text} {first : Text}

/-- **The lines of a declaration may be joined**: a header with the one line declares the same. -/
theorem feedLines_oneLine (hs : (Scan.feedAll settings { corpus := c } before).BetweenMembers)
    (h : Scan.Unfinished first rest) {last : Text} (hnew : beginsAnew last = false)
    (hsemicolon : ';' ∈ last) (after : List Text) :
    c.feedLines settings (before ++ (first :: rest ++ [last]) ++ after) =
      c.feedLines settings (before ++ [oneLine (first :: rest ++ [last])] ++ after) := by
  simp only [feedLines, Scan.feedAll_append, Scan.feedAll_finished hs h hnew hsemicolon]
  rfl

/-- **A header may end within a declaration**, which then declares nothing. -/
theorem feedLines_unfinished (hs : (Scan.feedAll settings { corpus := c } before).BetweenMembers)
    (h : Scan.Unfinished first rest) :
    c.feedLines settings (before ++ first :: rest) = c.feedLines settings before := by
  rw [feedLines, Scan.feedAll_append, Scan.feedAll_unfinished hs h]
  rfl

end Corpus

end CommonHeaders
