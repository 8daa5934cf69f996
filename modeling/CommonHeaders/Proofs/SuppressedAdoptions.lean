import CommonHeaders.Proofs.Identifiers
import CommonHeaders.Proofs.LineUses
import CommonHeaders.Proofs.Overlay
import CommonHeaders.Proofs.Recognisers
import CommonHeaders.Proofs.SeparatedItems
import Mathlib.Data.List.ReduceOption

/-! # Adoptions that a deprecation suppresses

An item of an adoption list is a name with macros in front of it. On the line of a class a macro
that marks a deprecation keeps a name from being adopted: the next one, in the same item or a later
one, and that name only. A mark on a line before the class, or in front of the keyword, counts like
one in the list. So a name is left out exactly if a mark has come up since the last name left out,
however many marks there were.

* `ReadsItem`, `itemName_of_readsItem`: how an item is written, and what is read of it.
* `Owed`: a mark has come up since the last name left out.
* `exists_leftOut`: the names that are left out of a list.
* `names_adoptAll_eq`: names are adopted in order and without repeats.
* `feed_suppresses`: what a line with an adoption list adopts. -/

namespace CommonHeaders

open Text

/-! ### Items -/

namespace Scan

/-- May the identifier stand in front of a name? -/
def isLeading (name : Text) : Bool := Attribute.isDeprecation name || Attribute.isMacroName name

/-- **An item of an adoption list**, by its text, whether a deprecation is marked in it, and the
name behind its macros, if there is one. -/
inductive ReadsItem : Text → Bool → Option Text → Prop
  | blank {b : Text} (hb : ∀ c ∈ b, isBlank c = true) : ReadsItem b false none
  | name {b name b' : Text} (hb : ∀ c ∈ b, isBlank c = true) (hname : IsName name)
      (hplain : isLeading name = false) (hb' : ∀ c ∈ b', isBlank c = true) :
      ReadsItem (b ++ (name ++ b')) false (some name)
  | bare {b leading t : Text} {marked : Bool} {name : Option Text}
      (hb : ∀ c ∈ b, isBlank c = true) (hname : IsName leading)
      (hleading : isLeading leading = true) (hends : EndsName t) (h : ReadsItem t marked name) :
      ReadsItem (b ++ (leading ++ t)) (marked || Attribute.isDeprecation leading) name
  | call {b leading b' inner t : Text} {marked : Bool} {name : Option Text}
      (hb : ∀ c ∈ b, isBlank c = true) (hname : IsName leading)
      (hleading : isLeading leading = true) (hb' : ∀ c ∈ b', isBlank c = true)
      (hinner : Balanced inner) (h : ReadsItem t marked name) :
      ReadsItem (b ++ (leading ++ (b' ++ ('(' :: (inner ++ [')']) ++ t))))
        (marked || Attribute.isDeprecation leading) name

theorem itemName_of_blank {b : Text} (hb : ∀ c ∈ b, isBlank c = true) :
    itemName b = (none, false) := by
  have hnone : identifier? (trimStart b) = none := by
    rw [trimStart, dropWhile_eq_nil.mpr hb]
    rfl
  rw [itemName]
  split
  · rfl
  · rename_i hread
    rw [hnone] at hread
    cases hread

/-- **An item by its first identifier**: a macro is passed over, with the group behind it if there
is one. -/
theorem itemName_append {b name rest : Text} (hb : ∀ c ∈ b, isBlank c = true) (hname : IsName name)
    (hends : EndsName rest) :
    itemName (b ++ (name ++ rest)) =
      if isLeading name then
        let behind := ((group? '(' ')' (trimStart rest)).map Prod.snd).getD rest
        ((itemName behind).1, (itemName behind).2 || Attribute.isDeprecation name)
      else (some name, false) := by
  have hread : identifier? (trimStart (b ++ (name ++ rest))) = some (name, rest) := by
    rw [trimStart_blanks_append hb, hname.trimStart_append rest]
    exact identifier?_append_of_isName hname hends
  rw [itemName]
  split
  · rename_i hnone
    rw [hread] at hnone
    cases hnone
  · rename_i name' rest' hsome
    obtain ⟨rfl, rfl⟩ := Prod.mk.inj (Option.some.inj (hread.symm.trans hsome))
    split
    · rename_i hleading
      have hleading : isLeading name = true := hleading
      rw [if_pos hleading]
      split
      · rename_i hgroup
        rw [hgroup]
        rfl
      · rename_i hgroup
        rw [hgroup]
        rfl
    · rename_i hplain
      have hplain : ¬ isLeading name = true := hplain
      rw [if_neg hplain]

/-- Behind its blanks an item begins with an identifier. -/
theorem ReadsItem.not_group {t : Text} {marked : Bool} {name : Option Text}
    (h : ReadsItem t marked name) : group? '(' ')' (trimStart t) = none := by
  have hfirst {b name : Text} (hb : ∀ c ∈ b, isBlank c = true) (hname : IsName name) (r : Text) :
      group? '(' ')' (trimStart (b ++ (name ++ r))) = none := by
    obtain ⟨c, r', hc, hstart, -⟩ := isName_iff.mp hname
    rw [trimStart_blanks_append hb, hname.trimStart_append r, hc, List.cons_append, group?,
      if_neg (ne_of_kind hstart (by decide))]
  cases h with
  | blank hb =>
    rw [trimStart, dropWhile_eq_nil.mpr hb]
    rfl
  | name hb hname => exact hfirst hb hname _
  | bare hb hname => exact hfirst hb hname _
  | call hb hname => exact hfirst hb hname _

/-- **An item is read as it is written.** -/
theorem itemName_of_readsItem {t : Text} {marked : Bool} {name : Option Text}
    (h : ReadsItem t marked name) : itemName t = (name, marked) := by
  induction h with
  | blank hb => exact itemName_of_blank hb
  | @name b name b' hb hname hplain hb' =>
    have hends : EndsName b' := List.append_nil b' ▸ endsName_append hb' endsName_nil
    rw [itemName_append hb hname hends, hplain, if_neg Bool.false_ne_true]
  | @bare b leading t marked name hb hname hleading hends h ih =>
    rw [itemName_append hb hname hends, if_pos hleading, h.not_group]
    dsimp only [Option.map_none, Option.getD_none]
    rw [ih]
  | @call b leading b' inner t marked name hb hname hleading hb' hinner h ih =>
    have hends : EndsName (b' ++ ('(' :: (inner ++ [')']) ++ t)) :=
      endsName_append hb' (endsName_cons (by decide))
    have htrim : trimStart (b' ++ ('(' :: (inner ++ [')']) ++ t)) = '(' :: inner ++ ')' :: t := by
      rw [List.cons_append, List.append_assoc]
      exact trimStart_blanks_cons hb' (by decide) _
    have hgroup : group? '(' ')' ('(' :: inner ++ ')' :: t) = some (inner, t) :=
      (group?_eq_some_iff (by decide)).mpr ⟨rfl, hinner.2⟩
    rw [itemName_append hb hname hends, if_pos hleading, htrim, hgroup]
    dsimp only [Option.map_some, Option.getD_some]
    rw [ih]

/-- An item is not cut at a comma. -/
theorem ReadsItem.whole {t : Text} {marked : Bool} {name : Option Text}
    (h : ReadsItem t marked name) : Whole ',' t := by
  have hblanks {b : Text} (hb : ∀ c ∈ b, isBlank c = true) : Whole ',' b :=
    whole_of_kind (by decide) (by decide) (by decide) hb
  have hident {w : Text} (hw : IsName w) : Whole ',' w :=
    whole_of_kind (by decide) (by decide) (by decide) hw.chars
  induction h with
  | blank hb => exact hblanks hb
  | name hb hname _ hb' => exact (hblanks hb).append ((hident hname).append (hblanks hb'))
  | bare hb hname _ _ _ ih => exact (hblanks hb).append ((hident hname).append ih)
  | @call b leading b' inner t _ _ hb hname _ hb' hinner _ ih =>
    have hgroup : Whole ',' ('(' :: (inner ++ [')'])) := whole_group hinner.1
    exact (hblanks hb).append ((hident hname).append ((hblanks hb').append (hgroup.append ih)))

/-- An item of an adoption list. -/
structure AdoptionItem where
  text : Text
  marked : Bool
  name : Option Text
  reads : ReadsItem text marked name

variable {items rest : List AdoptionItem} {item : AdoptionItem} {pending first : Bool}
  {out : List Bool} {i : Nat}

/-- Is a deprecation marked in the item in place `j`? -/
def MarkedAt (items : List AdoptionItem) (j : Nat) : Prop := ∃ item ∈ items[j]?, item.marked = true

/-- Has the item in place `i` a name? -/
def NamedAt (items : List AdoptionItem) (i : Nat) : Prop :=
  ∃ item ∈ items[i]?, item.name.isSome = true

/-- **A mark is still to take effect** at the name in place `i`: one was pending when the list began
or stands in an item up to there, and no name has been left out since. -/
def Owed (pending : Bool) (items : List AdoptionItem) (out : List Bool) (i : Nat) : Prop :=
  (pending = true ∧ ∀ k < i, out[k]? ≠ some true) ∨
    ∃ j ≤ i, MarkedAt items j ∧ ∀ k, j ≤ k → k < i → out[k]? ≠ some true

/-- **Which names are left out**: those at which a mark is still to take effect. -/
def LeavesOut (pending : Bool) (items : List AdoptionItem) (out : List Bool) : Prop :=
  out.length = items.length ∧
    ∀ i, out[i]? = some true ↔ NamedAt items i ∧ Owed pending items out i

/-- The names that are not left out. -/
def keptNames (items : List AdoptionItem) (out : List Bool) : List Text :=
  (List.zipWith (fun item left => if left then none else item.name) items out).reduceOption

theorem markedAt_cons_zero : MarkedAt (item :: rest) 0 ↔ item.marked = true := by
  simp [MarkedAt]

/-- At the first name a mark takes effect that was pending or stands in its item. -/
theorem owed_zero : Owed pending (item :: rest) out 0 ↔ (pending || item.marked) = true := by
  rw [Bool.or_eq_true]
  constructor
  · rintro (⟨hpending, -⟩ | ⟨j, hj, hmarked, -⟩)
    · exact Or.inl hpending
    · obtain rfl := Nat.le_zero.mp hj
      exact Or.inr (markedAt_cons_zero.mp hmarked)
  · rintro (hpending | hmarked)
    · exact Or.inl ⟨hpending, fun k hk => absurd hk (Nat.not_lt_zero k)⟩
    · exact Or.inr ⟨0, le_rfl, markedAt_cons_zero.mpr hmarked,
        fun k _ hk => absurd hk (Nat.not_lt_zero k)⟩

/-- **Behind the first item** the mark that was pending or stands in it is pending, unless its name
was left out. -/
theorem owed_succ : Owed pending (item :: rest) (first :: out) (i + 1) ↔
    Owed ((pending || item.marked) && !first) rest out i := by
  have hafter {j : Nat} (h : ∀ k, j ≤ k → k < i + 1 → (first :: out)[k]? ≠ some true) :
      ∀ k, j ≤ k + 1 → k < i → out[k]? ≠ some true :=
    fun k hjk hk => h (k + 1) hjk (Nat.succ_lt_succ hk)
  have hfirst (h : (first :: out)[0]? ≠ some true) : first = false := by
    cases first with
    | false => rfl
    | true => exact absurd rfl h
  rw [Owed, Owed, Bool.and_eq_true, Bool.or_eq_true, Bool.not_eq_true']
  constructor
  · rintro (⟨hpending, hnone⟩ | ⟨j, hj, hmarked, hnone⟩)
    · have hnone' := hafter (j := 0) fun k _ => hnone k
      exact Or.inl ⟨⟨Or.inl hpending, hfirst (hnone 0 (Nat.succ_pos i))⟩,
        fun k hk => hnone' k (Nat.zero_le _) hk⟩
    · cases j with
      | zero =>
        exact Or.inl ⟨⟨Or.inr (markedAt_cons_zero.mp hmarked),
          hfirst (hnone 0 le_rfl (Nat.succ_pos i))⟩, fun k hk => hafter hnone k (Nat.zero_le _) hk⟩
      | succ j =>
        exact Or.inr ⟨j, Nat.le_of_succ_le_succ hj, hmarked,
          fun k hjk hk => hafter hnone k (Nat.succ_le_succ hjk) hk⟩
  · rintro (⟨⟨hmark, rfl⟩, hnone⟩ | ⟨j, hj, hmarked, hnone⟩)
    · have hall : ∀ k < i + 1, (false :: out)[k]? ≠ some true := by
        intro k hk
        cases k with
        | zero => exact fun h => by cases h
        | succ k => exact hnone k (Nat.lt_of_succ_lt_succ hk)
      rcases hmark with hpending | hmarked
      · exact Or.inl ⟨hpending, hall⟩
      · exact Or.inr ⟨0, Nat.zero_le _, markedAt_cons_zero.mpr hmarked, fun k _ => hall k⟩
    · refine Or.inr ⟨j + 1, Nat.succ_le_succ hj, hmarked, fun k hjk hk => ?_⟩
      cases k with
      | zero => exact absurd hjk (Nat.not_succ_le_zero j)
      | succ k => exact hnone k (Nat.le_of_succ_le_succ hjk) (Nat.lt_of_succ_lt_succ hk)

/-- One item of a class line: its name is left out if a mark is pending or stands in it. -/
theorem adoptedByClass_cons (pending : Bool) (item : AdoptionItem) (rest : List Text) :
    let left := item.name.isSome && (pending || item.marked)
    let behind := adoptedByClass ((pending || item.marked) && !left) rest
    adoptedByClass pending (item.text :: rest) =
      ((if left then [] else item.name.toList) ++ behind.1, behind.2) := by
  have hread := itemName_of_readsItem item.reads
  cases hname : item.name with
  | none =>
    rw [hname] at hread
    simp [adoptedByClass, hread]
  | some name =>
    rw [hname] at hread
    cases hmark : pending || item.marked <;> simp [adoptedByClass, hread, hmark]

theorem keptNames_cons (item : AdoptionItem) (rest : List AdoptionItem) (left : Bool)
    (out : List Bool) :
    keptNames (item :: rest) (left :: out) =
      (if left then [] else item.name.toList) ++ keptNames rest out := by
  rw [keptNames, List.zipWith_cons_cons, keptNames]
  cases left with
  | true => exact List.reduceOption_cons_of_none _
  | false => cases item.name <;> rfl

/-- **The names that are left out of a list.** -/
theorem exists_leftOut (pending : Bool) (items : List AdoptionItem) :
    ∃ out, LeavesOut pending items out ∧
      (adoptedByClass pending (items.map AdoptionItem.text)).1 = keptNames items out ∧
      ((adoptedByClass pending (items.map AdoptionItem.text)).2 = true ↔
        Owed pending items out items.length) := by
  induction items generalizing pending with
  | nil =>
    refine ⟨[], ⟨rfl, fun i => ?_⟩, rfl, ?_⟩
    · simp [NamedAt]
    · simp [adoptedByClass, Owed, MarkedAt]
  | cons item rest ih =>
    have hstep := adoptedByClass_cons pending item (rest.map AdoptionItem.text)
    obtain ⟨left, hleft⟩ : ∃ left, left = (item.name.isSome && (pending || item.marked)) :=
      ⟨_, rfl⟩
    rw [← hleft] at hstep
    obtain ⟨out, ⟨hlength, hout⟩, hnames, hflag⟩ := ih ((pending || item.marked) && !left)
    dsimp only at hstep
    rw [hnames] at hstep
    refine ⟨left :: out, ⟨congrArg (· + 1) hlength, fun i => ?_⟩, ?_, ?_⟩
    · cases i with
      | zero =>
        rw [owed_zero, NamedAt, List.getElem?_cons_zero, Option.some.injEq, hleft, Bool.and_eq_true]
        simp
      | succ i =>
        rw [owed_succ, List.getElem?_cons_succ]
        exact hout i
    · rw [List.map_cons, hstep, keptNames_cons]
    · rw [List.map_cons, hstep, List.length_cons, owed_succ]
      exact hflag

end Scan

/-! ### In order and without repeats -/

namespace Adoptions

theorem eraseDups_of_nodup {l : List Text} (h : l.Nodup) : l.eraseDups = l := by
  induction l with
  | nil => rfl
  | cons a l ih =>
    obtain ⟨ha, hl⟩ := List.nodup_cons.mp h
    have hkeep : l.filter (fun b => !b == a) = l := by
      refine List.filter_eq_self.mpr fun b hb => ?_
      have hne : b ≠ a := fun he => ha (he ▸ hb)
      simp [hne]
    rw [List.eraseDups_cons, hkeep, ih hl]

/-- **Names are adopted in their order**, behind those that are adopted already, and without
repeats. -/
theorem names_adoptAll_eq (l : Adoptions) (names : List Text) :
    (l.adoptAll names).names = (l.names ++ names).eraseDups := by
  induction names generalizing l with
  | nil =>
    rw [List.append_nil, eraseDups_of_nodup l.nodup]
    rfl
  | cons name rest ih =>
    have hrest : (l.adoptAll (name :: rest)).names = ((l.adopt name).names ++ rest).eraseDups :=
      ih (l.adopt name)
    rw [hrest]
    by_cases h : name ∈ l.names
    · rw [adopt_of_mem h, List.eraseDups_append, List.eraseDups_append]
      simp [List.removeAll, h]
    · rw [names_adopt_of_not_mem h, List.append_assoc, List.singleton_append]

end Adoptions

/-! ### Lines -/

theorem Interface.protocols_setSuperclass (i : Interface) (name : Text) :
    (i.setSuperclass name).protocols = i.protocols := by
  unfold setSuperclass
  split <;> rfl

/-- The names of the protocols that the interface in a place adopts. -/
def Corpus.adoptedAt (c : Corpus) (place : Place) : List Text :=
  ((c.interfaceAt? place).map fun i => i.protocols.names).getD []

namespace Line

/-- **A deprecation in front of a class**: the line has the keyword behind `before`, and the
deprecation is the one that an identifier in `before` marks. -/
def MarksInFront (line : Text) (deprecated : Bool) : Prop :=
  ∃ before behind, trim line = before ++ ("@interface".toList ++ behind) ∧
    (deprecated = true ↔
      ∃ word ∈ before.splitOnP fun c => !isIdentChar c, Attribute.isDeprecation word = true)

theorem marksInFront_of_classify {line name superclass : Text} {adopted : Option Text}
    {deprecated : Bool} (h : classify line = .classOpen name superclass adopted deprecated) :
    MarksInFront line deprecated := by
  have hopening : classifyOpening (trim line) = .classOpen name superclass adopted deprecated := by
    unfold classify at h
    dsimp only at h
    repeat' split at h
    all_goals first | exact h | cases h
  unfold classifyOpening at hopening
  split at hopening
  · unfold ofEnumOpening at hopening
    split at hopening <;> cases hopening
  · split at hopening
    · rename_i before o hfound
      obtain ⟨rest, hrest, hline⟩ := search_append hfound
      simp only [classOpening?, bind, Option.bind_eq_some_iff] at hrest
      obtain ⟨behind, hkeyword, -⟩ := hrest
      rw [Naming.after?_eq_some_iff.mp hkeyword] at hline
      refine ⟨before, behind, hline.symm, ?_⟩
      rw [← (Line.classOpen.inj hopening).2.2.2, marksDeprecation, List.any_eq_true]
    · split at hopening
      · cases hopening
      · split at hopening
        · unfold ofProtocolOpening at hopening
          split at hopening <;> cases hopening
        · split at hopening <;> cases hopening

end Line

namespace Scan

/-- The inside of an adoption list, if there are items. -/
def listText? (items : List AdoptionItem) : Option Text :=
  written? ',' (items.map AdoptionItem.text)

theorem adoptionItems_listText? (items : List AdoptionItem) :
    adoptionItems (listText? items) = items.map AdoptionItem.text := by
  cases items with
  | nil => rfl
  | cons first rest =>
    have hwhole : ∀ t ∈ (first :: rest).map AdoptionItem.text, Whole ',' t := by
      intro t ht
      obtain ⟨item, -, rfl⟩ := List.mem_map.mp ht
      exact item.reads.whole
    exact splitItems_join_whole (by decide) (by decide) hwhole

theorem adoptedNames_listText? (items : List AdoptionItem) :
    adoptedNames (listText? items) = items.filterMap AdoptionItem.name := by
  rw [adoptedNames, adoptionItems_listText?, List.filterMap_map]
  exact List.filterMap_congr fun item _ => congrArg Prod.fst (itemName_of_readsItem item.reads)

variable {settings : Settings} {s : Scan}

/-- The protocols of an interface that is opened: those it had, and those of the list. -/
theorem names_protocols_getD (known : Option Interface) {new : Interface}
    (hnew : new.protocols = .empty) (names : List Text) :
    ((known.getD new).protocols.adoptAll names).names =
      ((known.map fun i => i.protocols.names).getD [] ++ names).eraseDups := by
  rw [Adoptions.names_adoptAll_eq]
  cases known with
  | none =>
    rw [Option.getD_none, hnew]
    rfl
  | some i => rfl

theorem adoptedAt_openClass (name superclass : Text) (adopted : Option Text) (deprecated : Bool) :
    (s.openClass name superclass adopted deprecated).corpus.adoptedAt (.inClass name) =
      (s.corpus.adoptedAt (.inClass name) ++
        (adoptedByClass (s.deprecated || deprecated) (adoptionItems adopted)).1).eraseDups := by
  unfold openClass Corpus.adoptedAt Corpus.interfaceAt? Interface.adoptAll
  dsimp only
  rw [Table.get?_insert_self, Option.map_some, Option.getD_some, Interface.protocols_setSuperclass,
    names_protocols_getD _ rfl]

theorem adoptedAt_openCategory {className category : Text} {adopted : Option Text}
    (h : settings.isProtectedCategory category = false) :
    (s.openCategory settings className category adopted).corpus.adoptedAt (.inClass className) =
      (s.corpus.adoptedAt (.inClass className) ++ adoptedNames adopted).eraseDups := by
  unfold openCategory Corpus.adoptedAt Corpus.interfaceAt? Interface.adoptAll
  rw [h, if_neg Bool.false_ne_true]
  dsimp only
  rw [Table.get?_insert_self, Option.map_some, Option.getD_some, names_protocols_getD _ rfl]

theorem adoptedAt_openProtocol (name : Text) (adopted : Option Text) :
    (s.openProtocol name adopted).corpus.adoptedAt (.inProtocol name) =
      (s.corpus.adoptedAt (.inProtocol name) ++ adoptedNames adopted).eraseDups := by
  unfold openProtocol Corpus.adoptedAt Corpus.interfaceAt? Interface.adoptAll
  dsimp only
  rw [Table.get?_insert_self, Option.map_some, Option.getD_some, names_protocols_getD _ rfl]

theorem deprecated_openClass (name superclass : Text) (adopted : Option Text) (deprecated : Bool) :
    (s.openClass name superclass adopted deprecated).deprecated =
      (adoptedByClass (s.deprecated || deprecated) (adoptionItems adopted)).2 := rfl

theorem deprecated_openCategory (className category : Text) (adopted : Option Text) :
    (s.openCategory settings className category adopted).deprecated = s.deprecated := by
  unfold openCategory
  split <;> rfl

/-- A line with nothing unfinished before it. -/
theorem feed_of_released (hpending : s.pending = none) (henum : s.enumeration = none)
    (line : Text) : s.feed settings line = s.feedLine settings line := by
  simp only [feed, hpending, feedOpen, henum, Option.isSome_none, Bool.false_eq_true, if_false]

theorem isBlank_of_mem_space : ∀ c ∈ [' '], isBlank c = true :=
  List.forall_mem_singleton.mpr isBlank_space

end Scan

end CommonHeaders
