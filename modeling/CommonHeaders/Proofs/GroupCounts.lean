import CommonHeaders.Proofs.Groups
import Mathlib.Data.List.Induction
import Mathlib.Tactic.Basic

/-! # Groups by their counts

A group ends where its opening and closing characters are first balanced: every beginning of it has
more of the former, the whole has as many of either. That is all there is to finding groups. The
reader counts the groups that are open, and its counter is at every place what the beginning read so
far says, so it can never be asked to count below zero: a closing character that would bring it to
zero ends the group, and none stands in front of the first opening one.

* `isGroup_iff`: what a group encloses, by its counts.
* `StartsWithGroup.unique`: a text starts with one group at most.
* `Visits.tallied`: what the reader's counter says, step by step.
* `Cursor.takeGroup_exact`: what is read at a cursor, and where the cursor stands afterwards. -/

namespace CommonHeaders.Text

variable {opener closer : Char}

/-! ### Counts -/

/-- **A group, by its counts.** -/
structure IsGroup (opener closer : Char) (inner : Text) : Prop where
  /-- Every beginning opens more than it closes, -/
  opened : ∀ p, p ≠ [] → p <+: opener :: inner → p.count closer < p.count opener
  /-- and the whole closes all that it opens. -/
  closed : (opener :: inner ++ [closer]).count opener = (opener :: inner ++ [closer]).count closer

/-- **The text starts with a group**, and `tail` is what stands behind it. -/
def StartsWithGroup (opener closer : Char) (t inner tail : Text) : Prop :=
  t = opener :: inner ++ closer :: tail ∧ IsGroup opener closer inner

/-- A text that never closes more than is open ends at some depth. -/
theorem exists_depthAfter? (hne : opener ≠ closer) {t : Text} {depth : Nat}
    (h : ∀ p, p <+: t → p.count closer ≤ depth + p.count opener) :
    ∃ after, depthAfter? opener closer depth t = some after := by
  induction t generalizing depth with
  | nil => exact ⟨depth, rfl⟩
  | cons c r ih =>
    have hrest (p : Text) (hp : p <+: r) :
        (c :: p).count closer ≤ depth + (c :: p).count opener :=
      h (c :: p) (List.cons_prefix_cons.mpr ⟨rfl, hp⟩)
    rw [depthAfter?, deepen?]
    by_cases hopener : c = opener
    · rw [if_pos hopener, Option.bind_some]
      refine ih fun p hp => ?_
      have hcount := hrest p hp
      rw [hopener, List.count_cons_self, List.count_cons_of_ne hne] at hcount
      omega
    · rw [if_neg hopener]
      by_cases hcloser : c = closer
      · have hfirst := hrest [] List.nil_prefix
        rw [hcloser, List.count_cons_self, List.count_cons_of_ne hne.symm, List.count_nil,
          List.count_nil] at hfirst
        have hdepth : depth ≠ 0 := by omega
        rw [if_pos hcloser, if_neg hdepth, Option.bind_some]
        refine ih fun p hp => ?_
        have hcount := hrest p hp
        rw [hcloser, List.count_cons_self, List.count_cons_of_ne hne.symm] at hcount
        omega
      · rw [if_neg hcloser, Option.bind_some]
        refine ih fun p hp => ?_
        have hcount := hrest p hp
        rwa [List.count_cons_of_ne hcloser, List.count_cons_of_ne hopener] at hcount

/-- **How deep a text ends**, by the counts of its beginnings and of the whole. -/
theorem depthAfter?_eq_some_iff (hne : opener ≠ closer) {t : Text} {depth after : Nat} :
    depthAfter? opener closer depth t = some after ↔
      (∀ p, p <+: t → p.count closer ≤ depth + p.count opener) ∧
        depth + t.count opener = after + t.count closer := by
  constructor
  · intro h
    refine ⟨?_, count_of_depthAfter? hne h⟩
    rintro p ⟨q, rfl⟩
    rw [depthAfter?_append] at h
    obtain ⟨d, hd, -⟩ := Option.bind_eq_some_iff.mp h
    have hcount := count_of_depthAfter? hne hd
    omega
  · rintro ⟨hfront, hcount⟩
    obtain ⟨d, hd⟩ := exists_depthAfter? hne hfront
    have hcount' := count_of_depthAfter? hne hd
    have hafter : d = after := by omega
    rw [hd, hafter]

/-- **What a group encloses** is known by the counts. -/
theorem isGroup_iff (hne : opener ≠ closer) {inner : Text} :
    IsGroup opener closer inner ↔ Encloses opener closer inner := by
  have hopeners (p : Text) : (opener :: p).count opener = p.count opener + 1 :=
    List.count_cons_self
  have hclosers (p : Text) : (opener :: p).count closer = p.count closer :=
    List.count_cons_of_ne hne
  have hlast : [closer].count closer = 1 ∧ [closer].count opener = 0 :=
    ⟨List.count_singleton_self, List.count_cons_of_ne hne.symm⟩
  rw [Encloses, depthAfter?_eq_some_iff hne]
  constructor
  · intro h
    refine ⟨fun p hp => ?_, ?_⟩
    · have hcount := h.opened (opener :: p) (List.cons_ne_nil _ _)
        (List.cons_prefix_cons.mpr ⟨rfl, hp⟩)
      rw [hopeners, hclosers] at hcount
      omega
    · have hcount := h.closed
      rw [List.count_append, List.count_append, hopeners, hclosers] at hcount
      omega
  · rintro ⟨hfront, hcount⟩
    refine ⟨fun p hp hpre => ?_, ?_⟩
    · obtain ⟨q, rfl, hq⟩ := (List.prefix_cons_iff.mp hpre).resolve_left hp
      have hle := hfront q hq
      rw [hopeners, hclosers]
      omega
    · rw [List.count_append, List.count_append, hopeners, hclosers]
      omega

theorem group?_eq_some_iff_startsWithGroup (hne : opener ≠ closer) {t inner tail : Text} :
    group? opener closer t = some (inner, tail) ↔ StartsWithGroup opener closer t inner tail := by
  rw [group?_eq_some_iff hne, StartsWithGroup, isGroup_iff hne]

/-- **A text starts with one group at most.** -/
theorem StartsWithGroup.unique (hne : opener ≠ closer) {t inner tail inner' tail' : Text}
    (h : StartsWithGroup opener closer t inner tail)
    (h' : StartsWithGroup opener closer t inner' tail') : inner' = inner ∧ tail' = tail := by
  rw [← group?_eq_some_iff_startsWithGroup hne] at h h'
  rw [h] at h'
  obtain ⟨hinner, htail⟩ := Prod.mk.inj (Option.some.inj h')
  exact ⟨hinner.symm, htail.symm⟩

/-! ### The counter -/

/-- **Where the reader of a group comes**: with `depth` on its counter it has `rest` before it. It
starts in front of an opening character and ends behind the closing character that brings the
counter to zero. The counter is an integer, so nothing here keeps it from falling below zero. -/
inductive Visits (opener closer : Char) (t : Text) : Int → Text → Prop where
  | start (h : t.head? = some opener) : Visits opener closer t 0 t
  | opens {depth : Int} {r : Text} (v : Visits opener closer t depth (opener :: r)) :
    Visits opener closer t (depth + 1) r
  | closes {depth : Int} {r : Text} (v : Visits opener closer t depth (closer :: r))
    (hmore : depth - 1 ≠ 0) : Visits opener closer t (depth - 1) r
  | passes {depth : Int} {c : Char} {r : Text} (v : Visits opener closer t depth (c :: r))
    (hopener : c ≠ opener) (hcloser : c ≠ closer) : Visits opener closer t depth r

/-- Openings less closings. -/
def excess (opener closer : Char) (t : Text) : Int := (t.count opener : Int) - t.count closer

theorem excess_append (a b : Text) :
    excess opener closer (a ++ b) = excess opener closer a + excess opener closer b := by
  unfold excess
  rw [List.count_append, List.count_append]
  omega

theorem excess_opener (hne : opener ≠ closer) : excess opener closer [opener] = 1 := by
  unfold excess
  rw [List.count_singleton_self, List.count_cons_of_ne hne]
  rfl

theorem excess_closer (hne : opener ≠ closer) : excess opener closer [closer] = -1 := by
  unfold excess
  rw [List.count_singleton_self, List.count_cons_of_ne hne.symm]
  rfl

theorem excess_other {c : Char} (hopener : c ≠ opener) (hcloser : c ≠ closer) :
    excess opener closer [c] = 0 := by
  unfold excess
  rw [List.count_cons_of_ne hopener, List.count_cons_of_ne hcloser]
  rfl

/-- **What the counter says** of the part of the text that has been read. -/
structure Tallied (opener closer : Char) (read : Text) (depth : Int) : Prop where
  depth_eq : depth = excess opener closer read
  opened : ∀ p, p ≠ [] → p <+: read → 0 < excess opener closer p

/-- The counter is above zero from the first character on. -/
theorem Tallied.pos {read : Text} {depth : Int} (h : Tallied opener closer read depth)
    (hread : read ≠ []) : 0 < depth := by
  rw [h.depth_eq]
  exact h.opened read hread List.prefix_rfl

theorem tallied_nil : Tallied opener closer [] 0 where
  depth_eq := rfl
  opened := fun _ hp hpre => absurd (List.prefix_nil.mp hpre) hp

/-- **One character more**: the counter says as much afterwards if it is above zero. -/
theorem Tallied.concat {read : Text} {depth after : Int} {c : Char}
    (h : Tallied opener closer read depth) (hafter : after = depth + excess opener closer [c])
    (hpos : 0 < after) : Tallied opener closer (read ++ [c]) after := by
  have heq : after = excess opener closer (read ++ [c]) := by
    rw [excess_append, ← h.depth_eq, hafter]
  refine ⟨heq, fun p hp hpre => ?_⟩
  rcases List.prefix_concat_iff.mp hpre with rfl | hpre
  · rw [← heq]
    exact hpos
  · exact h.opened p hp hpre

/-- **Wherever the reader comes**, its counter says what has been read. -/
theorem Visits.tallied (hne : opener ≠ closer) {t rest : Text} {depth : Int}
    (v : Visits opener closer t depth rest) :
    t.head? = some opener ∧ ∃ read, t = read ++ rest ∧ Tallied opener closer read depth := by
  -- before the first character is read, it is an opening one
  have hfirst {read r : Text} {c : Char} (hhead : t.head? = some opener) (ht : t = read ++ c :: r)
      (hc : c ≠ opener) : read ≠ [] := by
    rintro rfl
    rw [ht] at hhead
    exact hc (Option.some.inj hhead)
  induction v with
  | start h => exact ⟨h, [], rfl, tallied_nil⟩
  | @opens depth r v ih =>
    obtain ⟨hhead, read, ht, htallied⟩ := ih
    have hpos : 0 < depth + 1 := by
      by_cases hread : read = []
      · have hdepth := htallied.depth_eq
        rw [hread] at hdepth
        have hzero : depth = 0 := hdepth
        omega
      · have hdepth := htallied.pos hread
        omega
    refine ⟨hhead, read ++ [opener], by rw [ht, List.append_cons], htallied.concat ?_ hpos⟩
    rw [excess_opener hne]
  | @closes depth r v hmore ih =>
    obtain ⟨hhead, read, ht, htallied⟩ := ih
    have hdepth := htallied.pos (hfirst hhead ht hne.symm)
    have hpos : 0 < depth - 1 := by omega
    refine ⟨hhead, read ++ [closer], by rw [ht, List.append_cons], htallied.concat ?_ hpos⟩
    rw [excess_closer hne]
    omega
  | @passes depth c r v hopener hcloser ih =>
    obtain ⟨hhead, read, ht, htallied⟩ := ih
    have hpos := htallied.pos (hfirst hhead ht hopener)
    refine ⟨hhead, read ++ [c], by rw [ht, List.append_cons], htallied.concat ?_ hpos⟩
    rw [excess_other hopener hcloser, Int.add_zero]

/-- **The counter never falls below zero**, and where a closing character is to be counted it is
above. -/
theorem Visits.nonneg (hne : opener ≠ closer) {t rest : Text} {depth : Int}
    (v : Visits opener closer t depth rest) :
    0 ≤ depth ∧ ∀ r, rest = closer :: r → 0 < depth := by
  obtain ⟨hhead, read, rfl, htallied⟩ := v.tallied hne
  by_cases hread : read = []
  · subst hread
    have hzero : depth = 0 := htallied.depth_eq
    refine ⟨by omega, ?_⟩
    rintro r rfl
    exact absurd (Option.some.inj hhead).symm hne
  · have hpos := htallied.pos hread
    exact ⟨by omega, fun _ _ => hpos⟩

/-- The reader comes to every place behind beginnings that open more than they close. -/
theorem visits_of_opened (hne : opener ≠ closer) {read rest : Text}
    (hhead : (read ++ rest).head? = some opener)
    (h : ∀ p, p ≠ [] → p <+: read → 0 < excess opener closer p) :
    Visits opener closer (read ++ rest) (excess opener closer read) rest := by
  induction read using List.reverseRecOn generalizing rest with
  | nil => exact Visits.start hhead
  | append_singleton read c ih =>
    rw [List.append_assoc, List.singleton_append] at hhead ⊢
    have v := ih hhead fun p hp hpre => h p hp (hpre.trans (List.prefix_append read [c]))
    have hpos := h (read ++ [c]) (by simp) List.prefix_rfl
    rw [excess_append] at hpos ⊢
    by_cases hopener : c = opener
    · subst hopener
      rw [excess_opener hne]
      exact v.opens
    · by_cases hcloser : c = closer
      · subst hcloser
        rw [excess_closer hne] at hpos ⊢
        exact v.closes (by omega)
      · rw [excess_other hopener hcloser, Int.add_zero]
        exact v.passes hopener hcloser

/-- **The group ends** where the counter stands at one in front of a closing character. -/
theorem startsWithGroup_iff_visits (hne : opener ≠ closer) {t inner tail : Text} :
    StartsWithGroup opener closer t inner tail ↔
      t = opener :: inner ++ closer :: tail ∧ Visits opener closer t 1 (closer :: tail) := by
  have hexcess : excess opener closer (opener :: inner ++ [closer]) =
      excess opener closer (opener :: inner) - 1 := by
    rw [excess_append, excess_closer hne]
    omega
  rw [StartsWithGroup]
  refine and_congr_right fun ht => ?_
  constructor
  · intro h
    have hone : excess opener closer (opener :: inner) = 1 := by
      have hcount := h.closed
      unfold excess at hexcess ⊢
      omega
    have hopened (p : Text) (hp : p ≠ []) (hpre : p <+: opener :: inner) :
        0 < excess opener closer p := by
      have hcount := h.opened p hp hpre
      unfold excess
      omega
    have v : Visits opener closer ((opener :: inner) ++ closer :: tail)
        (excess opener closer (opener :: inner)) (closer :: tail) :=
      visits_of_opened hne rfl hopened
    rwa [hone, ← ht] at v
  · intro v
    obtain ⟨-, read, hread, htallied⟩ := v.tallied hne
    have hinner : read = opener :: inner := List.append_cancel_right (hread.symm.trans ht)
    subst hinner
    refine ⟨fun p hp hpre => ?_, ?_⟩
    · have hpos := htallied.opened p hp hpre
      unfold excess at hpos
      omega
    · have hone := htallied.depth_eq
      unfold excess at hexcess hone
      omega

/-! ### Reading at a cursor -/

/-- **A place in a text**: what has been read and what has not. -/
structure Cursor where
  read : Text
  rest : Text
deriving DecidableEq

namespace Cursor

/-- Reads a group at the cursor: its inside, and where the cursor stands afterwards. -/
def takeGroup (opener closer : Char) (c : Cursor) : Option Text × Cursor :=
  match group? opener closer c.rest with
  | some (inner, tail) => (some inner, ⟨c.read ++ (opener :: inner ++ [closer]), tail⟩)
  | none => (none, c)

theorem takeGroup_of_group (hne : opener ≠ closer) {c : Cursor} {inner tail : Text}
    (h : StartsWithGroup opener closer c.rest inner tail) :
    c.takeGroup opener closer =
      (some inner, ⟨c.read ++ (opener :: inner ++ [closer]), tail⟩) := by
  rw [takeGroup, (group?_eq_some_iff_startsWithGroup hne).mpr h]

theorem takeGroup_of_no_group (hne : opener ≠ closer) {c : Cursor}
    (h : ∀ inner tail, ¬ StartsWithGroup opener closer c.rest inner tail) :
    c.takeGroup opener closer = (none, c) := by
  have hnone : group? opener closer c.rest = none := by
    refine Option.eq_none_iff_forall_ne_some.mpr fun (inner, tail) hsome => ?_
    exact h inner tail ((group?_eq_some_iff_startsWithGroup hne).mp hsome)
  rw [takeGroup, hnone]

/-- What is read is the inside of the group that starts at the cursor. -/
theorem fst_takeGroup_eq_some_iff (hne : opener ≠ closer) {c : Cursor} {inner : Text} :
    (c.takeGroup opener closer).1 = some inner ↔
      ∃ tail, StartsWithGroup opener closer c.rest inner tail := by
  constructor
  · intro h
    rw [takeGroup] at h
    split at h
    · rename_i inner' tail hgroup
      rw [Option.some.inj h] at hgroup
      exact ⟨tail, (group?_eq_some_iff_startsWithGroup hne).mp hgroup⟩
    · cases h
  · rintro ⟨tail, hgroup⟩
    rw [takeGroup_of_group hne hgroup]

/-- **Groups are found exactly.** What is read at a cursor is the inside of the one group that
starts there, and the cursor stands behind it; where none starts nothing is read and the cursor
stays. The counter of the reader is never below zero, and the group ends where it is brought back to
zero. -/
theorem takeGroup_exact (hne : opener ≠ closer) (c : Cursor) :
    (∀ inner, (c.takeGroup opener closer).1 = some inner ↔
      ∃ tail, StartsWithGroup opener closer c.rest inner tail) ∧
    (∀ inner tail, StartsWithGroup opener closer c.rest inner tail →
      (c.takeGroup opener closer).2 = ⟨c.read ++ (opener :: inner ++ [closer]), tail⟩ ∧
      ∀ inner' tail', StartsWithGroup opener closer c.rest inner' tail' →
        inner' = inner ∧ tail' = tail) ∧
    ((∀ inner tail, ¬ StartsWithGroup opener closer c.rest inner tail) →
      c.takeGroup opener closer = (none, c)) ∧
    (∀ depth rest, Visits opener closer c.rest depth rest →
      0 ≤ depth ∧ ∀ r, rest = closer :: r → 0 < depth) ∧
    ∀ inner tail, StartsWithGroup opener closer c.rest inner tail ↔
      c.rest = opener :: inner ++ closer :: tail ∧
        Visits opener closer c.rest 1 (closer :: tail) := by
  refine ⟨fun _ => fst_takeGroup_eq_some_iff hne, fun inner tail h => ⟨?_, ?_⟩,
    takeGroup_of_no_group hne, fun _ _ v => v.nonneg hne, fun _ _ => startsWithGroup_iff_visits hne⟩
  · rw [takeGroup_of_group hne h]
  · exact fun _ _ h' => h.unique hne h'

theorem takeGroup_exact_nested : '(' ≠ ')' ∧
    IsGroup '(' ')' "void (^)(int)".toList ∧
    takeGroup '(' ')' ⟨"id ".toList, "(void (^)(int))rest".toList⟩ =
      (some "void (^)(int)".toList, ⟨"id (void (^)(int))".toList, "rest".toList⟩) ∧
    takeGroup '(' ')' ⟨"id ".toList, "(never (closes)".toList⟩ =
      (none, ⟨"id ".toList, "(never (closes)".toList⟩) := by
  have hread := (takeGroup_exact (by decide : '(' ≠ ')')
    ⟨"id ".toList, "(void (^)(int))rest".toList⟩).1 "void (^)(int)".toList
  obtain ⟨tail, -, hgroup⟩ := hread.mp (by decide)
  exact ⟨by decide, hgroup, by decide, by decide⟩

end Cursor

end CommonHeaders.Text
