import CommonHeaders.Text.Blank

/-! # Tables

A table keeps one value per name, with the names in increasing order by code point. The order is
part of the type, so a table is determined by its look-ups (`Table.ext`) and two tables built in
different orders from the same entries are equal.

* `get?_insert`, `get?_erase`, `get?_map`, `get?_union`: each operation through the look-up.
* `mem_keys_iff`: the names of a table are those that a look-up finds.
* `ext`: tables with equal look-ups are equal.
* `exists_split_of_get?`: an entry of a table stands between those of smaller and of greater names.
* `Alike.keys_eq`: tables that hold related values under the same names have one list of names. -/

namespace CommonHeaders

/-! ### Sorted entries -/

namespace Entries

variable {α β : Type}

/-- The names increase strictly. -/
def Sorted (entries : List (Text × α)) : Prop := entries.Pairwise fun a b => a.1 < b.1

/-- The value stored under a name. -/
def get? (key : Text) : List (Text × α) → Option α
  | [] => none
  | (k, v) :: rest => if k = key then some v else get? key rest

/-- Puts a value under a name, in place of the one that stands there. -/
def insert (key : Text) (value : α) : List (Text × α) → List (Text × α)
  | [] => [(key, value)]
  | (k, v) :: rest =>
    if key < k then (key, value) :: (k, v) :: rest
    else if k = key then (key, value) :: rest
    else (k, v) :: insert key value rest

theorem lt_of_not_lt {a b : Text} (h : ¬ a < b) (hne : b ≠ a) : b < a := by
  rcases Std.Trichotomous.rel_or_eq_or_rel_swap
      (r := ((· < ·) : Text → Text → Prop)) (a := a) (b := b)
    with h' | h' | h'
  · exact absurd h' h
  · exact absurd h'.symm hne
  · exact h'

theorem mem_insert {key : Text} {value : α} {l : List (Text × α)} {e : Text × α}
    (h : e ∈ insert key value l) : e = (key, value) ∨ e ∈ l := by
  induction l with
  | nil => exact Or.inl (by simpa [insert] using h)
  | cons x rest ih =>
    simp only [insert] at h
    split at h
    · rcases List.mem_cons.mp h with h | h
      · exact Or.inl h
      · exact Or.inr h
    · split at h
      · rcases List.mem_cons.mp h with h | h
        · exact Or.inl h
        · exact Or.inr (List.mem_cons_of_mem _ h)
      · rcases List.mem_cons.mp h with h | h
        · exact Or.inr (h ▸ List.mem_cons_self)
        · rcases ih h with h | h
          · exact Or.inl h
          · exact Or.inr (List.mem_cons_of_mem _ h)

theorem sorted_insert {key : Text} {value : α} {l : List (Text × α)} (h : Sorted l) :
    Sorted (insert key value l) := by
  induction l with
  | nil => exact List.pairwise_singleton _ _
  | cons x rest ih =>
    obtain ⟨h1, h2⟩ := List.pairwise_cons.mp h
    simp only [insert]
    split
    · rename_i hk
      refine List.pairwise_cons.mpr ⟨fun e he => ?_, h⟩
      rcases List.mem_cons.mp he with he | he
      · exact he ▸ hk
      · exact List.lt_trans hk (h1 e he)
    · split
      · rename_i hk he
        exact List.pairwise_cons.mpr ⟨fun e he' => he ▸ h1 e he', h2⟩
      · rename_i hk he
        refine List.pairwise_cons.mpr ⟨fun e he' => ?_, ih h2⟩
        rcases mem_insert he' with he' | he'
        · exact he' ▸ lt_of_not_lt hk he
        · exact h1 e he'

theorem get?_insert (key key' : Text) (value : α) (l : List (Text × α)) :
    get? key' (insert key value l) = if key = key' then some value else get? key' l := by
  induction l with
  | nil => simp [insert, get?]
  | cons x rest ih =>
    simp only [insert]
    split
    · simp [get?]
    · split
      · rename_i hk he
        simp only [get?, he]
        split <;> rfl
      · rename_i hk he
        simp only [get?, ih]
        split
        · rename_i h1
          split
          · rename_i h2
            exact absurd (h1.trans h2.symm) he
          · rfl
        · rfl

theorem get?_map (f : Text → α → β) (key : Text) (l : List (Text × α)) :
    get? key (l.map fun e => (e.1, f e.1 e.2)) = (get? key l).map (f key) := by
  induction l with
  | nil => rfl
  | cons e rest ih =>
    simp only [List.map_cons, get?]
    split
    · rename_i h
      rw [h]
      rfl
    · exact ih

theorem sorted_filterMap (f : Text → α → Option β) {l : List (Text × α)} (h : Sorted l) :
    Sorted (l.filterMap fun e => (f e.1 e.2).map fun v => (e.1, v)) := by
  refine List.Pairwise.filterMap _ (fun a b hab a' ha' b' hb' => ?_) h
  simp only [Option.map_eq_some_iff] at ha' hb'
  obtain ⟨_, _, rfl⟩ := ha'
  obtain ⟨_, _, rfl⟩ := hb'
  exact hab

theorem mem_of_get? {key : Text} {value : α} {l : List (Text × α)}
    (h : get? key l = some value) : (key, value) ∈ l := by
  induction l with
  | nil => simp [get?] at h
  | cons x rest ih =>
    simp only [get?] at h
    split at h
    · rename_i hk
      simp only [Option.some.injEq] at h
      exact hk ▸ h ▸ List.mem_cons_self
    · exact List.mem_cons_of_mem _ (ih h)

theorem get?_eq_none_of_forall_ne {key : Text} {l : List (Text × α)}
    (h : ∀ e ∈ l, e.1 ≠ key) : get? key l = none := by
  induction l with
  | nil => rfl
  | cons x rest ih =>
    simp only [get?]
    rw [if_neg (h x List.mem_cons_self)]
    exact ih fun e he => h e (List.mem_cons_of_mem _ he)

theorem get?_of_mem {key : Text} {value : α} {l : List (Text × α)} (hl : Sorted l)
    (h : (key, value) ∈ l) : get? key l = some value := by
  induction l with
  | nil => simp at h
  | cons x rest ih =>
    obtain ⟨h1, h2⟩ := List.pairwise_cons.mp hl
    rcases List.mem_cons.mp h with h | h
    · simp [get?, ← h]
    · have hne : x.1 ≠ key := fun he => List.lt_irrefl _ (he ▸ h1 _ h)
      simp only [get?]
      rw [if_neg hne]
      exact ih h2 h

/-- The first entry of sorted entries is the only one under its name. -/
theorem get?_tail_head {x : Text × α} {l : List (Text × α)} (h : Sorted (x :: l)) :
    get? x.1 l = none :=
  get?_eq_none_of_forall_ne fun e he heq =>
    List.lt_irrefl _ (heq ▸ (List.pairwise_cons.mp h).1 e he)

theorem eq_of_get?_eq {l l' : List (Text × α)} (hl : Sorted l) (hl' : Sorted l')
    (h : ∀ key, get? key l = get? key l') : l = l' := by
  induction l generalizing l' with
  | nil =>
    cases l' with
    | nil => rfl
    | cons y rest' =>
      have := h y.1
      simp [get?] at this
  | cons x rest ih =>
    cases l' with
    | nil =>
      have := h x.1
      simp [get?] at this
    | cons y rest' =>
      have hx := h x.1
      have hy := h y.1
      have hkey : x.1 = y.1 := by
        apply Classical.byContradiction
        intro hne
        simp only [get?, if_pos] at hx hy
        rw [if_neg (Ne.symm hne)] at hx
        rw [if_neg hne] at hy
        have h1 := (List.pairwise_cons.mp hl').1 _ (mem_of_get? hx.symm)
        have h2 := (List.pairwise_cons.mp hl).1 _ (mem_of_get? hy)
        exact List.lt_irrefl _ (List.lt_trans h1 h2)
      have hval : x.2 = y.2 := by simpa [get?, hkey] using hx
      have hxy : x = y := Prod.ext hkey hval
      subst hxy
      refine congrArg _
        (ih (List.pairwise_cons.mp hl).2 (List.pairwise_cons.mp hl').2 fun key => ?_)
      by_cases hk : x.1 = key
      · rw [← hk, get?_tail_head hl, get?_tail_head hl']
      · simpa [get?, hk] using h key

end Entries

/-! ### The type -/

/-- **A table**: values under distinct names, the names in increasing order. -/
structure Table (α : Type) where
  entries : List (Text × α)
  sorted : Entries.Sorted entries

namespace Table

variable {α β : Type}

instance [DecidableEq α] : DecidableEq (Table α) := fun a b =>
  if h : a.entries = b.entries then isTrue (by cases a; cases b; simp_all)
  else isFalse fun he => h (he ▸ rfl)

/-- The table without entries. -/
def empty : Table α := ⟨[], List.Pairwise.nil⟩

instance : Inhabited (Table α) := ⟨empty⟩

/-- The value stored under a name. -/
def get? (t : Table α) (key : Text) : Option α := Entries.get? key t.entries

/-- Is something stored under the name? -/
def contains (t : Table α) (key : Text) : Bool := (t.get? key).isSome

/-- The names, in increasing order. -/
def keys (t : Table α) : List Text := t.entries.map Prod.fst

/-- The number of entries. -/
def size (t : Table α) : Nat := t.entries.length

/-- The table with `value` under `key`, in place of what stood there. -/
def insert (t : Table α) (key : Text) (value : α) : Table α :=
  ⟨Entries.insert key value t.entries, Entries.sorted_insert t.sorted⟩

/-- The table without the entries whose name and value fail the test. -/
def filter (keep : Text → α → Bool) (t : Table α) : Table α :=
  ⟨t.entries.filter fun e => keep e.1 e.2, t.sorted.filter _⟩

/-- The table without the entry under `key`. -/
def erase (t : Table α) (key : Text) : Table α := t.filter fun k _ => k ≠ key

/-- Every value replaced by its image, which may depend on the name. -/
def mapEntries (f : Text → α → β) (t : Table α) : Table β :=
  ⟨t.entries.map fun e => (e.1, f e.1 e.2), List.pairwise_map.mpr (by exact t.sorted)⟩

/-- Every value replaced by its image. -/
def map (f : α → β) (t : Table α) : Table β := t.mapEntries fun _ => f

/-- Every value replaced by its image, the entries without one left out. -/
def filterMap (f : Text → α → Option β) (t : Table α) : Table β :=
  ⟨t.entries.filterMap fun e => (f e.1 e.2).map fun v => (e.1, v),
    Entries.sorted_filterMap f t.sorted⟩

/-- The table with the value under `key` changed, if there is one. -/
def modify (t : Table α) (key : Text) (f : α → α) : Table α :=
  match t.get? key with
  | some value => t.insert key (f value)
  | none => t

/-- The table with all the entries of a list put in, in order. -/
def insertAll (t : Table α) (l : List (Text × α)) : Table α :=
  l.foldl (fun t e => t.insert e.1 e.2) t

/-- The table of a list of entries; of two under one name the later one counts. -/
def ofList (l : List (Text × α)) : Table α := empty.insertAll l

/-- The entries of both tables; under a common name the first table counts. -/
def union (t u : Table α) : Table α := u.insertAll t.entries

/-- Two tables with the same names, and related values under each of them. -/
def Alike (R : α → β → Prop) (t : Table α) (u : Table β) : Prop :=
  ∀ key, Option.Rel R (t.get? key) (u.get? key)

/-- What two tables hold under one name is related. -/
def Compatible (R : α → β → Prop) (t : Table α) (u : Table β) : Prop :=
  ∀ key a b, t.get? key = some a → u.get? key = some b → R a b

/-! ### Look-ups -/

@[ext] theorem ext {t u : Table α} (h : ∀ key, t.get? key = u.get? key) : t = u := by
  have := Entries.eq_of_get?_eq t.sorted u.sorted h
  cases t; cases u; simp_all

@[simp] theorem get?_empty (key : Text) : (empty : Table α).get? key = none := rfl

theorem get?_insert (t : Table α) (key key' : Text) (value : α) :
    (t.insert key value).get? key' = if key = key' then some value else t.get? key' :=
  Entries.get?_insert key key' value t.entries

@[simp] theorem get?_insert_self (t : Table α) (key : Text) (value : α) :
    (t.insert key value).get? key = some value := by simp [get?_insert]

theorem get?_eq_some_iff {t : Table α} {key : Text} {value : α} :
    t.get? key = some value ↔ (key, value) ∈ t.entries :=
  ⟨Entries.mem_of_get?, Entries.get?_of_mem t.sorted⟩

instance {R : α → β → Prop} {t : Table α} {u : Table β} [∀ a b, Decidable (R a b)] :
    Decidable (t.Compatible R u) :=
  decidable_of_iff (∀ e ∈ t.entries, ∀ e' ∈ u.entries, e.1 = e'.1 → R e.2 e'.2)
    ⟨fun h _ _ _ ha hb => h _ (get?_eq_some_iff.mp ha) _ (get?_eq_some_iff.mp hb) rfl,
      fun h e he e' he' hkey =>
        h e.1 e.2 e'.2 (get?_eq_some_iff.mpr he) (hkey ▸ get?_eq_some_iff.mpr he')⟩

/-- What stands before an entry of a table are the entries of smaller names. -/
theorem mem_before_iff {t : Table α} {before after : List (Text × α)} {name : Text} {a : α}
    (hsplit : t.entries = before ++ (name, a) :: after) (n : Text) (b : α) :
    (n, b) ∈ before ↔ t.get? n = some b ∧ n < name := by
  have hsorted : (before ++ (name, a) :: after).Pairwise fun a b => a.1 < b.1 := hsplit ▸ t.sorted
  obtain ⟨-, hafter, hcross⟩ := List.pairwise_append.mp hsorted
  refine ⟨fun hb => ?_, fun ⟨hb, hlt⟩ => ?_⟩
  · have hmem : (n, b) ∈ t.entries := hsplit ▸ List.mem_append_left _ hb
    exact ⟨get?_eq_some_iff.mpr hmem, hcross _ hb _ List.mem_cons_self⟩
  · have hmem := get?_eq_some_iff.mp hb
    rw [hsplit, List.mem_append, List.mem_cons] at hmem
    rcases hmem with hmem | heq | hmem
    · exact hmem
    · have hname : n = name := congrArg Prod.fst heq
      exact absurd (hname ▸ hlt) (List.lt_irrefl _)
    · have hlater : name < n := (List.pairwise_cons.mp hafter).1 _ hmem
      exact absurd (List.lt_trans hlt hlater) (List.lt_irrefl _)

/-- The entries of a table before and after one of them. -/
theorem exists_split_of_get? {t : Table α} {name : Text} {a : α}
    (h : t.get? name = some a) :
    ∃ before after, t.entries = before ++ (name, a) :: after ∧
      (∀ n b, (n, b) ∈ before ↔ t.get? n = some b ∧ n < name) ∧ ∀ e ∈ after, e.1 ≠ name := by
  obtain ⟨before, after, hsplit⟩ := List.append_of_mem (get?_eq_some_iff.mp h)
  have hsorted : (before ++ (name, a) :: after).Pairwise fun a b => a.1 < b.1 := hsplit ▸ t.sorted
  have hlater : ∀ e ∈ after, name < e.1 :=
    (List.pairwise_cons.mp (List.pairwise_append.mp hsorted).2.1).1
  refine ⟨before, after, hsplit, mem_before_iff hsplit, fun e he hne => ?_⟩
  exact absurd (hne ▸ hlater e he) (List.lt_irrefl _)

theorem get?_filter (keep : Text → α → Bool) (t : Table α) (key : Text) :
    (t.filter keep).get? key = (t.get? key).filter (keep key) := by
  apply Option.ext
  intro value
  rw [get?_eq_some_iff, Option.filter_eq_some_iff, get?_eq_some_iff]
  simp [filter]

theorem get?_erase (t : Table α) (key key' : Text) :
    (t.erase key).get? key' = if key' = key then none else t.get? key' := by
  rw [erase, get?_filter]
  split
  · rename_i h
    cases t.get? key' <;> simp [Option.filter, h]
  · rename_i h
    cases t.get? key' <;> simp [Option.filter, h]

theorem get?_mapEntries (f : Text → α → β) (t : Table α) (key : Text) :
    (t.mapEntries f).get? key = (t.get? key).map (f key) := Entries.get?_map f key t.entries

theorem get?_map (f : α → β) (t : Table α) (key : Text) :
    (t.map f).get? key = (t.get? key).map f := get?_mapEntries (fun _ => f) t key

theorem get?_filterMap (f : Text → α → Option β) (t : Table α) (key : Text) :
    (t.filterMap f).get? key = (t.get? key).bind (f key) := by
  apply Option.ext
  intro value
  rw [get?_eq_some_iff, Option.bind_eq_some_iff]
  simp only [filterMap, List.mem_filterMap, Option.map_eq_some_iff, Prod.mk.injEq, Prod.exists]
  constructor
  · rintro ⟨k, v, hm, w, hf, rfl, rfl⟩
    exact ⟨v, get?_eq_some_iff.mpr hm, hf⟩
  · rintro ⟨v, hg, hf⟩
    exact ⟨key, v, get?_eq_some_iff.mp hg, value, hf, rfl, rfl⟩

theorem get?_modify (t : Table α) (key key' : Text) (f : α → α) :
    (t.modify key f).get? key' = if key = key' then (t.get? key').map f else t.get? key' := by
  unfold modify
  split
  · rename_i value h
    rw [get?_insert]
    split
    · rename_i hk
      rw [← hk, h]
      rfl
    · rfl
  · rename_i h
    split
    · rename_i hk
      rw [← hk, h]
      rfl
    · rfl

theorem get?_insertAll {t : Table α} {l : List (Text × α)} (hl : Entries.Sorted l) (key : Text) :
    (t.insertAll l).get? key = (Entries.get? key l).or (t.get? key) := by
  induction l generalizing t with
  | nil => rfl
  | cons e rest ih =>
    have h := ih (t := t.insert e.1 e.2) (List.pairwise_cons.mp hl).2
    simp only [insertAll, List.foldl_cons, Entries.get?] at h ⊢
    rw [h, get?_insert]
    split
    · rename_i hk
      rw [← hk, Entries.get?_tail_head hl]
      rfl
    · rfl

/-- The union holds what the first table holds, and beside it what only the second holds. -/
theorem get?_union (t u : Table α) (key : Text) :
    (t.union u).get? key = (t.get? key).or (u.get? key) := get?_insertAll t.sorted key

theorem mem_keys_iff {t : Table α} {key : Text} :
    key ∈ t.keys ↔ ∃ value, t.get? key = some value := by
  simp only [keys, List.mem_map, Prod.exists, exists_and_right, exists_eq_right, get?_eq_some_iff]

theorem contains_iff {t : Table α} {key : Text} : t.contains key = true ↔ key ∈ t.keys := by
  rw [mem_keys_iff, contains, Option.isSome_iff_exists]

theorem mem_keys_of_get? {t : Table α} {key : Text} {value : α} (h : t.get? key = some value) :
    key ∈ t.keys := mem_keys_iff.mpr ⟨value, h⟩

theorem mem_keys_insert {t : Table α} {key key' : Text} {value : α} :
    key' ∈ (t.insert key value).keys ↔ key' = key ∨ key' ∈ t.keys := by
  simp only [mem_keys_iff, get?_insert]
  by_cases h : key = key'
  · simp [h]
  · simp [h, Ne.symm h]

theorem mem_keys_modify {t : Table α} {key key' : Text} {f : α → α} :
    key' ∈ (t.modify key f).keys ↔ key' ∈ t.keys := by
  simp only [mem_keys_iff, ← Option.isSome_iff_exists, get?_modify]
  split
  · rw [Option.isSome_map]
  · rfl

theorem keys_map (f : α → β) (t : Table α) : (t.map f).keys = t.keys := by
  simp [keys, map, mapEntries, Function.comp_def]

theorem map_map {γ : Type} (g : β → γ) (f : α → β) (t : Table α) :
    (t.map f).map g = t.map (g ∘ f) := by
  ext1 key
  rw [get?_map, get?_map, get?_map, Option.map_map]

/-- If every entry has an image that tells it, the images tell the whole table. -/
theorem map_filterMap_eq {t : Table α} {f : Text → α → Option β} {g : β → α}
    (h : ∀ key a, t.get? key = some a → ∃ b, f key a = some b ∧ g b = a) :
    (t.filterMap f).map g = t := by
  ext1 key
  rw [get?_map, get?_filterMap]
  cases ha : t.get? key with
  | none => rfl
  | some a =>
    obtain ⟨b, hb, rfl⟩ := h key a ha
    rw [Option.bind_some, hb, Option.map_some]

/-- Tables with the same names have them in the same order. -/
theorem keys_eq_of_mem_iff {t : Table α} {u : Table β}
    (h : ∀ key, key ∈ t.keys ↔ key ∈ u.keys) : t.keys = u.keys := by
  have hnames : t.map (fun _ => ()) = u.map (fun _ => ()) := by
    ext1 key
    have hkey := h key
    rw [← contains_iff, ← contains_iff, contains, contains] at hkey
    rw [get?_map, get?_map]
    cases ht : t.get? key <;> cases hu : u.get? key <;> simp [ht, hu] at hkey ⊢
  rw [← keys_map (fun _ => ()) t, hnames, keys_map]

theorem isSome_eq_of_rel {R : α → β → Prop} {a : Option α} {b : Option β} (h : Option.Rel R a b) :
    a.isSome = b.isSome := by cases h <;> rfl

/-- Alike tables have the same names. -/
theorem Alike.keys_eq {R : α → β → Prop} {t : Table α} {u : Table β} (h : t.Alike R u) :
    t.keys = u.keys := by
  refine keys_eq_of_mem_iff fun key => ?_
  rw [← contains_iff, ← contains_iff, contains, contains, isSome_eq_of_rel (h key)]

/-- Tables are alike if what the one holds has a counterpart in the other, which holds nothing
else. -/
theorem alike_of_exists {R : α → β → Prop} {t : Table α} {u : Table β}
    (h : ∀ key a, t.get? key = some a → ∃ b, u.get? key = some b ∧ R a b)
    (hback : ∀ key b, u.get? key = some b → ∃ a, t.get? key = some a) : t.Alike R u := by
  intro key
  cases ht : t.get? key with
  | some a =>
    obtain ⟨b, hb, hab⟩ := h key a ht
    rw [hb]
    exact .some hab
  | none =>
    cases hu : u.get? key with
    | none => exact .none
    | some b =>
      obtain ⟨a, ha⟩ := hback key b hu
      rw [ht] at ha
      simp at ha

/-- A table is alike the table of images, if every value is related to its image. -/
theorem alike_map {R : α → β → Prop} {f : α → β} (h : ∀ a, R a (f a)) (t : Table α) :
    t.Alike R (t.map f) := by
  intro key
  rw [get?_map]
  cases t.get? key with
  | none => exact .none
  | some a => exact .some (h a)

theorem size_erase_lt {t : Table α} {key : Text} {value : α} (h : t.get? key = some value) :
    (t.erase key).size < t.size := by
  unfold size erase filter
  rw [List.length_filter_lt_length_iff_exists]
  exact ⟨_, get?_eq_some_iff.mp h, by simp⟩

end Table

end CommonHeaders
