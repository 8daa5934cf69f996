import CommonHeaders.Unification

/-! # Pairs of interfaces

Every pair is made of two declared names with one rest behind their platform tags, and stands under
that rest with the common tag. Renaming changes no name in the tables of a corpus, so both sides of
a pair are still found after it, and every pair gives a common interface.

* `get?_pairInterfaces`: of the mobile names with one common name the first one is paired.
* `rest_of_pair`: the names of a pair.
* `mem_keys_pairInterfaces_iff`: exactly which common names there are.
* `get?_pairInterfaces_of_desktopTag`: a desktop name on the mobile side is paired with itself.
* `get?_pairInterfaces_iff`: exactly which pairs there are.
* `name_eq_of_pairs`: no platform name is in two pairs.
* `classes_of_pair`, `protocols_of_pair`: both sides of a pair are found after renaming.
* `pairs_exact`: all this, and that the common model has exactly the interfaces of the pairs. -/

namespace CommonHeaders

open Naming

/-! ### The names of a pair -/

theorem get?_addPair (pairs : Table Pair) (p : Pair) (name : Text) :
    (addPair pairs p).get? name =
      (pairs.get? name).or (if toUnified p.mobile = name then some p else none) := by
  unfold addPair
  by_cases hname : toUnified p.mobile = name
  · subst hname
    rw [if_pos rfl]
    cases h : pairs.get? (toUnified p.mobile) with
    | none => simp [Table.contains, h]
    | some q => simp [Table.contains, h]
  · rw [if_neg hname, Option.or_none]
    split
    · rfl
    · rw [Table.get?_insert, if_neg hname]

/-- Of the pairs under one name the first one counts. -/
theorem get?_foldl_addPair (l : List Pair) (pairs : Table Pair) (name : Text) :
    (l.foldl addPair pairs).get? name =
      (pairs.get? name).or (l.find? fun p => decide (toUnified p.mobile = name)) := by
  induction l generalizing pairs with
  | nil => simp
  | cons p rest ih =>
    rw [List.foldl_cons, ih, get?_addPair, Option.or_assoc, List.find?_cons]
    by_cases hname : toUnified p.mobile = name <;> simp [hname]

/-- **The pair under a name** is the first one in the order of the mobile names. -/
theorem get?_pairInterfaces (mobile desktop : Table Interface) (name : Text) :
    (pairInterfaces mobile desktop).get? name =
      (mobile.keys.filterMap (pairOf? desktop)).find? fun p =>
        decide (toUnified p.mobile = name) := by
  rw [pairInterfaces, get?_foldl_addPair, Table.get?_empty, Option.none_or]

/-- A mobile name makes a pair if its rest has a desktop name. -/
theorem pairOf?_eq_some_iff {desktop : Table Interface} {m : Text} {p : Pair} :
    pairOf? desktop m = some p ↔ ∃ rest, platformRest? m = some rest ∧
      desktopTag ++ rest ∈ desktop.keys ∧ p = ⟨m, desktopTag ++ rest⟩ := by
  simp only [pairOf?, toDesktop?, Option.map_eq_some_iff, Option.filter_eq_some_iff,
    Table.contains_iff]
  constructor
  · rintro ⟨-, ⟨⟨rest, hrest, rfl⟩, hd⟩, rfl⟩
    exact ⟨rest, hrest, hd, rfl⟩
  · rintro ⟨rest, hrest, hd, rfl⟩
    exact ⟨desktopTag ++ rest, ⟨⟨rest, hrest, rfl⟩, hd⟩, rfl⟩

/-- **The names of a pair**: both sides are declared, with one rest behind a platform tag, and the
pair stands under that rest with the common tag. -/
theorem rest_of_pair {mobile desktop : Table Interface} {name : Text} {p : Pair}
    (h : (pairInterfaces mobile desktop).get? name = some p) :
    ∃ rest, startsUpper rest = true ∧ name = unifiedTag ++ rest ∧
      (p.mobile = mobileTag ++ rest ∨ p.mobile = desktopTag ++ rest) ∧
      p.desktop = desktopTag ++ rest ∧ p.mobile ∈ mobile.keys ∧ p.desktop ∈ desktop.keys := by
  rw [get?_pairInterfaces] at h
  have hn := List.find?_some h
  obtain ⟨m, hm, hpair⟩ := List.mem_filterMap.mp (List.mem_of_find?_eq_some h)
  obtain ⟨rest, hrest, hd, rfl⟩ := pairOf?_eq_some_iff.mp hpair
  have hspelled := platformRest?_eq_some_iff.mp hrest
  refine ⟨rest, hspelled.1, ?_, hspelled.2, rfl, hm, hd⟩
  rw [← of_decide_eq_true hn]
  exact toUnified_of_platformRest? hrest

theorem startsUpper_of_mem_keys_pairInterfaces {mobile desktop : Table Interface} {rest : Text}
    (h : unifiedTag ++ rest ∈ (pairInterfaces mobile desktop).keys) : startsUpper rest = true := by
  obtain ⟨p, hp⟩ := Table.mem_keys_iff.mp h
  obtain ⟨rest', hupper, hname, -⟩ := rest_of_pair hp
  rwa [List.append_cancel_left hname]

/-- **Every name that both platforms have makes a pair.** -/
theorem mem_keys_pairInterfaces {mobile desktop : Table Interface} {m rest : Text}
    (hm : m ∈ mobile.keys) (hrest : platformRest? m = some rest)
    (hd : desktopTag ++ rest ∈ desktop.keys) :
    unifiedTag ++ rest ∈ (pairInterfaces mobile desktop).keys := by
  have hpair : pairOf? desktop m = some ⟨m, desktopTag ++ rest⟩ :=
    pairOf?_eq_some_iff.mpr ⟨rest, hrest, hd, rfl⟩
  rw [Table.mem_keys_iff, ← Option.isSome_iff_exists, get?_pairInterfaces, List.find?_isSome]
  refine ⟨⟨m, desktopTag ++ rest⟩, List.mem_filterMap.mpr ⟨m, hm, hpair⟩, ?_⟩
  exact decide_eq_true (toUnified_of_platformRest? hrest)

/-- **The common names**: those of a rest with a desktop name on the desktop and either name on the
mobile side. -/
theorem mem_keys_pairInterfaces_iff {mobile desktop : Table Interface} {rest : Text}
    (hrest : startsUpper rest = true) :
    unifiedTag ++ rest ∈ (pairInterfaces mobile desktop).keys ↔
      (mobileTag ++ rest ∈ mobile.keys ∨ desktopTag ++ rest ∈ mobile.keys) ∧
        desktopTag ++ rest ∈ desktop.keys := by
  constructor
  · intro h
    obtain ⟨p, hp⟩ := Table.mem_keys_iff.mp h
    obtain ⟨rest', -, hname, hside, hdesktop, hm, hd⟩ := rest_of_pair hp
    obtain rfl : rest = rest' := List.append_cancel_left hname
    refine ⟨?_, hdesktop ▸ hd⟩
    rcases hside with hside | hside
    · exact Or.inl (hside ▸ hm)
    · exact Or.inr (hside ▸ hm)
  · rintro ⟨hm | hm, hd⟩
    · exact mem_keys_pairInterfaces hm (platformRest?_eq_some_iff.mpr ⟨hrest, Or.inl rfl⟩) hd
    · exact mem_keys_pairInterfaces hm (platformRest?_eq_some_iff.mpr ⟨hrest, Or.inr rfl⟩) hd

theorem not_mobileTag_lt_desktopTag (rest rest' : Text) :
    ¬ mobileTag ++ rest < desktopTag ++ rest' := by
  intro h
  rcases List.cons_lt_cons_iff.mp h with h | ⟨h, -⟩
  · exact absurd h (by decide)
  · exact absurd h (by decide)

/-- **The desktop spelling is paired** where the mobile side has it too: it comes before the mobile
spelling. -/
theorem get?_pairInterfaces_of_desktopTag {mobile desktop : Table Interface} {rest : Text}
    (hrest : startsUpper rest = true) (hm : desktopTag ++ rest ∈ mobile.keys)
    (hd : desktopTag ++ rest ∈ desktop.keys) :
    (pairInterfaces mobile desktop).get? (unifiedTag ++ rest) =
      some ⟨desktopTag ++ rest, desktopTag ++ rest⟩ := by
  have htagged : platformRest? (desktopTag ++ rest) = some rest :=
    platformRest?_eq_some_iff.mpr ⟨hrest, Or.inr rfl⟩
  have hpair : pairOf? desktop (desktopTag ++ rest) =
      some ⟨desktopTag ++ rest, desktopTag ++ rest⟩ :=
    pairOf?_eq_some_iff.mpr ⟨rest, htagged, hd, rfl⟩
  have hname : toUnified (desktopTag ++ rest) = unifiedTag ++ rest :=
    toUnified_of_platformRest? htagged
  obtain ⟨i, hi⟩ := Table.mem_keys_iff.mp hm
  obtain ⟨before, after, hsplit, hbefore, -⟩ := Table.exists_split_of_get? hi
  have hkeys : mobile.keys =
      before.map Prod.fst ++ (desktopTag ++ rest) :: after.map Prod.fst := by
    rw [Table.keys, hsplit, List.map_append, List.map_cons]
  -- no earlier name has the same rest: neither spelling of it comes before the desktop one
  have hearlier : ((before.map Prod.fst).filterMap (pairOf? desktop)).find?
      (fun p => decide (toUnified p.mobile = unifiedTag ++ rest)) = none := by
    rw [List.find?_eq_none]
    intro p hp hsame
    obtain ⟨m, hm, hpair⟩ := List.mem_filterMap.mp hp
    obtain ⟨⟨m, j⟩, hmem, rfl⟩ := List.mem_map.mp hm
    have hlt : m < desktopTag ++ rest := ((hbefore m j).mp hmem).2
    obtain ⟨rest', hrest', -, rfl⟩ := pairOf?_eq_some_iff.mp hpair
    rw [decide_eq_true_iff, toUnified_of_platformRest? hrest'] at hsame
    obtain rfl : rest' = rest := List.append_cancel_left hsame
    rcases (platformRest?_eq_some_iff.mp hrest').2 with rfl | rfl
    · exact not_mobileTag_lt_desktopTag rest' rest' hlt
    · exact List.lt_irrefl _ hlt
  rw [get?_pairInterfaces, hkeys, List.filterMap_append, List.filterMap_cons_some hpair,
    List.find?_append, hearlier, Option.none_or, List.find?_cons_of_pos (by simp [hname])]

/-- **Exactly the pairs.** A rest that starts with an uppercase letter makes one if the desktop
declares its desktop spelling and the mobile side either spelling. The mobile name of the pair is
the desktop spelling where that is declared, and else the mobile one. -/
theorem get?_pairInterfaces_iff {mobile desktop : Table Interface} {name : Text} {p : Pair} :
    (pairInterfaces mobile desktop).get? name = some p ↔
      ∃ rest, startsUpper rest = true ∧ name = unifiedTag ++ rest ∧
        desktopTag ++ rest ∈ desktop.keys ∧
        (desktopTag ++ rest ∈ mobile.keys ∨ mobileTag ++ rest ∈ mobile.keys) ∧
        p = ⟨if desktopTag ++ rest ∈ mobile.keys then desktopTag ++ rest else mobileTag ++ rest,
          desktopTag ++ rest⟩ := by
  constructor
  · intro hp
    obtain ⟨rest, hupper, rfl, hside, hdesktop, hm, hd⟩ := rest_of_pair hp
    rw [hdesktop] at hd
    refine ⟨rest, hupper, rfl, hd, ?_⟩
    by_cases hboth : desktopTag ++ rest ∈ mobile.keys
    · rw [get?_pairInterfaces_of_desktopTag hupper hboth hd, Option.some.injEq] at hp
      rw [if_pos hboth]
      exact ⟨Or.inl hboth, hp.symm⟩
    · have hmobile : p.mobile = mobileTag ++ rest :=
        hside.resolve_right fun hother => hboth (hother ▸ hm)
      rw [if_neg hboth, ← hmobile, ← hdesktop]
      exact ⟨Or.inr hm, rfl⟩
  · rintro ⟨rest, hupper, rfl, hd, hm, rfl⟩
    by_cases hboth : desktopTag ++ rest ∈ mobile.keys
    · rw [if_pos hboth]
      exact get?_pairInterfaces_of_desktopTag hupper hboth hd
    · have hkey := (mem_keys_pairInterfaces_iff hupper).mpr ⟨hm.symm, hd⟩
      obtain ⟨q, hq⟩ := Table.mem_keys_iff.mp hkey
      obtain ⟨rest', -, hname, hside, hdesktop, hm', -⟩ := rest_of_pair hq
      obtain rfl : rest = rest' := List.append_cancel_left hname
      have hmobile : q.mobile = mobileTag ++ rest :=
        hside.resolve_right fun hother => hboth (hother ▸ hm')
      rw [if_neg hboth, hq, ← hmobile, ← hdesktop]

/-- **No name is paired twice**: pairs that share a platform name stand under one common name. -/
theorem name_eq_of_pairs {mobile desktop : Table Interface} {name name' : Text} {p p' : Pair}
    (h : (pairInterfaces mobile desktop).get? name = some p)
    (h' : (pairInterfaces mobile desktop).get? name' = some p')
    (hshare : p.mobile = p'.mobile ∨ p.desktop = p'.desktop) : name = name' := by
  obtain ⟨rest, hupper, rfl, hside, hdesktop, -, -⟩ := rest_of_pair h
  obtain ⟨rest', hupper', rfl, hside', hdesktop', -, -⟩ := rest_of_pair h'
  rcases hshare with hmobile | hshared
  · -- a platform name has one rest, whichever of the two tags it carries
    have hrest : platformRest? p.mobile = some rest := platformRest?_eq_some_iff.mpr ⟨hupper, hside⟩
    have hrest' : platformRest? p'.mobile = some rest' :=
      platformRest?_eq_some_iff.mpr ⟨hupper', hside'⟩
    rw [hmobile, hrest', Option.some.injEq] at hrest
    rw [hrest]
  · rw [hdesktop, hdesktop'] at hshared
    rw [List.append_cancel_left hshared]

/-! ### Pairs after renaming -/

/-- The renaming by which the common model of two corpora is made. -/
def commonRenaming (settings : Settings) (mobile desktop : Corpus) : Renaming :=
  Renaming.ofNames (commonNames mobile desktop) settings

/-- **The mobile side**: the mobile corpus under the common names. -/
def mobileSide (settings : Settings) (mobile desktop : Corpus) : Corpus :=
  (commonRenaming settings mobile desktop).renameCorpus mobile

/-- **The desktop side**: the desktop corpus under the common names. -/
def desktopSide (settings : Settings) (mobile desktop : Corpus) : Corpus :=
  (commonRenaming settings mobile desktop).renameCorpus desktop

/-- Both sides of a pair are found in their tables after every interface has been changed. -/
theorem sides_of_pair {mobile desktop : Table Interface} (f : Interface → Interface) {name : Text}
    {p : Pair} (h : (pairInterfaces mobile desktop).get? name = some p) :
    ∃ m d, (mobile.map f).get? p.mobile = some m ∧ (desktop.map f).get? p.desktop = some d := by
  obtain ⟨-, -, -, -, -, hm, hd⟩ := rest_of_pair h
  obtain ⟨m, hm⟩ := Table.mem_keys_iff.mp hm
  obtain ⟨d, hd⟩ := Table.mem_keys_iff.mp hd
  exact ⟨f m, f d, by rw [Table.get?_map, hm]; rfl, by rw [Table.get?_map, hd]; rfl⟩

section Sides

variable (settings : Settings) {mobile desktop : Corpus} {name : Text} {p : Pair}

theorem classes_of_pair
    (h : (pairInterfaces mobile.classes desktop.classes).get? name = some p) :
    ∃ m d, (mobileSide settings mobile desktop).classes.get? p.mobile = some m ∧
      (desktopSide settings mobile desktop).classes.get? p.desktop = some d :=
  sides_of_pair _ h

theorem protocols_of_pair
    (h : (pairInterfaces mobile.protocols desktop.protocols).get? name = some p) :
    ∃ m d, (mobileSide settings mobile desktop).protocols.get? p.mobile = some m ∧
      (desktopSide settings mobile desktop).protocols.get? p.desktop = some d :=
  sides_of_pair _ h

end Sides

/-! ### Pairs of the model -/

/-- The platform names of a common interface. -/
def UnifiedInterface.pair (u : UnifiedInterface) : Pair := ⟨u.mobileName, u.desktopName⟩

section Model

variable (settings : Settings) (mobile desktop : Corpus)

/-- **The common classes come from the pairs of classes**, all of them and with their names, -/
theorem classes_map_pair : (unify settings mobile desktop).classes.map UnifiedInterface.pair =
    pairInterfaces mobile.classes desktop.classes := by
  refine Table.map_filterMap_eq fun name p hp => ?_
  obtain ⟨m, d, hm, hd⟩ := classes_of_pair settings hp
  simp only [mobileSide, desktopSide, commonRenaming] at hm hd
  simp only [unifyClass, hm, hd, Option.bind_eq_bind, Option.bind_some, Option.some.injEq,
    exists_eq_left']
  rfl

/-- and so do the common protocols from the pairs of protocols. -/
theorem protocols_map_pair : (unify settings mobile desktop).protocols.map UnifiedInterface.pair =
    pairInterfaces mobile.protocols desktop.protocols := by
  refine Table.map_filterMap_eq fun name p hp => ?_
  obtain ⟨m, d, hm, hd⟩ := protocols_of_pair settings hp
  simp only [mobileSide, desktopSide, commonRenaming] at hm hd
  simp only [unifyProtocol, hm, hd, Option.bind_eq_bind, Option.bind_some, Option.some.injEq,
    exists_eq_left']
  rfl

end Model

/-- **Pairs are exact, and none is lost.** Two tables have a pair under a name if and only if it is
that of a rest starting with an uppercase letter, whose desktop spelling the desktop table declares
and one of whose spellings the mobile table declares, the desktop one if it can. No name of either
side is in two pairs. The common model has classes and protocols under exactly the names of the
pairs, with the platform names of these. -/
theorem pairs_exact :
    (∀ (mobile desktop : Table Interface) (name : Text) (p : Pair),
      (pairInterfaces mobile desktop).get? name = some p ↔
        ∃ rest, startsUpper rest = true ∧ name = unifiedTag ++ rest ∧
          desktopTag ++ rest ∈ desktop.keys ∧
          (desktopTag ++ rest ∈ mobile.keys ∨ mobileTag ++ rest ∈ mobile.keys) ∧
          p = ⟨if desktopTag ++ rest ∈ mobile.keys then desktopTag ++ rest else mobileTag ++ rest,
            desktopTag ++ rest⟩) ∧
    (∀ (mobile desktop : Table Interface) (name name' : Text) (p p' : Pair),
      (pairInterfaces mobile desktop).get? name = some p →
      (pairInterfaces mobile desktop).get? name' = some p' →
      p.mobile = p'.mobile ∨ p.desktop = p'.desktop → name = name') ∧
    ∀ (settings : Settings) (mobile desktop : Corpus),
      (unify settings mobile desktop).classes.map UnifiedInterface.pair =
        pairInterfaces mobile.classes desktop.classes ∧
      (unify settings mobile desktop).protocols.map UnifiedInterface.pair =
        pairInterfaces mobile.protocols desktop.protocols :=
  ⟨fun _ _ _ _ => get?_pairInterfaces_iff, fun _ _ _ _ _ _ => name_eq_of_pairs,
    fun settings mobile desktop =>
      ⟨classes_map_pair settings mobile desktop, protocols_map_pair settings mobile desktop⟩⟩

/-- Mobile classes: both spellings of one rest, and a name in which a tag follows a tag. -/
def nestedMobile : Corpus :=
  Corpus.empty.scanText .default
    "@interface UIThing : A\n@interface NSThing : A\n@interface UINSThing : A".toList

/-- The desktop spelling of both rests. -/
def nestedDesktop : Corpus :=
  Corpus.empty.scanText .default "@interface NSThing : A\n@interface NSNSThing : A".toList

/-- The desktop spelling is paired with itself and nothing else with it; the other pair is that of
the longer rest. -/
theorem pairs_exact_nested :
    (pairInterfaces nestedMobile.classes nestedDesktop.classes).get? "MAIThing".toList =
      some ⟨"NSThing".toList, "NSThing".toList⟩ ∧
    (pairInterfaces nestedMobile.classes nestedDesktop.classes).get? "MAINSThing".toList =
      some ⟨"UINSThing".toList, "NSNSThing".toList⟩ ∧
    (∀ name p, (pairInterfaces nestedMobile.classes nestedDesktop.classes).get? name = some p →
      p.desktop = "NSThing".toList → name = "MAIThing".toList) ∧
    ((unify .default nestedMobile nestedDesktop).classes.map UnifiedInterface.pair).get?
      "MAINSThing".toList = some ⟨"UINSThing".toList, "NSNSThing".toList⟩ := by
  obtain ⟨hpairs, hinjective, hmodel⟩ := pairs_exact
  have hthing := (hpairs nestedMobile.classes nestedDesktop.classes "MAIThing".toList
    ⟨"NSThing".toList, "NSThing".toList⟩).mpr ⟨"Thing".toList, by decide +kernel⟩
  have hnested := (hpairs nestedMobile.classes nestedDesktop.classes "MAINSThing".toList
    ⟨"UINSThing".toList, "NSNSThing".toList⟩).mpr ⟨"NSThing".toList, by decide +kernel⟩
  refine ⟨hthing, hnested, fun name p hp hdesktop => ?_, ?_⟩
  · exact hinjective _ _ _ _ _ _ hp hthing (Or.inr hdesktop)
  · rw [(hmodel .default nestedMobile nestedDesktop).1]
    exact hnested

end CommonHeaders
