import CommonHeaders.Corpus

/-! # One corpus over another

What is declared later is laid over what was declared before: methods and properties of the same
key are replaced, a superclass given later counts, adopted protocols are added at the end, and an
enumeration declared again takes the place of the old one. Nothing of what lies below is lost but
what is replaced.

* `setSuperclass_overlay`, `addMethod_overlay`, …: changing an interface that lies over another is
  changing what lies over it.
* `overlay_overlay_self`: laying the same declarations over a corpus twice is laying them once. -/

namespace CommonHeaders

/-! ### Tables -/

namespace Table

variable {α : Type}

/-- A value put over what the table holds under the name, if it holds anything there. -/
def putOver (put : α → α → α) (below : Table α) (key : Text) (b : α) : α :=
  match below.get? key with
  | some a => put a b
  | none => b

/-- The entries of both tables; under a common name, the entry above put over the one below. -/
def overlayWith (put : α → α → α) (below above : Table α) : Table α :=
  (above.mapEntries (putOver put below)).union below

variable {put : α → α → α} {below above : Table α} {key : Text}

theorem get?_overlayWith (put : α → α → α) (below above : Table α) (key : Text) :
    (overlayWith put below above).get? key =
      ((above.get? key).map (putOver put below key)).or (below.get? key) := by
  rw [overlayWith, get?_union, get?_mapEntries]

/-- A change that may be made before or after putting a value over another may be made before or
after putting it over a table. -/
theorem putOver_comm {f : α → α} {b : α} (hf : ∀ a, f (put a b) = put a (f b)) :
    f (putOver put below key b) = putOver put below key (f b) := by
  unfold putOver
  split
  · exact hf _
  · rfl

/-- A value that shows nothing over any other may stand for the missing one. -/
theorem getD_overlayWith {d : α} (hd : ∀ a, put a d = a) :
    ((overlayWith put below above).get? key).getD d =
      putOver put below key ((above.get? key).getD d) := by
  rw [get?_overlayWith]
  unfold putOver
  cases above.get? key with
  | some b => rfl
  | none =>
    cases below.get? key with
    | none => rfl
    | some a => exact (hd a).symm

theorem overlayWith_insert (b : α) :
    (overlayWith put below above).insert key (putOver put below key b) =
      overlayWith put below (above.insert key b) := by
  ext1 key'
  rw [get?_insert, get?_overlayWith, get?_overlayWith, get?_insert]
  split
  · rename_i hk
    rw [hk]
    rfl
  · rfl

/-- Changing what the table holds, or what stands for it, is changing it above. -/
theorem overlayWith_insert_getD (below above : Table α) (key : Text) {d : α} {f : α → α}
    (hd : ∀ a, put a d = a)
    (hf : ∀ a, f (put a ((above.get? key).getD d)) = put a (f ((above.get? key).getD d))) :
    (overlayWith put below above).insert key
        (f (((overlayWith put below above).get? key).getD d)) =
      overlayWith put below (above.insert key (f ((above.get? key).getD d))) := by
  rw [getD_overlayWith hd, putOver_comm hf, overlayWith_insert]

/-- A change that works above as it works over the table may be made above. -/
theorem overlayWith_modify (below : Table α) {f : α → α}
    (hf : ∀ a b, f (put a b) = put a (f b)) (hkey : key ∈ above.keys) :
    (overlayWith put below above).modify key f = overlayWith put below (above.modify key f) := by
  ext1 key'
  rw [get?_modify, get?_overlayWith, get?_overlayWith, get?_modify]
  split
  · rename_i hk
    obtain ⟨b, hb⟩ := mem_keys_iff.mp (hk ▸ hkey)
    rw [hb]
    exact congrArg some (putOver_comm fun a => hf a b)
  · rfl

/-- Laying a table twice over another is laying it once, if that holds of the entries. -/
theorem overlayWith_overlayWith_self (hput : ∀ a b, put (put a b) b = put a b)
    (hself : ∀ b, put b b = b) (below above : Table α) :
    overlayWith put (overlayWith put below above) above = overlayWith put below above := by
  ext1 key
  rw [get?_overlayWith, get?_overlayWith]
  cases hb : above.get? key with
  | none => rfl
  | some b =>
    have hover : putOver put (overlayWith put below above) key b =
        put (putOver put below key b) b := by
      rw [putOver, get?_overlayWith, hb]
      rfl
    refine congrArg some (hover.trans ?_)
    unfold putOver
    cases below.get? key with
    | none => exact hself b
    | some a => exact hput a b

theorem union_union_self (t u : Table α) : t.union (t.union u) = t.union u := by
  ext1 key
  rw [get?_union, get?_union]
  cases t.get? key <;> rfl

theorem union_self (t : Table α) : t.union t = t := by
  ext1 key
  rw [get?_union]
  cases t.get? key <;> rfl

theorem union_insert (t u : Table α) (key : Text) (value : α) :
    (t.insert key value).union u = (t.union u).insert key value := by
  ext1 key'
  simp only [get?_union, get?_insert]
  split <;> rfl

theorem union_modify {t : Table α} (u : Table α) (f : α → α) (hkey : key ∈ t.keys) :
    (t.modify key f).union u = (t.union u).modify key f := by
  ext1 key'
  simp only [get?_union, get?_modify]
  split
  · rename_i hk
    obtain ⟨value, hvalue⟩ := mem_keys_iff.mp (hk ▸ hkey)
    rw [hvalue]
    rfl
  · rfl

end Table

/-! ### Adoption lists -/

namespace Adoptions

theorem adopt_of_mem {l : Adoptions} {name : Text} (h : name ∈ l.names) : l.adopt name = l := by
  unfold adopt
  rw [dif_pos h]

theorem names_adopt_of_not_mem {l : Adoptions} {name : Text} (h : name ∉ l.names) :
    (l.adopt name).names = l.names ++ [name] := by
  unfold adopt
  rw [dif_neg h]

theorem adoptAll_append (l : Adoptions) (names names' : List Text) :
    l.adoptAll (names ++ names') = (l.adoptAll names).adoptAll names' := List.foldl_append

theorem adoptAll_of_subset {l : Adoptions} {names : List Text} (h : ∀ n ∈ names, n ∈ l.names) :
    l.adoptAll names = l := by
  induction names with
  | nil => rfl
  | cons n rest ih =>
    have hn : l.adopt n = l := adopt_of_mem (h n List.mem_cons_self)
    have hrest := ih fun n' hn' => h n' (List.mem_cons_of_mem _ hn')
    simp only [adoptAll, List.foldl_cons] at hrest ⊢
    rw [hn, hrest]

theorem adoptAll_adoptAll_self (l : Adoptions) (names : List Text) :
    (l.adoptAll names).adoptAll names = l.adoptAll names :=
  adoptAll_of_subset fun _ hn => mem_adoptAll.mpr (Or.inr hn)

/-- Adopting what another list has after one more adoption is adopting what it had and one more. -/
theorem adoptAll_names_adopt (l above : Adoptions) (name : Text) :
    l.adoptAll (above.adopt name).names = (l.adoptAll above.names).adopt name := by
  by_cases h : name ∈ above.names
  · rw [adopt_of_mem h, adopt_of_mem (mem_adoptAll.mpr (Or.inr h))]
  · rw [names_adopt_of_not_mem h, adoptAll_append]
    rfl

theorem adoptAll_names_adoptAll (l above : Adoptions) (names : List Text) :
    l.adoptAll (above.adoptAll names).names = (l.adoptAll above.names).adoptAll names := by
  induction names generalizing above with
  | nil => rfl
  | cons n rest ih =>
    have h := ih (above.adopt n)
    simp only [adoptAll, List.foldl_cons] at h ⊢
    rw [h]
    exact congrArg (fun x => rest.foldl adopt x) (adoptAll_names_adopt l above n)

end Adoptions

/-! ### Interfaces -/

/-- A superclass known above counts; a protocol below stays one. -/
def InterfaceKind.overlay : InterfaceKind → InterfaceKind → InterfaceKind
  | .ofClass below, .ofClass above => .ofClass (above.or below)
  | kind, _ => kind

namespace Interface

/-- **One interface over another** of the same name. -/
def overlay (below above : Interface) : Interface where
  name := below.name
  kind := below.kind.overlay above.kind
  methods := above.methods.union below.methods
  properties := above.properties.union below.properties
  protocols := below.protocols.adoptAll above.protocols.names

theorem overlay_newClass (below : Interface) (name : Text) :
    below.overlay (newClass name none) = below := by
  have hm : Table.empty.union below.methods = below.methods := rfl
  have hp : Table.empty.union below.properties = below.properties := rfl
  unfold overlay newClass
  rw [hm, hp]
  cases below with
  | mk _ kind _ _ _ => cases kind <;> rfl

theorem overlay_newProtocol (below : Interface) (name : Text) :
    below.overlay (newProtocol name) = below := by
  have hm : Table.empty.union below.methods = below.methods := rfl
  have hp : Table.empty.union below.properties = below.properties := rfl
  unfold overlay newProtocol
  rw [hm, hp]
  cases below with
  | mk _ kind _ _ _ => cases kind <;> rfl

theorem setSuperclass_overlay (below : Interface) {above : Interface} (h : above.isClass = true)
    (name : Text) :
    (below.overlay above).setSuperclass name = below.overlay (above.setSuperclass name) := by
  cases below with
  | mk _ kind _ _ _ =>
    cases above with
    | mk _ kind' _ _ _ =>
      cases kind' with
      | ofProtocol => simp [isClass] at h
      | ofClass _ => cases kind <;> rfl

theorem adoptAll_overlay (below above : Interface) (names : List Text) :
    (below.overlay above).adoptAll names = below.overlay (above.adoptAll names) := by
  unfold overlay adoptAll
  simp only [Adoptions.adoptAll_names_adoptAll]

theorem addMethod_overlay (below above : Interface) (m : Method) :
    (below.overlay above).addMethod m = below.overlay (above.addMethod m) := by
  unfold overlay addMethod
  simp only [Table.union_insert]

theorem addProperty_overlay (below above : Interface) (p : Property) :
    (below.overlay above).addProperty p = below.overlay (above.addProperty p) := by
  unfold overlay addProperty
  simp only [Table.union_insert]

theorem overlay_overlay_self (below above : Interface) :
    (below.overlay above).overlay above = below.overlay above := by
  have hk : (below.kind.overlay above.kind).overlay above.kind = below.kind.overlay above.kind := by
    rcases below.kind with _ | _
    · rcases above.kind with above | _
      · cases above <;> rfl
      · rfl
    · rfl
  unfold overlay
  simp only [hk, Table.union_union_self, Adoptions.adoptAll_adoptAll_self]

theorem overlay_self (above : Interface) : above.overlay above = above := by
  have hk : above.kind.overlay above.kind = above.kind := by
    rcases above.kind with superclass | _
    · cases superclass <;> rfl
    · rfl
  have ha : above.protocols.adoptAll above.protocols.names = above.protocols :=
    Adoptions.adoptAll_of_subset fun _ hn => hn
  unfold overlay
  rw [hk, ha, Table.union_self, Table.union_self]

end Interface

/-! ### Corpora -/

namespace Corpus

/-- **One corpus over another.** -/
def overlay (below above : Corpus) : Corpus where
  classes := Table.overlayWith Interface.overlay below.classes above.classes
  protocols := Table.overlayWith Interface.overlay below.protocols above.protocols
  enums := above.enums.union below.enums

/-- **Laying the same declarations over a corpus twice is laying them once.** -/
theorem overlay_overlay_self (below above : Corpus) :
    (below.overlay above).overlay above = below.overlay above := by
  unfold overlay
  simp only [Table.overlayWith_overlayWith_self Interface.overlay_overlay_self
    Interface.overlay_self, Table.union_union_self]

end Corpus

end CommonHeaders
