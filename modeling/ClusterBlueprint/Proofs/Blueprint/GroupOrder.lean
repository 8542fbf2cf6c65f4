import ClusterBlueprint.Blueprint.GroupOrder
import ClusterBlueprint.Proofs.Blueprint.Outline
import ClusterBlueprint.Proofs.GroupGraph
import ClusterBlueprint.Proofs.References

/-!
The order of the groups, and the references between them.

The edges of the graph of a blueprint are the references from one group to another.  So the declared
order passes exactly if every such reference goes back, and then there is no cycle.
-/

namespace ClusterBlueprint

theorem Dict.mem_references_toObject {dict : Dict} {reference : Reference} :
    reference ∈ dict.toObject.references
      ↔ ∃ name, reference ∈ (dict.get name).references := by
  rw [toObject, Value.mem_references_object]
  constructor
  · rintro ⟨⟨name, value⟩, hfield, href⟩
    have hfind : dict.values.find? name = some value := dict.values.ordered.find?_of_mem hfield
    have hhas : dict.has name := by
      rw [← contains_values, SortedMap.contains, hfind]
      rfl
    rw [find?_values_of_has hhas] at hfind
    exact ⟨name, Option.some.inj hfind ▸ href⟩
  · rintro ⟨name, href⟩
    have hfind := find?_values_of_has (has_of_mem_references href)
    exact ⟨(name, dict.get name), Fields.mem_of_find? hfind, href⟩

/-! ## The references of a group -/

namespace Intergroup

theorem mem_insertReference {reference other : Reference} {references : List Reference} :
    other ∈ insertReference reference references ↔ other = reference ∨ other ∈ references := by
  induction references with
  | nil => simp [insertReference]
  | cons first references ih =>
    unfold insertReference
    split
    · next heq => simp [heq]
    · split
      · simp
      · rw [List.mem_cons, List.mem_cons, ih]
        exact or_left_comm

theorem mem_sortedReferences {reference : Reference} {references : List Reference} :
    reference ∈ sortedReferences references ↔ reference ∈ references := by
  suffices h : ∀ sorted : List Reference,
      reference ∈ references.foldl (fun sorted reference => insertReference reference sorted) sorted
        ↔ reference ∈ sorted ∨ reference ∈ references from (h []).trans (by simp)
  induction references with
  | nil => simp
  | cons first references ih =>
    intro sorted
    rw [List.foldl_cons, ih, mem_insertReference, List.mem_cons, or_assoc]
    exact or_left_comm

end Intergroup

namespace Blueprint

/-- Whether a module in the group at one position refers to a module in the group at another. -/
def Refers (bp : Blueprint) (i j : Nat) : Prop :=
  i ≠ j ∧ ∃ module, bp.Placed i module ∧ ∃ name,
    ∃ reference ∈ (module.settings.get name).references,
      ∃ target, bp.Placed j target ∧ reference.module? = some target.id

section Refers

variable {bp : Blueprint} {i j : Nat} {group : Group} {reference : Reference}

/-- The references of a module to other groups than the first with a module of its id, by the
positions of the groups. -/
theorem mem_moduleReferences {module : Module} : reference ∈ Intergroup.moduleReferences bp module
    ↔ ∃ i, bp.groupIndex? module.id = some i
      ∧ (∃ name, reference ∈ (module.settings.get name).references)
      ∧ ∃ j ≠ i, reference.module?.bind bp.groupIndex? = some j := by
  unfold Intergroup.moduleReferences Intergroup.valueReferences
  cases bp.groupIndex? module.id with
  | none => simp
  | some i =>
    dsimp only
    rw [List.mem_filter, Dict.mem_references_toObject]
    cases reference.module?.bind bp.groupIndex? with
    | none => simp
    | some j => simp

/-- The references of a module to other groups, by the positions of the groups.  With different ids
the group of a module is the one that it stands in. -/
theorem Placed.mem_moduleReferences (hids : bp.moduleIds.Nodup) {module : Module}
    (hplaced : bp.Placed i module) : reference ∈ Intergroup.moduleReferences bp module
      ↔ (∃ name, reference ∈ (module.settings.get name).references)
        ∧ ∃ j ≠ i, reference.module?.bind bp.groupIndex? = some j := by
  have hown : bp.groupIndex? module.id = some i :=
    (Blueprint.groupIndex?_eq_some hids).mpr ⟨module, hplaced, rfl⟩
  rw [Blueprint.mem_moduleReferences, hown]
  simp

/-- A group's references to others, by the positions of the groups. -/
theorem HasOwnNames.mem_groupReferences (h : bp.HasOwnNames) (hgroup : bp.groups[i]? = some group) :
    reference ∈ Intergroup.groupReferences bp group ↔ (∃ module ∈ group.modules,
      ∃ name, reference ∈ (module.settings.get name).references)
        ∧ ∃ j ≠ i, reference.module?.bind bp.groupIndex? = some j := by
  rw [Intergroup.groupReferences, Intergroup.mem_sortedReferences, List.mem_flatMap]
  constructor
  · rintro ⟨module, hmem, href⟩
    obtain ⟨hnamed, hposition⟩ := (Placed.mem_moduleReferences h.modules
      ⟨group, hgroup, hmem⟩).mp href
    exact ⟨⟨module, hmem, hnamed⟩, hposition⟩
  · rintro ⟨⟨module, hmem, hnamed⟩, hposition⟩
    exact ⟨module, hmem, (Placed.mem_moduleReferences h.modules ⟨group, hgroup, hmem⟩).mpr
      ⟨hnamed, hposition⟩⟩

/-- The producers of what a group refers to are the groups that it refers to. -/
theorem HasOwnNames.exists_producer (h : bp.HasOwnNames) (hgroup : bp.groups[i]? = some group)
    {name : String} : (∃ reference ∈ Intergroup.groupReferences bp group, ∃ producer,
      reference.module?.bind bp.groupOf? = some producer ∧ producer.name = name)
        ↔ ∃ j, bp.Refers i j ∧ bp.groupNames[j]? = some name := by
  constructor
  · rintro ⟨reference, href, producer, hproducer, rfl⟩
    obtain ⟨⟨module, hmem, setting, hsetting⟩, j, hne, hindex⟩ :=
      (h.mem_groupReferences hgroup).mp href
    obtain ⟨id, hid, hfound⟩ := Option.bind_eq_some_iff.mp hproducer
    obtain ⟨k, hk, hat⟩ := groupOf?_eq_some.mp hfound
    rw [hid, Option.bind_some, hk] at hindex
    obtain rfl := Option.some.inj hindex
    obtain ⟨target, htarget, rfl⟩ := h.groupIndex?_eq_some.mp hk
    exact ⟨k, ⟨hne.symm, module, ⟨group, hgroup, hmem⟩, setting, reference, hsetting, target,
      htarget, hid⟩, groupNames_getElem?_eq_some.mpr ⟨producer, hat, rfl⟩⟩
  · rintro ⟨j, ⟨hne, module, ⟨own, hown, hmem⟩, setting, reference, hsetting, target, htarget, hid⟩,
      hname⟩
    obtain rfl : group = own := Option.some.inj (hgroup.symm.trans hown)
    obtain ⟨producer, hat, hproducer⟩ := groupNames_getElem?_eq_some.mp hname
    have hindex := h.groupIndex?_eq_some.mpr ⟨target, htarget, rfl⟩
    refine ⟨reference, (h.mem_groupReferences hgroup).mpr ⟨⟨module, hmem, setting, hsetting⟩, j,
      hne.symm, ?_⟩, producer, ?_, hproducer⟩
    · rw [hid, Option.bind_some, hindex]
    · rw [hid, Option.bind_some]
      exact groupOf?_eq_some.mpr ⟨j, hindex, hat⟩

end Refers

end Blueprint

/-! ## The graph of a blueprint -/

namespace GroupGraph

open Blueprint

variable {bp : Blueprint} {graph : GroupGraph} {needed name : String} {i : Nat} {group : Group}

/-- The edges that a fold adds are those that its steps add. -/
theorem needed_foldl {α : Type} {step : GroupGraph → α → GroupGraph} {p : α → Prop} {xs : List α}
    (hstep : ∀ graph x, (step graph x).Needed needed name ↔ graph.Needed needed name ∨ p x) :
    (xs.foldl step graph).Needed needed name ↔ graph.Needed needed name ∨ ∃ x ∈ xs, p x := by
  induction xs generalizing graph with
  | nil => simp
  | cons x xs ih =>
    rw [List.foldl_cons, ih, hstep graph x, or_assoc]
    simp

def link (bp : Blueprint) (group : Group) (graph : GroupGraph) (reference : Reference) :
    GroupGraph :=
  match reference.module?.bind bp.groupOf? with
  | some producer => graph.depend group.name producer.name
  | none => graph

theorem ofBlueprint_eq (bp : Blueprint) :
    ofBlueprint bp = bp.groups.foldl
      (fun graph group => (Intergroup.groupReferences bp group).foldl (link bp group) graph)
      (bp.groups.foldl (fun graph group => graph.add group.name) ∅) := rfl

theorem isBuilt_ofBlueprint (bp : Blueprint) : (ofBlueprint bp).IsBuilt := by
  rw [ofBlueprint_eq]
  refine List.foldlRecOn bp.groups _ ?_ fun graph hgraph group _ => ?_
  · exact List.foldlRecOn bp.groups _ isBuilt_empty fun graph hgraph group _ =>
      hgraph.add group.name
  · refine List.foldlRecOn _ _ hgraph fun graph hgraph reference _ => ?_
    unfold link
    split
    · exact hgraph.depend group.name _
    · exact hgraph

theorem needed_link {reference : Reference} :
    (link bp group graph reference).Needed needed name ↔ graph.Needed needed name
      ∨ group.name = name ∧ ∃ producer, reference.module?.bind bp.groupOf? = some producer
        ∧ producer.name = needed := by
  unfold link
  split
  · next producer hproducer =>
    rw [needed_depend, hproducer]
    refine or_congr_right ⟨?_, ?_⟩
    · rintro ⟨rfl, rfl⟩
      exact ⟨rfl, producer, rfl, rfl⟩
    · rintro ⟨rfl, found, hfound, rfl⟩
      rw [Option.some.inj hfound]
      exact ⟨rfl, rfl⟩
  · next hproducer => simp [hproducer]

/-- One group is needed by another if there is a reference from the other to it. -/
theorem needed_ofBlueprint (h : bp.HasOwnNames) :
    (ofBlueprint bp).Needed needed name
      ↔ ∃ i j, bp.Refers i j ∧ bp.groupNames[i]? = some name ∧ bp.groupNames[j]? = some needed := by
  have hadded :
      ¬ Needed (bp.groups.foldl (fun graph group => graph.add group.name) ∅) needed name := by
    rw [needed_foldl (p := fun _ => False) fun graph group => by rw [needed_add, or_false]]
    rintro (hedge | ⟨_, -, hfalse⟩)
    · exact List.not_mem_nil hedge
    · exact hfalse
  have hgroup : ∀ (graph : GroupGraph) (group : Group),
      ((Intergroup.groupReferences bp group).foldl (link bp group) graph).Needed needed name
        ↔ graph.Needed needed name ∨ ∃ reference ∈ Intergroup.groupReferences bp group,
          group.name = name ∧ ∃ producer, reference.module?.bind bp.groupOf? = some producer
            ∧ producer.name = needed := fun graph group => needed_foldl fun _ _ => needed_link
  rw [ofBlueprint_eq, needed_foldl hgroup, or_iff_right hadded]
  constructor
  · rintro ⟨group, hmem, reference, href, rfl, hproducer⟩
    obtain ⟨i, hi⟩ := List.mem_iff_getElem?.mp hmem
    obtain ⟨j, hrefers, hj⟩ := (h.exists_producer hi).mp ⟨reference, href, hproducer⟩
    exact ⟨i, j, hrefers, groupNames_getElem?_eq_some.mpr ⟨group, hi, rfl⟩, hj⟩
  · rintro ⟨i, j, hrefers, hi, hj⟩
    obtain ⟨group, hat, rfl⟩ := groupNames_getElem?_eq_some.mp hi
    obtain ⟨reference, href, hproducer⟩ := (h.exists_producer hat).mpr ⟨j, hrefers, hj⟩
    exact ⟨group, List.mem_of_getElem? hat, reference, href, rfl, hproducer⟩

/-! ## The declared order -/

theorem lastPosition?_eq_some (h : bp.HasOwnNames) :
    lastPosition? bp name = some i ↔ bp.groupNames[i]? = some name := by
  have hsound : ∀ k, lastPosition? bp name = some k → bp.groupNames[k]? = some name := by
    intro k hk
    obtain ⟨⟨group, _⟩, hfind, rfl⟩ := Option.map_eq_some_iff.mp hk
    have hmem := List.mem_reverse.mp (List.mem_of_find?_eq_some hfind)
    have hname : group.name = name := by simpa using List.find?_some hfind
    exact groupNames_getElem?_eq_some.mpr
      ⟨group, List.mk_mem_zipIdx_iff_getElem?.mp hmem, hname⟩
  refine ⟨hsound i, fun hi => ?_⟩
  obtain ⟨group, hgroup, hname⟩ := groupNames_getElem?_eq_some.mp hi
  cases hlast : lastPosition? bp name with
  | some k => rw [h.eq_of_groupNames (hsound k hlast) hi]
  | none =>
    have hmem := List.mem_reverse.mpr (List.mk_mem_zipIdx_iff_getElem?.mpr hgroup)
    have hno := List.find?_eq_none.mp (Option.map_eq_none_iff.mp hlast) _ hmem
    exact absurd (decide_eq_true hname) hno

theorem checkPosition_eq_ok (h : bp.HasOwnNames) :
    checkPosition graph bp i group = .ok ()
      ↔ ∀ j needed, graph.Needed needed group.name → bp.groupNames[j]? = some needed → j ≤ i := by
  have hlate : ∀ needed, (lastPosition? bp needed).any (decide <| i < ·) = true
      ↔ ∃ j, bp.groupNames[j]? = some needed ∧ i < j := by
    intro needed
    rw [Option.any_eq_true]
    simp only [lastPosition?_eq_some h, decide_eq_true_eq]
  unfold checkPosition
  dsimp only
  split
  · next needed hfind =>
    have hmem := mem_dependencies.mp (List.mem_of_find?_eq_some hfind)
    have hfound := List.find?_some hfind
    obtain ⟨j, hj, hlt⟩ := (hlate needed).mp hfound
    constructor
    · intro hthrow
      obtain ⟨_, -, herror⟩ := Checked.bind_eq_ok.mp hthrow
      exact absurd herror (by simp [throw, throwThe, MonadExceptOf.throw])
    · exact fun hall => absurd (hall j needed hmem hj) (Nat.not_le_of_lt hlt)
  · next hnone =>
    refine ⟨fun _ j needed hneeded hj => Nat.le_of_not_lt fun hlt => ?_, fun _ => rfl⟩
    exact List.find?_eq_none.mp hnone needed (mem_dependencies.mpr hneeded)
      ((hlate needed).mpr ⟨j, hj, hlt⟩)

/-- The declared order passes exactly if the groups refer to earlier groups only. -/
theorem checkDeclaredOrder_eq_ok (h : bp.HasOwnNames) :
    checkDeclaredOrder (ofBlueprint bp) bp = .ok () ↔ ∀ i j, bp.Refers i j → j < i := by
  unfold checkDeclaredOrder
  rw [Checked.forM_eq_ok]
  constructor
  · intro hall i j hrefers
    obtain ⟨hne, _, ⟨group, hgroup, -⟩, _, _, -, _, ⟨producer, hproducer, -⟩, -⟩ := id hrefers
    have hi := groupNames_getElem?_eq_some.mpr ⟨group, hgroup, rfl⟩
    have hj := groupNames_getElem?_eq_some.mpr ⟨producer, hproducer, rfl⟩
    have hposition := hall (group, i) (List.mk_mem_zipIdx_iff_getElem?.mpr hgroup)
    have hneeded := (needed_ofBlueprint h).mpr ⟨i, j, hrefers, hi, hj⟩
    exact Nat.lt_of_le_of_ne ((checkPosition_eq_ok h).mp hposition j _ hneeded hj) hne.symm
  · rintro hback ⟨group, i⟩ hmem
    have hgroup := List.mk_mem_zipIdx_iff_getElem?.mp hmem
    refine (checkPosition_eq_ok h).mpr fun j needed hneeded hj => ?_
    obtain ⟨k, l, hrefers, hk, hl⟩ := (needed_ofBlueprint h).mp hneeded
    obtain rfl := h.eq_of_groupNames hk (groupNames_getElem?_eq_some.mpr ⟨group, hgroup, rfl⟩)
    obtain rfl := h.eq_of_groupNames hl hj
    exact Nat.le_of_lt (hback k l hrefers)

/-- Groups that refer to earlier groups only do not need themselves. -/
theorem acyclic_ofBlueprint (h : bp.HasOwnNames) (hback : ∀ i j, bp.Refers i j → j < i) :
    (ofBlueprint bp).Acyclic := by
  intro name hcycle
  have hlt : ∀ needed name, (ofBlueprint bp).Needed needed name →
      bp.groupNames.idxOf needed < bp.groupNames.idxOf name := by
    intro needed name hneeded
    obtain ⟨i, j, hrefers, hi, hj⟩ := (needed_ofBlueprint h).mp hneeded
    obtain ⟨hilt, rfl⟩ := List.getElem?_eq_some_iff.mp hi
    obtain ⟨hjlt, rfl⟩ := List.getElem?_eq_some_iff.mp hj
    rw [h.groups.idxOf_getElem i hilt, h.groups.idxOf_getElem j hjlt]
    exact hback i j hrefers
  have hself := hcycle.lift bp.groupNames.idxOf hlt
  rw [Relation.transGen_eq_self] at hself
  exact Nat.lt_irrefl _ hself

/-- Groups that refer to earlier groups only have an order. -/
theorem exists_order_ofBlueprint (h : bp.HasOwnNames) (hback : ∀ i j, bp.Refers i j → j < i) :
    ∃ order, (ofBlueprint bp).order = .ok order :=
  exists_order_of_acyclic (isBuilt_ofBlueprint bp) (acyclic_ofBlueprint h hback)

end GroupGraph

end ClusterBlueprint
