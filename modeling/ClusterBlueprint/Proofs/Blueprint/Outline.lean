import ClusterBlueprint.Proofs.Blueprint.WellFormed

/-!
The outline of a blueprint: the names of its groups and the ids of their modules.

A look-up by a name or an id depends on the outline only.  In a checked blueprint the names are
different, and so are the ids, so that there is one place to find.
-/

namespace ClusterBlueprint

namespace Blueprint

def groupNames (bp : Blueprint) : List String := bp.groups.map Group.name

/-- The names of the groups with the ids of their modules, in order. -/
def outline (bp : Blueprint) : List (String × List String) :=
  bp.groups.map fun group => (group.name, group.modules.map Module.id)

/-- Groups have names of their own, and modules have ids of their own. -/
structure HasOwnNames (bp : Blueprint) : Prop where
  groups : bp.groupNames.Nodup
  modules : bp.moduleIds.Nodup

variable {bp out : Blueprint} {i j : Nat} {module : Module} {group : Group} {id name : String}

theorem hasOwnNames_of_check {catalog : Catalog} (h : Structure.check bp catalog = .ok ()) :
    bp.HasOwnNames := ⟨Structure.nodup_groupNames h, Structure.nodup_moduleIds h⟩

/-! ## What the outline shows -/

theorem groupNames_eq (bp : Blueprint) : bp.groupNames = bp.outline.map Prod.fst := by
  rw [outline, List.map_map]
  rfl

theorem moduleIds_eq (bp : Blueprint) : bp.moduleIds = bp.outline.flatMap Prod.snd := by
  rw [moduleIds, modules, outline, List.map_flatMap, List.flatMap_map]

theorem HasOwnNames.of_outline (h : bp.HasOwnNames) (houtline : out.outline = bp.outline) :
    out.HasOwnNames := by
  refine ⟨?_, ?_⟩
  · rw [groupNames_eq, houtline, ← groupNames_eq]
    exact h.groups
  · rw [moduleIds_eq, houtline, ← moduleIds_eq]
    exact h.modules

/-! ## Look-ups -/

theorem groupNames_getElem?_eq_some :
    bp.groupNames[i]? = some name ↔ ∃ group, bp.groups[i]? = some group ∧ group.name = name := by
  rw [groupNames, List.getElem?_map, Option.map_eq_some_iff]

/-- There is one position of each name. -/
theorem HasOwnNames.eq_of_groupNames (h : bp.HasOwnNames) (hi : bp.groupNames[i]? = some name)
    (hj : bp.groupNames[j]? = some name) : i = j :=
  (List.getElem?_inj (List.getElem?_eq_some_iff.mp hi).1 h.groups).mp (hi.trans hj.symm)

theorem HasOwnNames.group_eq_ok (h : bp.HasOwnNames) (hgroup : group ∈ bp.groups) :
    bp.group group.name = .ok group := by
  unfold Blueprint.group
  split
  · next found hfind =>
    have hname : found.name = group.name := by simpa using List.find?_some hfind
    rw [List.inj_on_of_nodup_map h.groups (List.mem_of_find?_eq_some hfind) hgroup hname]
  · next hnone =>
    exact absurd (List.find?_eq_none.mp hnone group hgroup) (by simp)

/-- The position of the group with a module of an id. -/
theorem HasOwnNames.groupIndex?_eq_some (h : bp.HasOwnNames) :
    bp.groupIndex? id = some i ↔ ∃ module, bp.Placed i module ∧ module.id = id :=
  Blueprint.groupIndex?_eq_some h.modules

theorem groupOf?_eq_some :
    bp.groupOf? id = some group
      ↔ ∃ i, bp.groupIndex? id = some i ∧ bp.groups[i]? = some group := by
  unfold groupOf? groupIndex?
  generalize bp.groups = groups
  induction groups with
  | nil => simp
  | cons first groups ih =>
    rw [List.find?_cons, List.findIdx?_cons]
    by_cases hhas : first.hasModule id
    · simp [hhas]
    · simp [hhas, ih]

theorem groupIndex?_of_outline (h : out.outline = bp.outline) :
    out.groupIndex? = bp.groupIndex? := by
  have hindex : ∀ (bp : Blueprint) (id : String),
      bp.groupIndex? id = bp.outline.findIdx? fun entry => entry.2.any (· = id) := by
    intro bp id
    rw [outline, List.findIdx?_map]
    refine congrArg (bp.groups.findIdx? ·) (funext fun group => ?_)
    show group.modules.any (·.id = id) = (group.modules.map Module.id).any (· = id)
    rw [List.any_map]
    rfl
  funext id
  rw [hindex, hindex, h]

/-! ## Passes over the modules -/

theorem outline_of_mapModules {f : Location → Module → Checked Module}
    (h : bp.mapModules f = .ok out)
    (hid : ∀ place original module, f place original = .ok module → module.id = original.id) :
    out.outline = bp.outline := by
  obtain ⟨groups, hgroups, hout⟩ := Checked.bind_eq_ok.mp h
  obtain rfl : { bp with groups } = out := Except.ok.inj hout
  refine Checked.map_eq_of_mapM_zipIdx hgroups fun group i image hread => ?_
  obtain ⟨modules, hmodules, hreturn⟩ := Checked.bind_eq_ok.mp hread
  obtain rfl : { group with modules } = image := Except.ok.inj hreturn
  have hids : modules.map Module.id = group.modules.map Module.id :=
    Checked.map_eq_of_mapM_zipIdx hmodules fun original j module => hid _ original module
  exact congrArg (Prod.mk group.name) hids

end Blueprint

end ClusterBlueprint
