import ClusterBlueprint.Blueprint.Basic
import ClusterBlueprint.Proofs.Checked
import Mathlib.Data.List.Nodup

/-!
Modules in the groups of a blueprint.

A pass over the modules puts each image in the group of its original, and nothing else anywhere.
-/

namespace ClusterBlueprint.Blueprint

variable {bp out : Blueprint} {i j : Nat} {module other : Module}

/-- Whether a module stands in the group at a position. -/
def Placed (bp : Blueprint) (i : Nat) (module : Module) : Prop :=
  ∃ group, bp.groups[i]? = some group ∧ module ∈ group.modules

theorem mem_modules : module ∈ bp.modules ↔ ∃ i, bp.Placed i module := by
  unfold modules
  rw [List.mem_flatMap]
  constructor
  · rintro ⟨group, hgroup, hmem⟩
    obtain ⟨i, hi⟩ := List.mem_iff_getElem?.mp hgroup
    exact ⟨i, group, hi, hmem⟩
  · rintro ⟨i, group, hi, hmem⟩
    exact ⟨group, List.mem_of_getElem? hi, hmem⟩

theorem placed_of_module? {id : String} (h : bp.module? id = some module) :
    (∃ i, bp.Placed i module) ∧ module.id = id := by
  obtain ⟨group, hgroup, hfind⟩ := List.exists_of_findSome?_eq_some h
  refine
    ⟨mem_modules.mp (List.mem_flatMap.mpr ⟨group, hgroup, List.mem_of_find?_eq_some hfind⟩), ?_⟩
  simpa using List.find?_some hfind

theorem placed_of_groupIndex {id : String} (h : bp.groupIndex id = .ok i) :
    ∃ module, bp.Placed i module ∧ module.id = id := by
  unfold groupIndex at h
  split at h
  · next position hposition =>
    obtain rfl := Except.ok.inj h
    obtain ⟨hlt, hhas, -⟩ := List.findIdx?_eq_some_iff_getElem.mp hposition
    obtain ⟨module, hmem, hid⟩ := List.any_eq_true.mp hhas
    refine ⟨module, ⟨_, List.getElem?_eq_getElem hlt, hmem⟩, ?_⟩
    simpa using hid
  · exact absurd h nofun

theorem map_placedModules (bp : Blueprint) :
    bp.placedModules.map Prod.snd = bp.modules := by
  have hgroup : ∀ entry : Group × Nat,
      (entry.1.modules.zipIdx.map fun placed => (Location.module entry.2 placed.2, placed.1)).map
        Prod.snd = entry.1.modules := by
    intro entry
    rw [List.map_map]
    exact List.zipIdx_map_fst 0 entry.1.modules
  have hgroups : bp.groups.zipIdx.flatMap (fun entry => entry.1.modules)
      = (bp.groups.zipIdx.map Prod.fst).flatMap Group.modules := (List.flatMap_map _ _ _).symm
  rw [List.zipIdx_map_fst] at hgroups
  unfold placedModules modules
  rw [List.map_flatMap, ← hgroups]
  exact congrArg (List.flatMap · bp.groups.zipIdx) (funext hgroup)

theorem placed_of_mem_placedModules {place : Location} (h : (place, module) ∈ bp.placedModules) :
    ∃ i, bp.Placed i module := by
  rw [← mem_modules, ← map_placedModules]
  exact List.mem_map_of_mem (f := Prod.snd) h

theorem exists_mem_placedModules (h : bp.Placed i module) :
    ∃ place, (place, module) ∈ bp.placedModules := by
  have hmem : module ∈ bp.placedModules.map Prod.snd := by
    rw [map_placedModules]
    exact mem_modules.mpr ⟨i, h⟩
  obtain ⟨⟨place, _⟩, hplaced, rfl⟩ := List.mem_map.mp hmem
  exact ⟨place, hplaced⟩

/-- Modules with different ids: each stands in one group. -/
theorem eq_of_nodup_moduleIds (h : bp.moduleIds.Nodup) (hmodule : bp.Placed i module)
    (hother : bp.Placed j other) (hid : module.id = other.id) : i = j ∧ module = other := by
  have heq : module = other := List.inj_on_of_nodup_map h (mem_modules.mpr ⟨i, hmodule⟩)
    (mem_modules.mpr ⟨j, hother⟩) hid
  refine ⟨?_, heq⟩
  subst heq
  obtain ⟨group, hgroup, hmem⟩ := hmodule
  obtain ⟨others, hothers, hmem'⟩ := hother
  have hpairwise := (List.nodup_flatMap.mp (List.Nodup.of_map _ h)).2
  obtain ⟨hi, rfl⟩ := List.getElem?_eq_some_iff.mp hgroup
  obtain ⟨hj, rfl⟩ := List.getElem?_eq_some_iff.mp hothers
  rcases Nat.lt_trichotomy i j with hlt | heq | hlt
  · exact absurd hmem' (List.pairwise_iff_getElem.mp hpairwise i j hi hj hlt hmem)
  · exact heq
  · exact absurd hmem (List.pairwise_iff_getElem.mp hpairwise j i hj hi hlt hmem')

/-- Modules with different ids: a look-up finds the module of an id. -/
theorem module?_eq_some {id : String} (h : bp.moduleIds.Nodup) :
    bp.module? id = some module ↔ (∃ i, bp.Placed i module) ∧ module.id = id := by
  refine ⟨placed_of_module?, fun ⟨⟨i, hplaced⟩, hid⟩ => ?_⟩
  cases hfound : bp.module? id with
  | none =>
    obtain ⟨group, hgroup, hmem⟩ := hplaced
    have hnone := List.findSome?_eq_none_iff.mp hfound group (List.mem_of_getElem? hgroup)
    exact absurd (List.find?_eq_none.mp hnone module hmem) (by simpa using hid)
  | some found =>
    obtain ⟨⟨j, hfoundPlaced⟩, hfoundId⟩ := placed_of_module? hfound
    rw [(eq_of_nodup_moduleIds h hfoundPlaced hplaced (hfoundId.trans hid.symm)).2]

/-- Modules with different ids: the position of the group of a module. -/
theorem groupIndex?_eq_some {id : String} (h : bp.moduleIds.Nodup) :
    bp.groupIndex? id = some i ↔ ∃ module, bp.Placed i module ∧ module.id = id := by
  have hsound : ∀ k, bp.groupIndex? id = some k →
      ∃ module, bp.Placed k module ∧ module.id = id := by
    intro k hk
    have hindex : bp.groupIndex id = .ok k := by rw [groupIndex, hk]
    exact placed_of_groupIndex hindex
  refine ⟨hsound i, ?_⟩
  rintro ⟨module, hplaced, hid⟩
  obtain ⟨group, hgroup, hmem⟩ := hplaced
  cases hindex : bp.groupIndex? id with
  | none =>
    have hno := List.findIdx?_eq_none_iff.mp hindex group (List.mem_of_getElem? hgroup)
    have hhas : group.hasModule id = true := List.any_eq_true.mpr ⟨module, hmem, decide_eq_true hid⟩
    exact absurd hhas (Bool.eq_false_iff.mp hno)
  | some k =>
    obtain ⟨other, hother, hotherId⟩ := hsound k hindex
    have hplaced : bp.Placed i module := ⟨group, hgroup, hmem⟩
    rw [(eq_of_nodup_moduleIds h hother hplaced (hotherId.trans hid.symm)).1]

/-! ## Passes over the modules -/

/-- What a blueprint is after a pass over its modules. -/
structure Mapped (f : Location → Module → Checked Module) (bp out : Blueprint) : Prop where
  vars : out.vars = bp.vars
  back : ∀ {i module}, out.Placed i module →
    ∃ place original, bp.Placed i original ∧ f place original = .ok module
  forth : ∀ {i original}, bp.Placed i original →
    ∃ place module, out.Placed i module ∧ f place original = .ok module

theorem mapped_of_mapModules {f : Location → Module → Checked Module}
    (h : bp.mapModules f = .ok out) : Mapped f bp out := by
  obtain ⟨groups, hgroups, hout⟩ := Checked.bind_eq_ok.mp h
  obtain rfl : { bp with groups } = out := Except.ok.inj hout
  have hposition := Checked.getElem?_of_mapM_zipIdx hgroups
  refine ⟨rfl, ?_, ?_⟩
  · rintro i module ⟨image, himage, hmem⟩
    have hi := hposition i
    rw [himage] at hi
    obtain ⟨group, hgroup, hread⟩ := Option.map_eq_some_iff.mp hi
    obtain ⟨modules, hmodules, hreturn⟩ := Checked.bind_eq_ok.mp hread
    obtain rfl : { group with modules } = image := Except.ok.inj hreturn
    obtain ⟨k, hk⟩ := List.mem_iff_getElem?.mp hmem
    have hj := Checked.getElem?_of_mapM_zipIdx hmodules k
    rw [hk] at hj
    obtain ⟨original, horiginal, hmodule⟩ := Option.map_eq_some_iff.mp hj
    exact ⟨_, original, ⟨group, hgroup, List.mem_of_getElem? horiginal⟩, hmodule⟩
  · rintro i original ⟨group, hgroup, hmem⟩
    have hi := hposition i
    rw [hgroup] at hi
    obtain ⟨image, himage, hread⟩ := Option.map_eq_some_iff.mp hi.symm
    obtain ⟨modules, hmodules, hreturn⟩ := Checked.bind_eq_ok.mp hread.symm
    obtain rfl : { group with modules } = image := Except.ok.inj hreturn
    obtain ⟨k, hk⟩ := List.mem_iff_getElem?.mp hmem
    have hj := Checked.getElem?_of_mapM_zipIdx hmodules k
    rw [hk] at hj
    obtain ⟨module, hmodule, hread⟩ := Option.map_eq_some_iff.mp hj.symm
    exact ⟨_, module, ⟨_, himage, List.mem_of_getElem? hmodule⟩, hread.symm⟩

end ClusterBlueprint.Blueprint
