import ClusterBlueprint.Proofs.Blueprint.Placed
import ClusterBlueprint.Proofs.Checked.First
import ClusterBlueprint.Proofs.Location
import Mathlib.Data.List.Nodup
import Mathlib.Data.List.Perm.Basic

/-!
Modules at their positions, and passes over the modules that write settings only.

A blueprint is known by its modules at all positions and by what is left of it without settings.  So
it does not matter in which order such a pass comes to the modules.
-/

namespace ClusterBlueprint.Blueprint

variable {bp out : Blueprint} {position other : Nat × Nat} {module image : Module} {settings : Dict}

/-- The module at the position of a group and a position in that group. -/
def moduleAt? (bp : Blueprint) (position : Nat × Nat) : Option Module :=
  (bp.groups[position.1]?).bind fun group => group.modules[position.2]?

/-- The positions of all modules, in order. -/
def positions (bp : Blueprint) : List (Nat × Nat) :=
  bp.groups.zipIdx.flatMap fun (group, i) => (List.range group.modules.length).map (Prod.mk i)

def setModuleAt (bp : Blueprint) (position : Nat × Nat) (module : Module) : Blueprint :=
  { bp with groups := bp.groups.modify position.1 fun group =>
      { group with modules := group.modules.set position.2 module } }

def withoutSettings (bp : Blueprint) : Blueprint :=
  { bp with groups := bp.groups.map fun group =>
      { group with modules := group.modules.map fun module => { module with settings := ∅ } } }

/-! ## Positions -/

theorem moduleAt?_eq_some : bp.moduleAt? position = some module
    ↔ ∃ group, bp.groups[position.1]? = some group ∧ group.modules[position.2]? = some module :=
  Option.bind_eq_some_iff

theorem placed_of_moduleAt? (h : bp.moduleAt? position = some module) :
    bp.Placed position.1 module := by
  obtain ⟨group, hgroup, hmodule⟩ := moduleAt?_eq_some.mp h
  exact ⟨group, hgroup, List.mem_of_getElem? hmodule⟩

theorem mem_positions : position ∈ bp.positions
    ↔ ∃ module, bp.moduleAt? position = some module := by
  obtain ⟨i, j⟩ := position
  unfold positions
  rw [List.mem_flatMap]
  constructor
  · rintro ⟨⟨group, k⟩, hgroup, hmem⟩
    obtain ⟨l, hl, heq⟩ := List.mem_map.mp hmem
    obtain ⟨rfl, rfl⟩ := Prod.mk.inj heq
    exact ⟨_, moduleAt?_eq_some.mpr ⟨group, List.mk_mem_zipIdx_iff_getElem?.mp hgroup,
      List.getElem?_eq_getElem (List.mem_range.mp hl)⟩⟩
  · rintro ⟨module, h⟩
    obtain ⟨group, hgroup, hmodule⟩ := moduleAt?_eq_some.mp h
    exact ⟨(group, i), List.mk_mem_zipIdx_iff_getElem?.mpr hgroup, List.mem_map.mpr
      ⟨j, List.mem_range.mpr (List.getElem?_eq_some_iff.mp hmodule).1, rfl⟩⟩

theorem mem_placedModules {place : Location} : (place, module) ∈ bp.placedModules
    ↔ ∃ i j, place = .module i j ∧ bp.moduleAt? (i, j) = some module := by
  unfold placedModules
  rw [List.mem_flatMap]
  constructor
  · rintro ⟨⟨group, i⟩, hgroup, hmem⟩
    obtain ⟨⟨other, j⟩, hother, heq⟩ := List.mem_map.mp hmem
    obtain ⟨rfl, rfl⟩ := Prod.mk.inj heq
    exact ⟨i, j, rfl, moduleAt?_eq_some.mpr ⟨group, List.mk_mem_zipIdx_iff_getElem?.mp hgroup,
      List.mk_mem_zipIdx_iff_getElem?.mp hother⟩⟩
  · rintro ⟨i, j, rfl, h⟩
    obtain ⟨group, hgroup, hmodule⟩ := moduleAt?_eq_some.mp h
    exact ⟨(group, i), List.mk_mem_zipIdx_iff_getElem?.mpr hgroup, List.mem_map.mpr
      ⟨(module, j), List.mk_mem_zipIdx_iff_getElem?.mpr hmodule, rfl⟩⟩

theorem pairwise_zipIdx {α : Type} (xs : List α) :
    xs.zipIdx.Pairwise fun first second => first.2 < second.2 := by
  refine List.pairwise_map.mp ?_
  rw [List.zipIdx_map_snd]
  exact List.pairwise_lt_range'

/-- Whether one of two positions comes before the other. -/
def Before (first second : Nat × Nat) : Prop :=
  first.1 < second.1 ∨ first.1 = second.1 ∧ first.2 < second.2

/-- Modules are listed in the order of their positions. -/
theorem pairwise_placedModules (bp : Blueprint) : bp.placedModules.Pairwise fun first second =>
    ∃ p q : Nat × Nat, first.1 = .module p.1 p.2 ∧ second.1 = .module q.1 q.2 ∧ Before p q := by
  refine List.pairwise_flatMap.mpr ⟨fun entry _ => ?_, ?_⟩
  · refine List.pairwise_map.mpr ((pairwise_zipIdx _).imp fun {first second} hlt => ?_)
    exact ⟨(entry.2, first.2), (entry.2, second.2), rfl, rfl, .inr ⟨rfl, hlt⟩⟩
  · refine (pairwise_zipIdx _).imp fun {first second} hlt x hx y hy => ?_
    obtain ⟨m, -, rfl⟩ := List.mem_map.mp hx
    obtain ⟨n, -, rfl⟩ := List.mem_map.mp hy
    exact ⟨(first.2, m.2), (second.2, n.2), rfl, rfl, .inl hlt⟩

/-- A module is listed after those that come before it. -/
theorem placedModules_split {i j k l : Nat} {first second : Module}
    (hfirst : bp.moduleAt? (i, j) = some first) (hsecond : bp.moduleAt? (k, l) = some second)
    (hbefore : Before (i, j) (k, l)) : ∃ earlier later,
      bp.placedModules = earlier ++ (.module k l, second) :: later
        ∧ (.module i j, first) ∈ earlier := by
  obtain ⟨earlier, later, hsplit⟩ :=
    List.append_of_mem (mem_placedModules.mpr ⟨k, l, rfl, hsecond⟩)
  refine ⟨earlier, later, hsplit, ?_⟩
  have hmem := mem_placedModules.mpr ⟨i, j, rfl, hfirst⟩
  have hpairwise := bp.pairwise_placedModules
  rw [hsplit] at hmem hpairwise
  refine (List.mem_append.mp hmem).resolve_right fun hrest => ?_
  unfold Before at hbefore
  dsimp only at hbefore
  rcases List.mem_cons.mp hrest with heq | hlater
  · obtain ⟨rfl, rfl⟩ := Location.module_inj (Prod.mk.inj heq).1
    omega
  · have hcons := (List.pairwise_append.mp hpairwise).2.1
    obtain ⟨p, q, hp, hq, hafter⟩ := (List.pairwise_cons.mp hcons).1 _ hlater
    obtain ⟨rfl, rfl⟩ := Location.module_inj hp
    obtain ⟨rfl, rfl⟩ := Location.module_inj hq
    unfold Before at hafter
    omega

theorem nodup_positions (bp : Blueprint) : bp.positions.Nodup := by
  refine List.nodup_flatMap.mpr ⟨fun entry _ => ?_, ?_⟩
  · exact List.nodup_range.map fun _ _ heq => (Prod.mk.inj heq).2
  · have hindices : (bp.groups.zipIdx.map Prod.snd).Nodup := by
      rw [List.zipIdx_map_snd]
      exact List.nodup_range'
    refine (List.pairwise_map.mp hindices).imp fun {first second} hne p hfirst hsecond => hne ?_
    obtain ⟨_, -, rfl⟩ := List.mem_map.mp hfirst
    obtain ⟨_, -, heq⟩ := List.mem_map.mp hsecond
    exact (Prod.mk.inj heq).1.symm

theorem moduleAt?_setModuleAt_self (h : bp.moduleAt? position = some module) :
    (bp.setModuleAt position image).moduleAt? position = some image := by
  obtain ⟨group, hgroup, hmodule⟩ := moduleAt?_eq_some.mp h
  refine moduleAt?_eq_some.mpr
    ⟨{ group with modules := group.modules.set position.2 image }, ?_, ?_⟩
  · rw [setModuleAt, List.getElem?_modify_eq, hgroup]
    rfl
  · exact List.getElem?_set_self (List.getElem?_eq_some_iff.mp hmodule).1

theorem moduleAt?_setModuleAt_of_ne (h : other ≠ position) :
    (bp.setModuleAt position image).moduleAt? other = bp.moduleAt? other := by
  unfold moduleAt? setModuleAt
  rw [List.getElem?_modify]
  split
  · next hgroup =>
    have hne : position.2 ≠ other.2 := fun heq => h (Prod.ext hgroup heq).symm
    cases bp.groups[other.1]? with
    | none => rfl
    | some group => exact List.getElem?_set_ne hne
  · simp

/-! ## Without settings -/

/-- Blueprints that are the same without settings, and have the same module at each position. -/
theorem ext_moduleAt? (hrest : bp.withoutSettings = out.withoutSettings)
    (hmodules : ∀ position, bp.moduleAt? position = out.moduleAt? position) : bp = out := by
  obtain ⟨name, path, validators, level, vars, groups, backend, staged⟩ := bp
  obtain ⟨_, _, _, _, _, others, _, _⟩ := out
  obtain ⟨rfl, rfl, rfl, rfl, rfl, hgroups, rfl, rfl⟩ := Blueprint.mk.inj hrest
  congr 1
  refine List.ext_getElem? fun i => ?_
  have hi := congrArg (·[i]?) hgroups
  simp only [List.getElem?_map] at hi
  cases hgroup : groups[i]? with
  | none =>
    rw [hgroup] at hi
    exact (Option.map_eq_none_iff.mp hi.symm).symm
  | some group =>
    rw [hgroup] at hi
    obtain ⟨image, himage, heq⟩ := Option.map_eq_some_iff.mp hi.symm
    obtain ⟨hname, hbackend, -⟩ := Group.mk.inj heq
    have hlist : group.modules = image.modules := by
      refine List.ext_getElem? fun j => ?_
      have hj := hmodules (i, j)
      simpa only [moduleAt?, hgroup, himage, Option.bind_some] using hj
    rw [himage]
    exact congrArg some (Group.mk.injEq .. ▸ ⟨hname.symm, hbackend.symm, hlist⟩)

theorem withoutSettings_setModuleAt (h : bp.moduleAt? position = some module) :
    (bp.setModuleAt position { module with settings }).withoutSettings = bp.withoutSettings := by
  refine congrArg (fun groups => { bp with groups }) (List.ext_getElem? fun i => ?_)
  rw [setModuleAt, List.getElem?_map, List.getElem?_map, List.getElem?_modify]
  split
  · next hi =>
    obtain ⟨group, hgroup, hmodule⟩ := moduleAt?_eq_some.mp h
    rw [← hi, hgroup]
    refine congrArg (fun modules => some { group with modules }) ?_
    have hlt := (List.getElem?_eq_some_iff.mp hmodule).1
    have heq := (List.getElem?_eq_some_iff.mp hmodule).2
    rw [List.map_set, ← heq]
    refine List.ext_getElem? fun j => ?_
    rw [List.getElem?_set]
    split
    · next hj => subst hj; simp [hlt]
    · rfl
  · simp

/-! ## Passes that write settings -/

variable {f : Location → Module → Checked Module}

/-- A pass comes to the modules in the order of their places. -/
theorem discard_mapModules (bp : Blueprint) (f : Location → Module → Checked Module) :
    discard (bp.mapModules f)
      = bp.placedModules.forM fun placed => discard (f placed.1 placed.2) := by
  unfold mapModules placedModules
  rw [Checked.discard_bind_pure, Checked.discard_mapM, Checked.forM_flatMap]
  congr 1
  funext ⟨group, i⟩
  dsimp only
  simp only [Checked.discard_bind_pure, Checked.discard_mapM, List.forM_eq_forM, List.forM_map]

/-- A pass succeeds if every module has an image. -/
theorem exists_mapModules_iff : (∃ out, bp.mapModules f = .ok out)
    ↔ ∀ placed ∈ bp.placedModules, ∃ image, f placed.1 placed.2 = .ok image := by
  rw [← Checked.discard_eq_ok, discard_mapModules, Checked.forM_eq_ok]
  exact forall₂_congr fun _ _ => Checked.discard_eq_ok

/-- A pass puts at each position the image of the module that stands there. -/
theorem moduleAt?_of_mapModules (h : bp.mapModules f = .ok out) (i j : Nat) :
    (bp.moduleAt? (i, j)).map (f (.module i j)) = (out.moduleAt? (i, j)).map .ok := by
  obtain ⟨groups, hgroups, hout⟩ := Checked.bind_eq_ok.mp h
  obtain rfl : { bp with groups } = out := Except.ok.inj hout
  have hi := Checked.getElem?_of_mapM_zipIdx hgroups i
  unfold moduleAt?
  cases hgroup : bp.groups[i]? with
  | none =>
    rw [hgroup] at hi
    rw [Option.map_eq_none_iff.mp hi.symm]
    rfl
  | some group =>
    rw [hgroup] at hi
    obtain ⟨image, himage, hread⟩ := Option.map_eq_some_iff.mp hi.symm
    obtain ⟨modules, hmodules, hreturn⟩ := Checked.bind_eq_ok.mp hread.symm
    obtain rfl : { group with modules } = image := Except.ok.inj hreturn
    rw [himage]
    exact Checked.getElem?_of_mapM_zipIdx hmodules j

/-- Whether the images of modules differ from them in settings only. -/
def WritesSettings (f : Location → Module → Checked Module) : Prop :=
  ∀ place module image, f place module = .ok image → ∃ settings, image = { module with settings }

theorem withoutSettings_of_mapModules (hf : WritesSettings f) (h : bp.mapModules f = .ok out) :
    out.withoutSettings = bp.withoutSettings := by
  obtain ⟨groups, hgroups, hout⟩ := Checked.bind_eq_ok.mp h
  obtain rfl : { bp with groups } = out := Except.ok.inj hout
  refine congrArg (fun groups => { bp with groups })
    (Checked.map_eq_of_mapM_zipIdx hgroups fun group i image hread => ?_)
  obtain ⟨modules, hmodules, hreturn⟩ := Checked.bind_eq_ok.mp hread
  obtain rfl : { group with modules } = image := Except.ok.inj hreturn
  refine congrArg (fun modules => { group with modules })
    (Checked.map_eq_of_mapM_zipIdx hmodules fun original j module hmodule => ?_)
  obtain ⟨settings, rfl⟩ := hf _ _ _ hmodule
  rfl

def mapModuleAt (f : Location → Module → Checked Module) (bp : Blueprint) (position : Nat × Nat) :
    Checked Blueprint :=
  match bp.moduleAt? position with
  | none => .ok bp
  | some module => do
    let image ← f (.module position.1 position.2) module
    return bp.setModuleAt position image

/-- A pass that writes settings may come to the modules in any order. -/
theorem foldlM_mapModuleAt (hf : WritesSettings f) (h : bp.mapModules f = .ok out)
    {order : List (Nat × Nat)} (horder : order.Perm bp.positions) :
    order.foldlM (mapModuleAt f) bp = .ok out := by
  -- Positions to come hold the modules of the start, all others those of the end.
  suffices hrun : ∀ (order : List (Nat × Nat)) (current : Blueprint), order.Nodup →
      current.withoutSettings = bp.withoutSettings →
      (∀ position ∈ order, current.moduleAt? position = bp.moduleAt? position) →
      (∀ position ∉ order, current.moduleAt? position = out.moduleAt? position) →
      order.foldlM (mapModuleAt f) current = .ok out by
    refine hrun order bp (horder.nodup_iff.mpr bp.nodup_positions) rfl (fun _ _ => rfl) ?_
    intro position hnot
    have hat := moduleAt?_of_mapModules h position.1 position.2
    cases hmodule : bp.moduleAt? position with
    | none =>
      rw [hmodule] at hat
      exact (Option.map_eq_none_iff.mp hat.symm).symm
    | some module =>
      exact absurd (horder.mem_iff.mpr (mem_positions.mpr ⟨module, hmodule⟩)) hnot
  intro order
  induction order with
  | nil =>
    intro current _ hrest _ hdone
    refine congrArg Except.ok (ext_moduleAt? ?_ fun position => hdone position List.not_mem_nil)
    rw [hrest, withoutSettings_of_mapModules hf h]
  | cons position order ih =>
    intro current hnodup hrest htodo hdone
    obtain ⟨hfresh, hnodup⟩ := List.nodup_cons.mp hnodup
    obtain ⟨hposition, htodo⟩ := List.forall_mem_cons.mp htodo
    have hat := moduleAt?_of_mapModules h position.1 position.2
    rw [List.foldlM_cons]
    cases hmodule : current.moduleAt? position with
    | none =>
      have hstep : mapModuleAt f current position = .ok current := by rw [mapModuleAt, hmodule]
      rw [← hposition, hmodule] at hat
      rw [hstep]
      refine ih current hnodup hrest htodo fun other hother => ?_
      by_cases heq : other = position
      · rw [heq, hmodule]
        exact (Option.map_eq_none_iff.mp hat.symm).symm
      · exact hdone other fun hmem => (List.mem_cons.mp hmem).elim heq hother
    | some module =>
      rw [← hposition, hmodule] at hat
      obtain ⟨image, himage, hread⟩ := Option.map_eq_some_iff.mp hat.symm
      obtain ⟨settings, rfl⟩ := hf _ _ _ hread.symm
      have hstep : mapModuleAt f current position
          = .ok (current.setModuleAt position { module with settings }) := by
        rw [mapModuleAt, hmodule]
        exact Checked.bind_eq_ok.mpr ⟨_, hread.symm, rfl⟩
      rw [hstep]
      refine ih _ hnodup ((withoutSettings_setModuleAt hmodule).trans hrest)
        (fun other hother => ?_) fun other hother => ?_
      · have hne : other ≠ position := fun heq => hfresh (heq ▸ hother)
        rw [moduleAt?_setModuleAt_of_ne hne, htodo other hother]
      · by_cases heq : other = position
        · rw [heq, moduleAt?_setModuleAt_self hmodule]
          exact himage.symm
        · rw [moduleAt?_setModuleAt_of_ne heq]
          exact hdone other fun hmem => (List.mem_cons.mp hmem).elim heq hother

end ClusterBlueprint.Blueprint
