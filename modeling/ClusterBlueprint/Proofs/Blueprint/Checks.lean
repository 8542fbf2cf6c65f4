import ClusterBlueprint.Blueprint.References
import ClusterBlueprint.Proofs.Blueprint.WellFormed
import ClusterBlueprint.Proofs.References

/-!
What a blueprint refers to, and the check of its references.

Where modules have different ids, the check of one reference passes exactly if the reference leads
somewhere, and the check of a blueprint if all of them pass.
-/

namespace ClusterBlueprint

def Dict.RefersBy (p : Reference → Prop) (dict : Dict) : Prop :=
  ∀ name, ∀ reference ∈ (dict.get name).references, p reference

namespace Blueprint

/-- Whether modules of the group at a position may refer to a module: it stands in no later group
and is not of Packer. -/
structure Reaches (bp : Blueprint) (i : Nat) (target : Module) : Prop where
  placed : ∃ j ≤ i, bp.Placed j target
  kind : target.kind ≠ .packer

/-- Whether a reference from the group at a position leads to a variable or to an output. -/
def Leads (bp : Blueprint) (catalog : Catalog) (i : Nat) : Reference → Prop
  | .global name => bp.vars.has name
  | .output _ id output => ∃ target interface, bp.Reaches i target ∧ target.id = id
      ∧ catalog.interface target.source target.kind = .ok interface ∧ interface.hasOutput output

end Blueprint

namespace References

variable {bp : Blueprint} {catalog : Catalog} {module : Module} {i : Nat}

/-! ## One reference -/

/-- A module may be referred to if it is in no later group, and not of Packer. -/
theorem checkModule_eq_ok {target : String} (hids : bp.moduleIds.Nodup)
    (hmodule : bp.Placed i module) :
    checkModule bp module.id target = .ok () ↔ ∃ found, bp.Reaches i found ∧ found.id = target := by
  have hindex {j : Nat} {other : Module} (hother : bp.Placed j other) :
      bp.groupIndex other.id = .ok j := by
    rw [Blueprint.groupIndex, (Blueprint.groupIndex?_eq_some hids).mpr ⟨other, hother, rfl⟩]
  unfold checkModule
  split
  · next hnone =>
    refine iff_of_false (by simp) ?_
    rintro ⟨found, ⟨⟨j, -, hfound⟩, -⟩, hid⟩
    have hsome := (Blueprint.module?_eq_some hids).mpr ⟨⟨j, hfound⟩, hid⟩
    exact absurd (hnone.symm.trans hsome) (by simp)
  · next found hsome =>
    obtain ⟨⟨j, hfound⟩, rfl⟩ := (Blueprint.module?_eq_some hids).mp hsome
    have hunique : ∀ {other k}, bp.Placed k other → other.id = found.id → k = j ∧ other = found :=
      fun hother hid => Blueprint.eq_of_nodup_moduleIds hids hother hfound hid
    split
    · next hkind =>
      refine iff_of_false (by simp) ?_
      rintro ⟨other, ⟨⟨k, -, hother⟩, hotherKind⟩, hid⟩
      rw [(hunique hother hid).2] at hotherKind
      exact hotherKind hkind
    · next hkind =>
      rw [hindex hfound, hindex hmodule]
      by_cases hlt : i < j
      · refine iff_of_false (fun h => absurd (h.symm.trans (if_pos hlt)) (by simp)) ?_
        rintro ⟨other, ⟨⟨k, hle, hother⟩, -⟩, hid⟩
        rw [(hunique hother hid).1] at hle
        exact absurd hlt (Nat.not_lt.mpr hle)
      · exact ⟨fun _ => ⟨found, ⟨⟨j, Nat.le_of_not_lt hlt, hfound⟩, hkind⟩, rfl⟩,
          fun _ => if_neg hlt⟩

/-- A reference passes if it leads somewhere. -/
theorem checkReference_eq_ok {reference : Reference} (hids : bp.moduleIds.Nodup)
    (hmodule : bp.Placed i module) :
    checkReference bp catalog module.id reference = .ok () ↔ bp.Leads catalog i reference := by
  cases reference with
  | global name =>
    have hleads : bp.Leads catalog i (.global name) ↔ bp.vars.has name := Iff.rfl
    rw [checkReference, hleads]
    split
    · next hhas => exact ⟨fun _ => hhas, fun _ => rfl⟩
    · next hnot => exact ⟨nofun, fun hhas => absurd hhas hnot⟩
  | output group id output =>
    have houtput : ∀ {interface : Interface}, (if interface.hasOutput output then Except.ok ()
        else .error ((Cause.noOutput id output).suggesting output
          (interface.outputs.map Output.name)) : Checked Unit) = .ok ()
        ↔ interface.hasOutput output := by
      intro interface
      split
      · next hhas => exact ⟨fun _ => hhas, fun _ => rfl⟩
      · next hnot => exact ⟨nofun, fun hhas => absurd hhas hnot⟩
    have htarget {target : Module} : bp.module id = .ok target
        ↔ (∃ j, bp.Placed j target) ∧ target.id = id := by
      rw [← Blueprint.module?_eq_some hids, Blueprint.module]
      cases bp.module? id with
      | none => exact ⟨nofun, nofun⟩
      | some found => exact ⟨fun h => congrArg some (Except.ok.inj h),
          fun h => congrArg Except.ok (Option.some.inj h)⟩
    unfold checkReference Blueprint.Leads
    simp only [Checked.bind_eq_ok, checkModule_eq_ok hids hmodule, htarget, houtput]
    constructor
    · rintro ⟨_, ⟨found, hreaches, hid⟩, target, ⟨⟨j, hplaced⟩, htargetId⟩, interface, hinterface,
        houtput⟩
      obtain ⟨k, -, hfound⟩ := hreaches.placed
      obtain ⟨-, rfl⟩ :=
        Blueprint.eq_of_nodup_moduleIds hids hfound hplaced (hid.trans htargetId.symm)
      exact ⟨found, interface, hreaches, hid, hinterface, houtput⟩
    · rintro ⟨target, interface, hreaches, hid, hinterface, houtput⟩
      obtain ⟨j, -, hplaced⟩ := hreaches.placed
      exact ⟨(), ⟨target, hreaches, hid⟩, target, ⟨⟨j, hplaced⟩, hid⟩, interface,
        hinterface, houtput⟩

/-! ## All references -/

theorem useFaults_eq_nil {place : Location} : useFaults bp place module = []
    ↔ ∀ used ∈ module.uses, checkModule bp module.id used = .ok () := by
  unfold useFaults
  rw [List.flatMap_eq_nil_iff]
  simp only [Structure.faultAt_eq_nil]
  constructor
  · intro h used hused
    obtain ⟨k, hk⟩ := List.mem_iff_getElem?.mp hused
    exact h (used, k) (List.mk_mem_zipIdx_iff_getElem?.mpr hk)
  · exact fun h entry hentry => h entry.1 (List.fst_mem_of_mem_zipIdx hentry)

theorem settingFaults_eq_nil {place : Location} : settingFaults bp catalog place module = []
    ↔ module.settings.RefersBy
        fun reference => checkReference bp catalog module.id reference = .ok () := by
  unfold settingFaults Dict.RefersBy
  simp only [List.flatMap_eq_nil_iff, Structure.faultAt_eq_nil]
  refine ⟨fun h name reference href => ?_, fun h name _ => h name⟩
  exact h name (Dict.has_iff_mem_keys.mp (Dict.has_of_mem_references href)) reference href

theorem isLocated_of_mem_faults {fault : Fault} (h : fault ∈ faults bp catalog) :
    fault.IsLocated := by
  obtain ⟨⟨place, module⟩, -, hfault⟩ := List.mem_flatMap.mp h
  rcases List.mem_append.mp hfault with huse | hsetting
  · obtain ⟨_, -, hat⟩ := List.mem_flatMap.mp huse
    obtain ⟨c, -, rfl⟩ := Structure.mem_faultAt.mp hat
    exact ⟨_, c, rfl⟩
  · obtain ⟨_, -, hname⟩ := List.mem_flatMap.mp hsetting
    obtain ⟨_, -, hat⟩ := List.mem_flatMap.mp hname
    obtain ⟨c, -, rfl⟩ := Structure.mem_faultAt.mp hat
    exact ⟨_, c, rfl⟩

/-- The check passes exactly if all that modules use may be referred to, and all references in their
settings lead somewhere. -/
theorem check_eq_ok (hids : bp.moduleIds.Nodup) : check bp catalog = .ok ()
    ↔ ∀ i module, bp.Placed i module →
      (∀ used ∈ module.uses, ∃ target, bp.Reaches i target ∧ target.id = used)
        ∧ module.settings.RefersBy (bp.Leads catalog i) := by
  rw [check, Faults.checkAll_eq_ok fun _ => isLocated_of_mem_faults, faults,
    List.flatMap_eq_nil_iff]
  simp only [List.append_eq_nil_iff, useFaults_eq_nil, settingFaults_eq_nil]
  constructor
  · intro h i module hmodule
    obtain ⟨place, hplaced⟩ := Blueprint.exists_mem_placedModules hmodule
    obtain ⟨huses, hsettings⟩ := h _ hplaced
    exact ⟨fun used hused => (checkModule_eq_ok hids hmodule).mp (huses used hused),
      fun name reference href =>
        (checkReference_eq_ok hids hmodule).mp (hsettings name reference href)⟩
  · rintro h ⟨place, module⟩ hplaced
    obtain ⟨i, hmodule⟩ := Blueprint.placed_of_mem_placedModules hplaced
    obtain ⟨huses, hsettings⟩ := h i module hmodule
    exact ⟨fun used hused => (checkModule_eq_ok hids hmodule).mpr (huses used hused),
      fun name reference href =>
        (checkReference_eq_ok hids hmodule).mpr (hsettings name reference href)⟩

end References

end ClusterBlueprint
