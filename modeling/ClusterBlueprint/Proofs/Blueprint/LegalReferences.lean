import ClusterBlueprint.Blueprint.Use
import ClusterBlueprint.Proofs.Blueprint.Checks

/-!
The references of a blueprint that its check accepts, and the places where it reports the others.

The fault of an entry of the uses is always reported at that entry.  That of a setting is reported
with the wording of one at the setting.  Equal wordings are reported once, so the setting itself may
go without, where the name of another setting and a colon begin its name.
-/

namespace ClusterBlueprint

/-! ## Wordings -/

namespace Fault

theorem toList_message_use (i j k : Nat) (fault : Fault) :
    (located (((Location.module i j).field .uses).index k) fault).message.toList
      = (Location.module i j).text.toList ++ (".use[".toList
        ++ (Nat.toDigits 10 k ++ ']' :: ':' :: ' ' :: fault.message.toList)) := by
  have htext : (((Location.module i j).field .uses).index k).text
      = (Location.module i j).text ++ ".use" ++ (Location.Step.index k).tail := rfl
  rw [toList_message_located, htext, String.toList_append, String.toList_append,
    Location.toList_tail_index]
  simp

theorem toList_message_setting (i j : Nat) (name : String) (fault : Fault) :
    (located ((Location.module i j).setting name) fault).message.toList
      = (Location.module i j).text.toList ++ (".settings.".toList
        ++ (name.toList ++ ':' :: ' ' :: fault.message.toList)) := by
  have htext : ((Location.module i j).setting name).text
      = (Location.module i j).text ++ ".settings" ++ ("." ++ name) := rfl
  rw [toList_message_located, htext]
  simp

end Fault

namespace References

variable {bp : Blueprint} {catalog : Catalog} {module : Module} {i j : Nat}

/-! ## Where faults are found -/

theorem mem_faults {fault : Fault} : fault ∈ faults bp catalog
    ↔ ∃ i j module, bp.moduleAt? (i, j) = some module
      ∧ ((∃ k used inner, module.uses[k]? = some used
          ∧ checkModule bp module.id used = .error inner
          ∧ fault = .located (((Location.module i j).field .uses).index k) inner)
        ∨ ∃ name reference inner, reference ∈ (module.settings.get name).references
          ∧ checkReference bp catalog module.id reference = .error inner
          ∧ fault = .located ((Location.module i j).setting name) inner) := by
  unfold faults
  rw [List.mem_flatMap]
  constructor
  · rintro ⟨⟨place, module⟩, hplaced, hfault⟩
    obtain ⟨i, j, rfl, hmodule⟩ := Blueprint.mem_placedModules.mp hplaced
    refine ⟨i, j, module, hmodule, (List.mem_append.mp hfault).imp (fun huse => ?_)
      fun hsetting => ?_⟩
    · obtain ⟨⟨used, k⟩, hused, hat⟩ := List.mem_flatMap.mp huse
      obtain ⟨inner, hinner, rfl⟩ := Structure.mem_faultAt.mp hat
      exact ⟨k, used, inner, List.mk_mem_zipIdx_iff_getElem?.mp hused, hinner, rfl⟩
    · obtain ⟨name, -, hname⟩ := List.mem_flatMap.mp hsetting
      obtain ⟨reference, href, hat⟩ := List.mem_flatMap.mp hname
      obtain ⟨inner, hinner, rfl⟩ := Structure.mem_faultAt.mp hat
      exact ⟨name, reference, inner, href, hinner, rfl⟩
  · rintro ⟨i, j, module, hmodule, hfault⟩
    refine ⟨_, Blueprint.mem_placedModules.mpr ⟨i, j, rfl, hmodule⟩, ?_⟩
    refine List.mem_append.mpr (hfault.imp ?_ ?_)
    · rintro ⟨k, used, inner, hused, hinner, rfl⟩
      exact List.mem_flatMap.mpr ⟨(used, k), List.mk_mem_zipIdx_iff_getElem?.mpr hused,
        Structure.mem_faultAt.mpr ⟨inner, hinner, rfl⟩⟩
    · rintro ⟨name, reference, inner, href, hinner, rfl⟩
      have hname := Dict.has_iff_mem_keys.mp (Dict.has_of_mem_references href)
      exact List.mem_flatMap.mpr ⟨name, hname, List.mem_flatMap.mpr
        ⟨reference, href, Structure.mem_faultAt.mpr ⟨inner, hinner, rfl⟩⟩⟩

/-- No other place has a fault of the wording of one at an entry of the uses. -/
theorem place?_of_message_use {k : Nat} {part inner : Fault} (hpart : part ∈ faults bp catalog)
    (h : part.message =
      (Fault.located (((Location.module i j).field .uses).index k) inner).message) :
    part.place? = some (((Location.module i j).field .uses).index k) := by
  obtain ⟨m, n, _, -, ⟨l, _, c, -, -, rfl⟩ | ⟨name, _, c, -, -, rfl⟩⟩ := mem_faults.mp hpart
  · have htext := congrArg String.toList h
    rw [Fault.toList_message_use, Fault.toList_message_use] at htext
    obtain ⟨rfl, rfl, hrest⟩ := Location.text_module_inj htext
    obtain ⟨rfl, -⟩ := Text.bracketed_inj (List.append_cancel_left hrest)
    rfl
  · have htext := congrArg String.toList h
    rw [Fault.toList_message_setting, Fault.toList_message_use] at htext
    obtain ⟨-, -, hrest⟩ := Location.text_module_inj htext
    simp at hrest

/-- A fault of the wording of one at a setting is found at a setting of the same module. -/
theorem exists_setting_of_message {name : String} {part inner : Fault}
    (hmodule : bp.moduleAt? (i, j) = some module) (hpart : part ∈ faults bp catalog)
    (h : part.message = (Fault.located ((Location.module i j).setting name) inner).message) :
    ∃ other, part.place? = some ((Location.module i j).setting other) ∧ module.settings.has other
      ∧ ∃ more, other.toList ++ ':' :: more
        = name.toList ++ ':' :: ' ' :: inner.message.toList := by
  obtain ⟨m, n, found, hfound, ⟨l, _, c, -, -, rfl⟩ | ⟨other, _, c, href, -, rfl⟩⟩ :=
    mem_faults.mp hpart
  · have htext := congrArg String.toList h
    rw [Fault.toList_message_use, Fault.toList_message_setting] at htext
    obtain ⟨-, -, hrest⟩ := Location.text_module_inj htext
    simp at hrest
  · have htext := congrArg String.toList h
    rw [Fault.toList_message_setting, Fault.toList_message_setting] at htext
    obtain ⟨rfl, rfl, hrest⟩ := Location.text_module_inj htext
    obtain rfl : found = module := Option.some.inj (hfound.symm.trans hmodule)
    exact ⟨other, rfl, Dict.has_of_mem_references href, _, List.append_cancel_left hrest⟩

/-- Whether one of two names begins with the other and a colon. -/
def Overlap (name other : String) : Prop :=
  other.toList ++ [':'] <+: name.toList ∨ name.toList ++ [':'] <+: other.toList

theorem eq_or_overlap {name other : String} {x y : List Char}
    (h : other.toList ++ ':' :: x = name.toList ++ ':' :: y) :
      other = name ∨ Overlap name other := by
  have hbegins {a b rest tail : List Char} (hb : b = a ++ rest) (hrest : ':' :: x = rest ++ tail ∨
      ':' :: y = rest ++ tail) : a = b ∨ a ++ [':'] <+: b := by
    cases rest with
    | nil => exact .inl (by rw [hb, List.append_nil])
    | cons c rest =>
      have hc : c = ':' := hrest.elim (fun h => (List.cons.inj h).1.symm)
        fun h => (List.cons.inj h).1.symm
      exact .inr ⟨rest, by rw [hb, hc, List.append_assoc, List.singleton_append]⟩
  rcases List.append_eq_append_iff.mp h with ⟨rest, hname, hx⟩ | ⟨rest, hother, hy⟩
  · exact (hbegins hname (.inl hx)).imp String.toList_inj.mp .inl
  · exact (hbegins hother (.inr hy)).imp (fun h => (String.toList_inj.mp h).symm) .inr

/-! ## The check -/

/-- Of faults with one wording the collection keeps one, which need not stand at the same place. -/
theorem exists_part_of_mem_faults {fault listed : Fault} (hfault : check bp catalog = .error fault)
    (hmem : listed ∈ faults bp catalog) :
    ∃ part ∈ fault.parts, part ∈ faults bp catalog ∧ part.message = listed.message := by
  obtain ⟨whole, hwhole, hkept⟩ :=
    Faults.exists_part_of_mem (fun _ => isLocated_of_mem_faults) hmem
  obtain rfl : fault = whole := Except.error.inj (hfault.symm.trans hwhole)
  exact hkept

/-- The check passes exactly if what modules use may be referred to and all references lead
somewhere.  If it fails, each other use is reported at its entry, and each other reference with the
wording of a fault at its setting: at the setting itself, or at one of a name that overlaps. -/
theorem check_iff_legal (hids : bp.moduleIds.Nodup) :
    (check bp catalog = .ok () ↔ ∀ i module, bp.Placed i module →
      (∀ used ∈ module.uses, ∃ target, bp.Reaches i target ∧ target.id = used)
        ∧ ∀ name reference, Value.Holds reference (module.settings.get name) →
          bp.Leads catalog i reference)
    ∧ ∀ fault, check bp catalog = .error fault →
      ∀ i j module, bp.moduleAt? (i, j) = some module →
        (∀ k used, module.uses[k]? = some used →
          (¬ ∃ target, bp.Reaches i target ∧ target.id = used) →
          ∃ part ∈ fault.parts,
            part.place? = some (((Location.module i j).field .uses).index k))
        ∧ ∀ name reference, Value.Holds reference (module.settings.get name) →
          ¬ bp.Leads catalog i reference →
          ∃ part ∈ fault.parts, ∃ inner other,
            checkReference bp catalog module.id reference = .error inner
            ∧ part.message = (Fault.located ((Location.module i j).setting name) inner).message
            ∧ part.place? = some ((Location.module i j).setting other)
            ∧ (other = name ∨ module.settings.has other ∧ Overlap name other) := by
  have hfaulty {check : Checked Unit} (h : check ≠ .ok ()) : ∃ inner, check = .error inner := by
    cases check with
    | ok _ => exact absurd rfl h
    | error inner => exact ⟨inner, rfl⟩
  refine ⟨?_, fun fault hfault i j module hmodule => ⟨fun k used hused hnot => ?_,
    fun name reference hholds hnot => ?_⟩⟩
  · simp only [check_eq_ok hids, Dict.RefersBy, Value.mem_references_iff_holds]
  · have hplaced : bp.Placed i module := Blueprint.placed_of_moduleAt? hmodule
    obtain ⟨inner, hinner⟩ := hfaulty (mt (checkModule_eq_ok hids hplaced).mp hnot)
    obtain ⟨part, hpart, hlisted, hmessage⟩ := exists_part_of_mem_faults hfault
      (mem_faults.mpr ⟨i, j, module, hmodule, .inl ⟨k, used, inner, hused, hinner, rfl⟩⟩)
    exact ⟨part, hpart, place?_of_message_use hlisted hmessage⟩
  · have hplaced : bp.Placed i module := Blueprint.placed_of_moduleAt? hmodule
    have href := Value.mem_references_iff_holds.mpr hholds
    obtain ⟨inner, hinner⟩ := hfaulty (mt (checkReference_eq_ok hids hplaced).mp hnot)
    obtain ⟨part, hpart, hlisted, hmessage⟩ := exists_part_of_mem_faults hfault
      (mem_faults.mpr ⟨i, j, module, hmodule, .inr ⟨name, reference, inner, href, hinner, rfl⟩⟩)
    -- The text of a name may hold a colon, so that the wording does not give the name back.
    obtain ⟨other, hplace, hother, more, htext⟩ :=
      exists_setting_of_message hmodule hlisted hmessage
    exact ⟨part, hpart, inner, other, hinner, hmessage, hplace,
      (eq_or_overlap htext).imp_right fun hoverlap => ⟨hother, hoverlap⟩⟩

def dangling : Blueprint where
  name := "dangling"
  groups := [{ name := "main", modules := [
    { source := "modules/compute/vm", kind := .terraform, id := "vm", uses := ["net"],
      settings := .ofValues (.ofList [("zone", .ofReference (.global "zone"))]) }] }]

theorem check_iff_legal_of_dangling : dangling.moduleIds.Nodup
    ∧ ∃ fault, check dangling ∅ = .error fault
      ∧ (∃ part ∈ fault.parts,
        part.place? = some (((Location.module 0 0).field .uses).index 0))
      ∧ ∃ part ∈ fault.parts, ∃ inner other,
        checkReference dangling ∅ "vm" (.global "zone") = .error inner
        ∧ part.message = (Fault.located ((Location.module 0 0).setting "zone") inner).message
        ∧ part.place? = some ((Location.module 0 0).setting other)
        ∧ (other = "zone" ∨ (dangling.modules[0]).settings.has other ∧ Overlap "zone" other) := by
  have hids : dangling.moduleIds.Nodup := by decide
  obtain ⟨fault, hfault⟩ : ∃ fault, check dangling ∅ = .error fault := ⟨_, rfl⟩
  obtain ⟨huses, hsettings⟩ := (check_iff_legal hids).2 fault hfault 0 0 _ rfl
  have hplaced : dangling.Placed 0 dangling.modules[0] := ⟨_, rfl, List.mem_cons_self⟩
  have huse : ¬ ∃ target, dangling.Reaches 0 target ∧ target.id = "net" := by
    rw [← checkModule_eq_ok hids hplaced]
    nofun
  have hsetting : ¬ dangling.Leads ∅ 0 (.global "zone") := by
    rw [← checkReference_eq_ok hids hplaced]
    nofun
  exact ⟨hids, fault, hfault, huses 0 "net" rfl huse,
    hsettings "zone" (.global "zone") (.expression .refl rfl) hsetting⟩

/-- The wording of a refusal up to the id of the module that is refused. -/
def refusal : String := "Packer modules cannot be used by other modules: "

def imageIds : String × String := ("x: " ++ refusal ++ "y", "y")

def imageNames : String × String := ("a", "a: " ++ refusal ++ "x")

def imageCatalog : Catalog := ⟨.ofList [
  ("modules/first", { interface := { outputs := [{ name := imageNames.1 }] } }),
  ("modules/second", { interface := { outputs := [{ name := imageNames.2 }] } }),
  ("modules/vm", { interface := { inputs := [{ name := imageNames.1 },
    { name := imageNames.2 }] } })]⟩

def machine (settings : Dict) : Module :=
  { source := "modules/vm", kind := .terraform, id := "vm", uses := [imageIds.1, imageIds.2],
    settings }

def images (settings : Dict) : Blueprint where
  name := "images"
  groups := [{ name := "main", modules := [
    { source := "modules/first", kind := .packer, id := imageIds.1 },
    { source := "modules/second", kind := .packer, id := imageIds.2 }, machine settings] }]

/-- The settings that the machine takes from the images.  The faults of both have one wording. -/
def imageSettings : Dict := ⟨.ofList [
  (imageNames.1, Use.outputEntry imageIds.1 imageNames.1),
  (imageNames.2, Use.outputEntry imageIds.2 imageNames.2)]⟩

/-- A setting may hold a reference that leads nowhere, and no fault be reported at it. -/
theorem not_check_reports_each_setting :
    Use.apply (images ∅) imageCatalog = .ok (images imageSettings)
      ∧ (images imageSettings).moduleIds.Nodup
      ∧ (images imageSettings).moduleAt? (0, 2) = some (machine imageSettings)
      ∧ ∃ reference, Value.Holds reference (imageSettings.get imageNames.2)
        ∧ ¬ (images imageSettings).Leads imageCatalog 0 reference
        ∧ ∃ fault, check (images imageSettings) imageCatalog = .error fault
          ∧ ∀ part ∈ fault.parts,
            part.place? ≠ some ((Location.module 0 2).setting imageNames.2) := by
  have hids : (images imageSettings).moduleIds.Nodup := by decide
  have hplaced : (images imageSettings).Placed 0 (machine imageSettings) :=
    ⟨_, rfl, List.mem_cons_of_mem _ (List.mem_cons_of_mem _ List.mem_cons_self)⟩
  have hleads : ¬ (images imageSettings).Leads imageCatalog 0
      (.ofModule imageIds.2 imageNames.2) := by
    rw [← checkReference_eq_ok hids hplaced]
    nofun
  exact ⟨rfl, hids, rfl, .ofModule imageIds.2 imageNames.2, .expression .refl rfl, hleads, _, rfl,
    by decide⟩

end References

end ClusterBlueprint
