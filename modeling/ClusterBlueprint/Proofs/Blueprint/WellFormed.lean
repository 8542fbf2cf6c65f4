import ClusterBlueprint.Proofs.Blueprint.Names
import ClusterBlueprint.Proofs.Blueprint.Positions
import ClusterBlueprint.Proofs.Checked
import ClusterBlueprint.Proofs.Fault.Collection
import ClusterBlueprint.Proofs.SortedMap

/-!
Well-formed blueprints, and the check of the structure.

Each rule of the check is read off by itself: it finds no fault exactly where the blueprint is well
formed.  Since all faults have places, no rule hides another.
-/

namespace ClusterBlueprint.Structure

/-! ## What is well formed -/

/-- Whether a group has modules, all of one kind, and one only if that is Packer. -/
def IsUniform (group : Group) : Prop :=
  group.modules ≠ [] ∧ ∃ kind, (∀ module ∈ group.modules, module.kind = kind)
    ∧ (kind = .packer → group.modules.length = 1)

def IsSetting (interface : Interface) (name : String) : Prop :=
  '.' ∉ name.toList ∧ name.toList ∈ settingPattern ∧ ∃ input ∈ interface.inputs, input.name = name

/-- Whether a source is one that a module had before it moved, after steps that stay in the
directory. -/
def HasMoved (source : String) : Prop :=
  ∃ old new n, (old, new) ∈ movedModules
    ∧ source.toList = (List.replicate n ['.', '/']).flatten ++ old.toList

/-- Whether a module is right by itself. -/
structure IsWellFormedModule (catalog : Catalog) (module : Module) : Prop where
  id : module.id ≠ "" ∧ module.id ≠ "vars"
  source : module.source ≠ "" ∧ ¬ HasMoved module.source
  interface : ∃ interface, catalog.interface module.source module.kind = .ok interface
    ∧ (∀ name, module.settings.has name → IsSetting interface name)
    ∧ ∀ output ∈ module.outputs, ∃ declared ∈ interface.outputs, declared.name = output.name

/-- Whether the structure of a blueprint is right. -/
structure IsWellFormed (bp : Blueprint) (catalog : Catalog) : Prop where
  groups : ∀ group ∈ bp.groups,
    (group.name ≠ "" ∧ group.name.toList ∈ groupPattern) ∧ IsUniform group
  groupNames : (bp.groups.map Group.name).Nodup
  modules : ∀ module ∈ bp.modules, IsWellFormedModule catalog module
  moduleIds : bp.moduleIds.Nodup

/-! ## The rules -/

theorem checkGroupName_eq_ok {name : String} :
    checkGroupName name = .ok () ↔ name ≠ "" ∧ name.toList ∈ groupPattern := by
  unfold checkGroupName
  rw [← isGroupName_iff]
  split
  · next hempty => exact ⟨nofun, fun h => absurd (String.isEmpty_iff.mp hempty) h.1⟩
  · next hempty =>
    split
    · next hname => exact ⟨fun _ => ⟨fun h => hempty (String.isEmpty_iff.mpr h), hname⟩,
        fun _ => rfl⟩
    · next hname => exact ⟨nofun, fun h => absurd h.2 hname⟩

theorem checkGroupKind_eq_ok {group : Group} : checkGroupKind group = .ok () ↔ IsUniform group := by
  unfold checkGroupKind IsUniform
  cases group.modules with
  | nil => exact ⟨nofun, fun h => absurd rfl h.1⟩
  | cons first rest =>
    dsimp only
    cases hfind : rest.find? (·.kind ≠ first.kind) with
    | some other =>
      have hother : other.kind ≠ first.kind := by simpa using List.find?_some hfind
      refine ⟨nofun, fun ⟨_, kind, hkind, _⟩ => absurd ?_ hother⟩
      obtain ⟨hfirst, hrest⟩ := List.forall_mem_cons.mp hkind
      rw [hfirst, hrest other (List.mem_of_find?_eq_some hfind)]
    | none =>
      have hsame : ∀ module ∈ rest, module.kind = first.kind := by
        simpa using List.find?_eq_none.mp hfind
      have hall : ∀ module ∈ first :: rest, module.kind = first.kind :=
        List.forall_mem_cons.mpr ⟨rfl, hsame⟩
      dsimp only
      split
      · next hpacker =>
        obtain ⟨hkind, hmore⟩ : first.kind = .packer ∧ rest ≠ [] := by simpa using hpacker
        refine ⟨nofun, fun ⟨_, kind, hkinds, hone⟩ => absurd ?_ hmore⟩
        have hlength := hone ((hkinds first List.mem_cons_self).symm.trans hkind)
        simpa using hlength
      · next hpacker =>
        refine ⟨fun _ => ⟨List.cons_ne_nil _ _, first.kind, hall, fun hkind => ?_⟩, fun _ => rfl⟩
        have hnil : rest = [] := by simpa [hkind] using hpacker
        rw [hnil, List.length_singleton]

theorem checkId_eq_ok {id : String} : checkId id = .ok () ↔ id ≠ "" ∧ id ≠ "vars" := by
  unfold checkId
  split
  · next hempty => exact ⟨nofun, fun h => absurd (String.isEmpty_iff.mp hempty) h.1⟩
  · next hempty =>
    split
    · next hvars => exact ⟨nofun, fun h => absurd hvars h.2⟩
    · next hvars => exact ⟨fun _ => ⟨fun h => hempty (String.isEmpty_iff.mpr h), hvars⟩,
        fun _ => rfl⟩

theorem exists_eq_append_withoutHere (source : List Char) :
    ∃ n, source = (List.replicate n ['.', '/']).flatten ++ withoutHere source := by
  induction source using withoutHere.induct with
  | case1 rest ih =>
    obtain ⟨n, hn⟩ := ih
    refine ⟨n + 1, ?_⟩
    rw [List.replicate_succ, List.flatten_cons, List.append_assoc, withoutHere, ← hn]
    rfl
  | case2 source hnot => exact ⟨0, by rw [withoutHere.eq_2 source hnot]; rfl⟩

theorem withoutHere_append (n : Nat) (source : List Char) :
    withoutHere ((List.replicate n ['.', '/']).flatten ++ source) = withoutHere source := by
  induction n with
  | zero => rfl
  | succ n ih =>
    rw [List.replicate_succ, List.flatten_cons, List.append_assoc]
    exact ih

/-- No source that has moved starts with a step that stays in the directory. -/
theorem withoutHere_movedModules :
    ∀ entry ∈ movedModules, withoutHere entry.1.toList = entry.1.toList := by
  decide

theorem checkMoved_eq_ok {source : String} :
    checkMoved movedModules source = .ok () ↔ ¬ HasMoved source := by
  unfold checkMoved
  split
  · next old new hfind =>
    refine ⟨nofun, fun h => absurd ?_ h⟩
    have heq : old.toList = withoutHere source.toList := by simpa using List.find?_some hfind
    obtain ⟨n, hn⟩ := exists_eq_append_withoutHere source.toList
    exact ⟨old, new, n, List.mem_of_find?_eq_some hfind, heq ▸ hn⟩
  · next hnone =>
    refine ⟨fun _ ⟨old, new, n, hmem, hsource⟩ => ?_, fun _ => rfl⟩
    have hne : old.toList ≠ withoutHere source.toList := by
      simpa using List.find?_eq_none.mp hnone (old, new) hmem
    rw [hsource, withoutHere_append, withoutHere_movedModules _ hmem] at hne
    exact hne rfl

theorem checkSource_eq_ok {source : String} :
    checkSource source = .ok () ↔ source ≠ "" ∧ ¬ HasMoved source := by
  unfold checkSource
  rw [← checkMoved_eq_ok]
  split
  · next hempty => exact ⟨nofun, fun h => absurd (String.isEmpty_iff.mp hempty) h.1⟩
  · next hempty => exact ⟨fun h => ⟨fun h => hempty (String.isEmpty_iff.mpr h), h⟩, And.right⟩

theorem settingFault?_eq_none {interface : Interface} {name : String} :
    settingFault? interface name = none ↔ IsSetting interface name := by
  have hinput : ¬ (interface.input? name).isNone
      ↔ ∃ input ∈ interface.inputs, input.name = name := by
    simp [Interface.input?]
  unfold settingFault? IsSetting
  rw [← isSettingName_iff, ← hinput, ← List.contains_iff_mem]
  split
  · next hperiod => exact ⟨nofun, fun h => absurd hperiod h.1⟩
  · next hperiod =>
    split
    · next hname => exact ⟨nofun, fun h => absurd h.2.1 (by simpa using hname)⟩
    · next hname =>
      split
      · next hnone => exact ⟨nofun, fun h => absurd hnone h.2.2⟩
      · next hsome => exact ⟨fun _ => ⟨hperiod, by simpa using hname, hsome⟩, fun _ => rfl⟩

theorem settingFaults_eq_nil {place : Location} {module : Module} {interface : Interface} :
    settingFaults place module interface = []
      ↔ ∀ name, module.settings.has name → IsSetting interface name := by
  unfold settingFaults
  rw [List.filterMap_eq_nil_iff]
  simp only [Option.map_eq_none_iff, settingFault?_eq_none, Dict.has_iff_mem_keys]

theorem outputFaults_eq_nil {place : Location} {module : Module} {interface : Interface} :
    outputFaults place module interface = []
      ↔ ∀ output ∈ module.outputs, ∃ declared ∈ interface.outputs, declared.name = output.name := by
  have houtput : ∀ name, interface.hasOutput name
      ↔ ∃ declared ∈ interface.outputs, declared.name = name := by
    intro name
    simp [Interface.hasOutput]
  unfold outputFaults
  rw [List.filterMap_eq_nil_iff]
  constructor
  · intro h output hmem
    obtain ⟨i, hi⟩ := List.mem_iff_getElem?.mp hmem
    have hnone := h (output, i) (List.mk_mem_zipIdx_iff_getElem?.mpr hi)
    dsimp only at hnone
    split at hnone
    · next hhas => exact (houtput output.name).mp hhas
    · exact absurd hnone nofun
  · rintro h ⟨output, i⟩ hmem
    exact if_pos ((houtput output.name).mpr (h output (List.fst_mem_of_mem_zipIdx hmem)))

theorem interfaceFaults_eq_nil {catalog : Catalog} {place : Location} {module : Module}
    (hsource : module.source ≠ "") : interfaceFaults catalog place module = []
      ↔ ∃ interface, catalog.interface module.source module.kind = .ok interface
        ∧ (∀ name, module.settings.has name → IsSetting interface name)
        ∧ ∀ output ∈ module.outputs, ∃ declared ∈ interface.outputs,
          declared.name = output.name := by
  unfold interfaceFaults
  cases catalog.interface module.source module.kind with
  | ok interface =>
    dsimp only
    rw [List.append_eq_nil_iff, settingFaults_eq_nil, outputFaults_eq_nil]
    exact ⟨fun h => ⟨interface, rfl, h⟩, fun ⟨_, heq, h⟩ => Except.ok.inj heq ▸ h⟩
  | error fault =>
    dsimp only
    rw [if_neg (mt String.isEmpty_iff.mp hsource)]
    exact ⟨nofun, nofun⟩

/-! ## Names seen before -/

/-- A key that was not seen, before keys of which none was seen and that one neither. -/
theorem fresh_cons {α : Type} {key : α → String} {seen : List String} {x : α} {xs : List α} :
    ((∀ y ∈ x :: xs, key y ∉ seen) ∧ ((x :: xs).map key).Nodup)
      ↔ key x ∉ seen ∧ (∀ y ∈ xs, key y ∉ key x :: seen) ∧ (xs.map key).Nodup := by
  rw [List.forall_mem_cons, List.map_cons, List.nodup_cons]
  simp only [List.mem_cons, not_or, List.mem_map, not_exists, not_and]
  constructor
  · rintro ⟨⟨hx, hxs⟩, hnot, hnodup⟩
    exact ⟨hx, fun y hy => ⟨hnot y hy, hxs y hy⟩, hnodup⟩
  · rintro ⟨hx, hxs, hnodup⟩
    exact ⟨⟨hx, fun y hy => (hxs y hy).2⟩, fun y hy => (hxs y hy).1, hnodup⟩

theorem groupFaults_eq_nil {seen : List String} {position : Nat} {groups : List Group} :
    groupFaults seen position groups = []
      ↔ (∀ group ∈ groups,
          (group.name ≠ "" ∧ group.name.toList ∈ groupPattern) ∧ IsUniform group)
        ∧ (∀ group ∈ groups, group.name ∉ seen) ∧ (groups.map Group.name).Nodup := by
  induction groups generalizing seen position with
  | nil => simp [groupFaults]
  | cons group groups ih =>
    have hnamed : (do
        checkGroupName group.name
        if seen.contains group.name then
          throw (Fault.cause (.duplicate "group names" group.name)) : Checked Unit) = .ok ()
        ↔ (group.name ≠ "" ∧ group.name.toList ∈ groupPattern) ∧ group.name ∉ seen := by
      rw [Checked.bind_eq_ok, ← checkGroupName_eq_ok, ← List.contains_iff_mem]
      constructor
      · rintro ⟨_, hname, hseen⟩
        refine ⟨hname, fun hmem => ?_⟩
        rw [if_pos hmem] at hseen
        exact absurd hseen nofun
      · exact fun ⟨hname, hseen⟩ => ⟨(), hname, if_neg hseen⟩
    rw [fresh_cons, List.forall_mem_cons]
    unfold groupFaults
    dsimp only
    rw [List.append_eq_nil_iff, List.append_eq_nil_iff, faultAt_eq_nil, faultAt_eq_nil, hnamed,
      checkGroupKind_eq_ok, ih]
    tauto

theorem moduleFaults_eq_nil {catalog : Catalog} {seen : List String}
    {entries : List (Location × Module)} : moduleFaults catalog seen entries = []
      ↔ (∀ entry ∈ entries, IsWellFormedModule catalog entry.2)
        ∧ (∀ entry ∈ entries, entry.2.id ∉ seen) ∧ (entries.map fun entry => entry.2.id).Nodup := by
  induction entries generalizing seen with
  | nil => simp [moduleFaults]
  | cons entry entries ih =>
    obtain ⟨place, module⟩ := entry
    have hfaults : moduleFaults catalog seen ((place, module) :: entries) = []
        ↔ (module.id ∉ seen ∧ IsWellFormedModule catalog module)
          ∧ moduleFaults catalog (module.id :: seen) entries = [] := by
      rw [moduleFaults]
      simp only [List.append_eq_nil_iff, faultAt_eq_nil, checkId_eq_ok, checkSource_eq_ok]
      refine and_congr_left fun _ => ?_
      constructor
      · rintro ⟨⟨⟨hrepeated, hid⟩, hsource⟩, hinterface⟩
        refine ⟨fun hmem => ?_, hid, hsource, (interfaceFaults_eq_nil hsource.1).mp hinterface⟩
        have hempty : ¬ module.id.isEmpty := mt String.isEmpty_iff.mp hid.1
        simp [hempty, hmem] at hrepeated
      · rintro ⟨hseen, hid, hsource, hinterface⟩
        refine ⟨⟨⟨if_neg ?_, hid⟩, hsource⟩, (interfaceFaults_eq_nil hsource.1).mpr hinterface⟩
        simp [hseen]
    rw [hfaults, ih, fresh_cons, List.forall_mem_cons]
    tauto

/-! ## Where faults are found -/

/-- The faults of a group are found at its name and at its modules. -/
theorem exists_of_mem_groupFaults {seen : List String} {position : Nat} {groups : List Group}
    {fault : Fault} (h : fault ∈ groupFaults seen position groups) :
    ∃ i f c, (f = .group ∨ f = .modules) ∧ fault = .located ((Location.group i).field f) c := by
  induction groups generalizing seen position with
  | nil => exact absurd h List.not_mem_nil
  | cons group groups ih =>
    unfold groupFaults at h
    rcases List.mem_append.mp h with hgroup | hrest
    · rcases List.mem_append.mp hgroup with hname | hkind
      · obtain ⟨c, -, hc⟩ := mem_faultAt.mp hname
        exact ⟨position, .group, c, .inl rfl, hc⟩
      · obtain ⟨c, -, hc⟩ := mem_faultAt.mp hkind
        exact ⟨position, .modules, c, .inr rfl, hc⟩
    · exact ih hrest

def idCauses (id : String) : List Cause :=
  [.duplicate "module IDs" id, .emptyModuleId, .reservedModuleId id]

/-- A fault at the id of a module at a place, or below another of its fields. -/
def IsModuleFault (place : Location) (fault : Fault) : Prop :=
  (∃ id, ∃ c ∈ idCauses id, fault = .located (place.field .id) (.cause c))
    ∨ ∃ f more c, f ≠ .id ∧ fault = .located ⟨place.steps ++ .field f :: more⟩ c

theorem isModuleFault_of_interfaceFaults {catalog : Catalog} {place : Location} {module : Module}
    {fault : Fault} (h : fault ∈ interfaceFaults catalog place module) :
    IsModuleFault place fault := by
  unfold interfaceFaults at h
  split at h
  · rcases List.mem_append.mp h with hsetting | houtput
    · obtain ⟨name, -, hname⟩ := List.mem_filterMap.mp hsetting
      obtain ⟨c, -, rfl⟩ := Option.map_eq_some_iff.mp hname
      exact .inr ⟨.settings, [.key name], c, by decide,
        by simp [Location.key, Location.field, Location.child]⟩
    · obtain ⟨⟨output, i⟩, -, hname⟩ := List.mem_filterMap.mp houtput
      dsimp only at hname
      split at hname
      · exact absurd hname (by simp)
      · exact .inr ⟨.outputs, [.index i, .field .name], .cause (.invalidOutput output.name),
          by decide,
          by simp [← Option.some.inj hname, Location.index, Location.field, Location.child]⟩
  · next c _ =>
    split at h
    · exact absurd h List.not_mem_nil
    · exact .inr ⟨.source, [], c, by decide, List.mem_singleton.mp h⟩

theorem exists_of_mem_moduleFaults {catalog : Catalog} {seen : List String}
    {entries : List (Location × Module)} {fault : Fault}
    (h : fault ∈ moduleFaults catalog seen entries) :
    ∃ entry ∈ entries, IsModuleFault entry.1 fault := by
  induction entries generalizing seen with
  | nil => exact absurd h List.not_mem_nil
  | cons entry entries ih =>
    obtain ⟨place, module⟩ := entry
    unfold moduleFaults at h
    rcases List.mem_append.mp h with hmodule | hrest
    · refine ⟨(place, module), List.mem_cons_self, ?_⟩
      rcases List.mem_append.mp hmodule with hmodule | hinterface
      · rcases List.mem_append.mp hmodule with hid | hsource
        · rcases List.mem_append.mp hid with hrepeated | hid
          · obtain ⟨c, hc, rfl⟩ := mem_faultAt.mp hrepeated
            split at hc
            · exact .inl ⟨module.id, _, List.mem_cons_self, Except.error.inj hc ▸ rfl⟩
            · exact absurd hc nofun
          · obtain ⟨c, hc, rfl⟩ := mem_faultAt.mp hid
            unfold checkId at hc
            split at hc
            · exact .inl ⟨module.id, .emptyModuleId, by simp [idCauses],
                Except.error.inj hc ▸ rfl⟩
            · split at hc
              · exact .inl ⟨module.id, .reservedModuleId module.id, by simp [idCauses],
                  Except.error.inj hc ▸ rfl⟩
              · exact absurd hc nofun
        · obtain ⟨c, -, rfl⟩ := mem_faultAt.mp hsource
          exact .inr ⟨.source, [], c, nofun, rfl⟩
      · exact isModuleFault_of_interfaceFaults hinterface
    · obtain ⟨entry, hentry, hfault⟩ := ih hrest
      exact ⟨entry, List.mem_cons_of_mem _ hentry, hfault⟩

theorem isLocated_of_mem_faults {bp : Blueprint} {catalog : Catalog} {fault : Fault}
    (h : fault ∈ faults bp catalog) : fault.IsLocated := by
  rcases List.mem_append.mp h with hgroup | hmodule
  · obtain ⟨_, _, c, -, rfl⟩ := exists_of_mem_groupFaults hgroup
    exact ⟨_, c, rfl⟩
  · obtain ⟨_, -, ⟨_, c, -, rfl⟩ | ⟨_, _, c, -, rfl⟩⟩ := exists_of_mem_moduleFaults hmodule
    · exact ⟨_, .cause c, rfl⟩
    · exact ⟨_, c, rfl⟩

/-! ## The check -/

theorem check_eq_ok {bp : Blueprint} {catalog : Catalog} :
    check bp catalog = .ok () ↔ IsWellFormed bp catalog := by
  have hmodules : bp.placedModules.map (fun entry => entry.2.id) = bp.moduleIds := by
    rw [Blueprint.moduleIds, ← Blueprint.map_placedModules, List.map_map]
    rfl
  have hplaced : (∀ entry ∈ bp.placedModules, IsWellFormedModule catalog entry.2)
      ↔ ∀ module ∈ bp.modules, IsWellFormedModule catalog module := by
    rw [← Blueprint.map_placedModules, List.forall_mem_map]
  unfold check
  rw [Faults.checkAll_eq_ok fun _ => isLocated_of_mem_faults, faults, List.append_eq_nil_iff,
    groupFaults_eq_nil, moduleFaults_eq_nil, hmodules, hplaced]
  constructor
  · rintro ⟨⟨hgroups, -, hnames⟩, hmodules, -, hids⟩
    exact ⟨hgroups, hnames, hmodules, hids⟩
  · rintro ⟨hgroups, hnames, hmodules, hids⟩
    exact ⟨⟨hgroups, fun _ _ => List.not_mem_nil, hnames⟩, hmodules,
      fun _ _ => List.not_mem_nil, hids⟩

theorem nodup_groupNames {bp : Blueprint} {catalog : Catalog}
    (h : Structure.check bp catalog = .ok ()) : (bp.groups.map Group.name).Nodup :=
  (check_eq_ok.mp h).groupNames

theorem nodup_moduleIds {bp : Blueprint} {catalog : Catalog}
    (h : Structure.check bp catalog = .ok ()) : bp.moduleIds.Nodup := (check_eq_ok.mp h).moduleIds

/-! ## Repeated ids -/

section Repeated

variable {i j k l : Nat} {id : String} {fault : Fault}

def repeatedCause (id : String) : Cause := .duplicate "module IDs" id

def repeatedId (i j : Nat) (id : String) : Fault :=
  .located ((Location.module i j).field .id) (repeatedCause id)

theorem toList_message_repeatedCause (id : String) : (repeatedCause id).message.toList
    = "module IDs must be unique: ".toList ++ (id.toList ++ " used more than once".toList) := by
  have hmessage : (repeatedCause id).message
      = "module IDs must be unique: " ++ id ++ " used more than once" := rfl
  rw [hmessage, String.toList_append, String.toList_append, List.append_assoc]

theorem eq_of_message_idCauses {other : String} {c : Cause} (hc : c ∈ idCauses other)
    (h : c.message.toList = (repeatedCause id).message.toList) : c = repeatedCause id := by
  rw [toList_message_repeatedCause] at h
  rcases List.mem_cons.mp hc with rfl | hc
  · have hother : (repeatedCause other).message.toList
        = "module IDs must be unique: ".toList ++ (id.toList ++ " used more than once".toList) := h
    rw [toList_message_repeatedCause, List.append_cancel_left_eq,
      List.append_cancel_right_eq] at hother
    rw [String.toList_inj.mp hother]
    rfl
  · exfalso
    rcases List.mem_pair.mp hc with rfl | rfl
    · have hempty : "a module id cannot be empty".toList
          = "module IDs must be unique: ".toList
            ++ (id.toList ++ " used more than once".toList) := h
      simp at hempty
    · have hreserved : ("module id \"" ++ other ++ "\" is reserved for global variables").toList
          = "module IDs must be unique: ".toList
            ++ (id.toList ++ " used more than once".toList) := h
      simp at hreserved

theorem message_ne_of_mem_groupFaults {seen : List String} {position : Nat} {groups : List Group}
    (h : fault ∈ groupFaults seen position groups) :
    fault.message ≠ (repeatedId i j id).message := by
  obtain ⟨k, f, c, hf, rfl⟩ := exists_of_mem_groupFaults h
  intro heq
  have htext := congrArg String.toList heq
  rw [repeatedId, Fault.toList_message_field (Location.steps_group k),
    Fault.toList_message_field (Location.steps_module i j), Location.toList_text_module,
    List.append_assoc] at htext
  obtain ⟨-, hrest⟩ := Location.text_group_inj htext
  rcases hf with rfl | rfl
  · simp [Location.Field.text] at hrest
  · simp [Location.Field.text] at hrest

/-- No other field of a module has a name that starts like that of the id. -/
theorem text_ne_id {f : Location.Field} (h : f ≠ .id) (x y : List Char) :
    f.text.toList ++ x ≠ Location.Field.id.text.toList ++ y := by
  cases f with
  | id => exact absurd rfl h
  | _ => simp [Location.Field.text]

/-- No other fault has the wording of one of a repeated id. -/
theorem eq_repeatedId_of_message (h : IsModuleFault (.module k l) fault)
    (heq : fault.message = (repeatedId i j id).message) : fault = repeatedId i j id := by
  have htext := congrArg String.toList heq
  rw [repeatedId, Fault.toList_message_field (Location.steps_module i j)] at htext
  rcases h with ⟨other, c, hc, rfl⟩ | ⟨f, more, c, hf, rfl⟩
  · rw [Fault.toList_message_field (Location.steps_module k l)] at htext
    obtain ⟨rfl, rfl, hrest⟩ := Location.text_module_inj htext
    simp only [List.cons.injEq, true_and, List.append_cancel_left_eq] at hrest
    rw [eq_of_message_idCauses hc hrest]
    rfl
  · obtain ⟨rest, hbelow⟩ :=
      Location.exists_text_below (Location.steps_module k l) (.field f) more
    rw [Fault.toList_message_located, hbelow, String.toList_append, String.toList_append,
      List.append_assoc, List.append_assoc] at htext
    obtain ⟨-, -, hrest⟩ := Location.text_module_inj htext
    have htail : (Location.Step.field f).tail.toList = '.' :: f.text.toList := by
      simp [Location.Step.tail]
    rw [htail, List.cons_append] at hrest
    exact absurd (List.cons.inj hrest).2 (text_ne_id hf _ _)

/-- A module whose id was seen has the fault of a repeated id. -/
theorem repeatedId_mem_moduleFaults {catalog : Catalog} {seen : List String}
    {earlier later : List (Location × Module)} {module : Module} (hid : module.id ≠ "")
    (hseen : module.id ∈ seen ∨ ∃ entry ∈ earlier, entry.2.id = module.id) :
    repeatedId i j module.id
      ∈ moduleFaults catalog seen (earlier ++ (.module i j, module) :: later) := by
  induction earlier generalizing seen with
  | nil =>
    have hmem : module.id ∈ seen := hseen.resolve_right (by simp)
    have hempty : ¬ module.id.isEmpty := mt String.isEmpty_iff.mp hid
    have hrepeated : (!module.id.isEmpty && seen.contains module.id) = true := by
      simp [hempty, hmem]
    rw [List.nil_append, moduleFaults]
    simp only [hrepeated, if_true]
    exact List.mem_append_left _ (List.mem_append_left _ (List.mem_append_left _
      (List.mem_append_left _ List.mem_cons_self)))
  | cons first earlier ih =>
    obtain ⟨place, other⟩ := first
    rw [List.cons_append, moduleFaults]
    refine List.mem_append_right _ (ih ?_)
    rcases hseen with hmem | ⟨entry, hentry, heq⟩
    · exact .inl (List.mem_cons_of_mem _ hmem)
    · rcases List.mem_cons.mp hentry with rfl | hentry
      · exact .inl (heq ▸ List.mem_cons_self)
      · exact .inr ⟨entry, hentry, heq⟩

/-- The check passes exactly if the structure is right, and reports each repeated id where it is
repeated. -/
theorem check_iff_isWellFormed (bp : Blueprint) (catalog : Catalog) :
    (check bp catalog = .ok () ↔ IsWellFormed bp catalog)
      ∧ ∀ {i j k l first second}, bp.moduleAt? (i, j) = some first →
        bp.moduleAt? (k, l) = some second → Blueprint.Before (i, j) (k, l) →
        first.id = second.id → second.id ≠ "" →
        ∃ fault, check bp catalog = .error fault
          ∧ .located ((Location.module k l).field .id) (Cause.duplicate "module IDs" second.id)
            ∈ fault.parts := by
  refine ⟨check_eq_ok, fun {i j k l first second} hfirst hsecond hbefore hid hne => ?_⟩
  obtain ⟨earlier, later, hsplit, hearlier⟩ :=
    Blueprint.placedModules_split hfirst hsecond hbefore
  have hmem : repeatedId k l second.id ∈ faults bp catalog := by
    refine List.mem_append_right _ ?_
    rw [hsplit]
    exact repeatedId_mem_moduleFaults hne (.inr ⟨_, hearlier, hid⟩)
  obtain ⟨fault, hfault, part, hpart, hlisted, hmessage⟩ :=
    Faults.exists_part_of_mem (fun _ => isLocated_of_mem_faults) hmem
  refine ⟨fault, hfault, ?_⟩
  -- What is kept has the same wording, and no fault but this one has it.
  have heq : part = repeatedId k l second.id := by
    rcases List.mem_append.mp hlisted with hgroup | hmodule
    · exact absurd hmessage (message_ne_of_mem_groupFaults hgroup)
    · obtain ⟨⟨place, module⟩, hentry, hplace⟩ := exists_of_mem_moduleFaults hmodule
      obtain ⟨m, n, rfl, -⟩ := Blueprint.mem_placedModules.mp hentry
      exact eq_repeatedId_of_message hplace hmessage
  rwa [heq] at hpart

end Repeated

def networkCatalog : Catalog := ⟨.ofList [
  ("modules/network/vpc", { interface := { inputs := [{ name := "zone" }] } })]⟩

def networks (first second : String) : Blueprint where
  name := "networks"
  groups := [
    { name := "early", modules := [{ source := "modules/network/vpc", id := first }] },
    { name := "late", modules := [{ source := "modules/network/vpc", id := second }] }]

theorem check_iff_isWellFormed_of_networks :
    IsWellFormed (networks "front" "back") networkCatalog
      ∧ ∃ fault, check (networks "twin" "twin") networkCatalog = .error fault
        ∧ .located ((Location.module 1 0).field .id) (Cause.duplicate "module IDs" "twin")
          ∈ fault.parts :=
  ⟨(check_iff_isWellFormed (networks "front" "back") networkCatalog).1.mp rfl,
    (check_iff_isWellFormed (networks "twin" "twin") networkCatalog).2 (i := 0) (j := 0) (k := 1)
      (l := 0) rfl rfl (.inl Nat.one_pos) rfl (by decide)⟩

end ClusterBlueprint.Structure
