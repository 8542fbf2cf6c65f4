import ClusterBlueprint.Proofs.Blueprint.Passes
import ClusterBlueprint.Proofs.Blueprint.Positions
import ClusterBlueprint.Proofs.Checked.First

/-!
What the global variables make of the settings of modules.

An input lacks a value if it is required and neither its module nor the blueprint sets its name.
What is set on the way has the name of a variable, so it does not supply an input that lacks a
value: the pass fails for the first such input of the first module that has one.
-/

namespace ClusterBlueprint

namespace Use

/-- Whether an input is required and its name is neither a setting nor a variable. -/
def Lacks (vars settings : Dict) (input : Input) : Prop :=
  input.required ∧ ¬ settings.has input.name ∧ ¬ vars.has input.name

section

variable {vars settings next last : Dict} {input : Input} {inputs : List Input} {id : String}
  {fault : Fault}

theorem setGlobal_eq_error :
    setGlobal vars id settings input = .error fault
      ↔ Lacks vars settings input ∧ fault = .cause (.missingSetting id input.name) := by
  unfold setGlobal Lacks
  by_cases hsettings : settings.has input.name
  · simp [hsettings]
  · by_cases hvars : vars.has input.name
    · simp [hsettings, hvars]
    · by_cases hrequired : input.required
      · simp [hsettings, hvars, hrequired, eq_comm]
      · simp [hsettings, hvars, hrequired]

/-- A setting is left as it is, or takes the variable of its name. -/
theorem setGlobal_eq_ok (h : setGlobal vars id settings input = .ok next) :
    next = settings ∧ (settings.has input.name ∨ ¬ vars.has input.name)
      ∨ next = settings.set input.name (.ofReference (.global input.name))
        ∧ ¬ settings.has input.name ∧ vars.has input.name := by
  unfold setGlobal at h
  split at h
  · next hhas => exact .inl ⟨(Except.ok.inj h).symm, .inl hhas⟩
  · next hnot =>
    split at h
    · next hvars => exact .inr ⟨(Except.ok.inj h).symm, hnot, hvars⟩
    · next hnone =>
      split at h
      · exact absurd h nofun
      · exact .inl ⟨(Except.ok.inj h).symm, .inr hnone⟩

theorem lacks_of_setGlobal (h : setGlobal vars id settings input = .ok next) (other : Input) :
    Lacks vars next other ↔ Lacks vars settings other := by
  rcases setGlobal_eq_ok h with ⟨rfl, -⟩ | ⟨rfl, -, hvars⟩
  · exact Iff.rfl
  · -- The name that was set is that of a variable, and what lacks a value has no variable.
    refine and_congr_right fun _ => and_congr_left fun hnot => not_congr ?_
    have hne : other.name ≠ input.name := fun heq => hnot (heq ▸ hvars)
    exact Dict.has_setEntry.trans (or_iff_right hne)

theorem foldlM_setGlobal_eq_error :
    inputs.foldlM (setGlobal vars id) settings = .error fault
      ↔ ∃ input, IsFirstWith (Lacks vars settings) inputs input
        ∧ fault = .cause (.missingSetting id input.name) := by
  induction inputs generalizing settings with
  | nil => exact ⟨nofun, fun ⟨_, h, _⟩ => absurd h not_isFirstWith_nil⟩
  | cons first inputs ih =>
    rw [List.foldlM_cons, Checked.bind_eq_error]
    constructor
    · rintro (h | ⟨next, hnext, hrest⟩)
      · obtain ⟨hlacks, rfl⟩ := setGlobal_eq_error.mp h
        exact ⟨first, isFirstWith_cons.mpr (.inl ⟨hlacks, rfl⟩), rfl⟩
      · obtain ⟨input, hfirst, rfl⟩ := ih.mp hrest
        refine ⟨input, isFirstWith_cons.mpr (.inr ⟨fun hlacks => ?_, ?_⟩), rfl⟩
        · exact absurd (hnext.symm.trans (setGlobal_eq_error.mpr ⟨hlacks, rfl⟩)) nofun
        · exact hfirst.congr fun other _ => lacks_of_setGlobal hnext other
    · rintro ⟨input, hfirst, rfl⟩
      rcases isFirstWith_cons.mp hfirst with ⟨hlacks, rfl⟩ | ⟨hnot, hrest⟩
      · exact .inl (setGlobal_eq_error.mpr ⟨hlacks, rfl⟩)
      · cases hnext : setGlobal vars id settings first with
        | error other => exact absurd (setGlobal_eq_error.mp hnext).1 hnot
        | ok next =>
          refine .inr ⟨next, rfl, ih.mpr ⟨input, ?_, rfl⟩⟩
          exact hrest.congr fun other _ => (lacks_of_setGlobal hnext other).symm

/-- The entry of a name that follows from the global variables: the variable of that name, if there
is an input of that name too. -/
def filled (vars : Dict) (inputs : List Input) (key : String) : Option Entry :=
  if vars.has key && inputs.any (·.name = key) then some ⟨.ofReference (.global key), []⟩ else none

theorem filled_cons (first : Input) (inputs : List Input) (key : String) :
    filled vars (first :: inputs) key
      = Option.or (filled vars [first] key) (filled vars inputs key) := by
  simp only [filled, List.any_cons, List.any_nil, Bool.or_false]
  by_cases hname : first.name = key
  · cases vars.has key <;> simp [hname]
  · simp [hname]

theorem find?_setGlobal (h : setGlobal vars id settings input = .ok next) (key : String) :
    next.find? key = Option.or (settings.find? key) (filled vars [input] key) := by
  by_cases hkey : key = input.name
  · subst hkey
    rcases setGlobal_eq_ok h with ⟨rfl, hhas | hnone⟩ | ⟨rfl, hnot, hvars⟩
    · obtain ⟨entry, hentry⟩ := SortedMap.contains_iff_exists.mp hhas
      have hentry : next.find? input.name = some entry := hentry
      rw [hentry, Option.some_or]
    · rw [filled, if_neg (by simp [hnone]), Option.or_none]
    · have hentry : settings.find? input.name = none := SortedMap.find?_eq_none hnot
      rw [hentry, Option.none_or, filled, if_pos (by simp [hvars])]
      exact Dict.find?_setEntry_self _ _ _
  · have hfilled : filled vars [input] key = none := if_neg (by simp [Ne.symm hkey])
    rw [hfilled, Option.or_none]
    rcases setGlobal_eq_ok h with ⟨rfl, -⟩ | ⟨rfl, -, -⟩
    · rfl
    · exact Dict.find?_setEntry_of_ne hkey _

theorem find?_setGlobals (h : inputs.foldlM (setGlobal vars id) settings = .ok last)
    (key : String) :
    last.find? key = Option.or (settings.find? key) (filled vars inputs key) := by
  induction inputs generalizing settings with
  | nil =>
    obtain rfl := Except.ok.inj h
    rw [filled, List.any_nil, Bool.and_false]
    exact (Option.or_none).symm
  | cons first inputs ih =>
    rw [List.foldlM_cons] at h
    obtain ⟨next, hnext, hlast⟩ := Checked.bind_eq_ok.mp h
    rw [ih hlast, find?_setGlobal hnext, Option.or_assoc, ← filled_cons]

end

variable {bp out : Blueprint} {catalog : Catalog} {module : Module} {interface : Interface}
  {place : Location} {fault : Fault}

/-- Whether some input of a module lacks a value. -/
def LacksInput (vars : Dict) (catalog : Catalog) (module : Module) : Prop :=
  ∃ interface, catalog.interface module.source module.kind = .ok interface
    ∧ ∃ input ∈ interface.inputs, Lacks vars module.settings input

theorem globalsModule_eq_error (h : catalog.interface module.source module.kind = .ok interface) :
    globalsModule bp catalog place module = .error fault
      ↔ ∃ input, IsFirstWith (Lacks bp.vars module.settings) interface.inputs input
        ∧ fault = .located (place.field .settings)
          (.cause (.missingSetting module.id input.name)) := by
  have hread : globalsModule bp catalog place module
      = (interface.inputs.foldlM (setGlobal bp.vars module.id) module.settings :
          Checked Dict).located (place.field .settings)
        >>= fun settings => pure { module with settings } := by
    unfold globalsModule
    rw [h]
    rfl
  rw [hread, Checked.bind_eq_error]
  constructor
  · rintro (hfold | ⟨_, _, hreturn⟩)
    · obtain ⟨inner, hinner, rfl⟩ := Checked.located_eq_error.mp hfold
      obtain ⟨input, hfirst, rfl⟩ := foldlM_setGlobal_eq_error.mp hinner
      exact ⟨input, hfirst, rfl⟩
    · exact absurd hreturn nofun
  · rintro ⟨input, hfirst, rfl⟩
    exact .inl (Checked.located_eq_error.mpr
      ⟨_, foldlM_setGlobal_eq_error.mpr ⟨input, hfirst, rfl⟩, rfl⟩)

def IsKnown (bp : Blueprint) (catalog : Catalog) : Prop :=
  ∀ module ∈ bp.modules, ∃ interface, catalog.interface module.source module.kind = .ok interface

theorem lacksInput_iff (h : catalog.interface module.source module.kind = .ok interface) :
    LacksInput bp.vars catalog module
      ↔ ∃ fault, globalsModule bp catalog place module = .error fault := by
  constructor
  · rintro ⟨_, hinterface, hlacks⟩
    obtain rfl := Except.ok.inj (h.symm.trans hinterface)
    obtain ⟨input, hfirst⟩ := exists_isFirstWith.mpr hlacks
    exact ⟨_, (globalsModule_eq_error h).mpr ⟨input, hfirst, rfl⟩⟩
  · rintro ⟨fault, hfault⟩
    obtain ⟨input, hfirst, -⟩ := (globalsModule_eq_error h).mp hfault
    exact ⟨interface, h, exists_isFirstWith.mp ⟨input, hfirst⟩⟩

/-- The pass fails for the first module with an input that lacks a value. -/
theorem applyGlobals_eq_error (hknown : IsKnown bp catalog) :
    applyGlobals bp catalog = .error fault ↔ ∃ place module,
      IsFirstWith (fun placed => LacksInput bp.vars catalog placed.2)
          bp.placedModules (place, module)
        ∧ globalsModule bp catalog place module = .error fault := by
  have hlacks : ∀ placed ∈ bp.placedModules, LacksInput bp.vars catalog placed.2
      ↔ ∃ fault, discard (globalsModule bp catalog placed.1 placed.2) = .error fault := by
    intro placed hplaced
    have hmem := List.mem_map_of_mem (f := Prod.snd) hplaced
    rw [Blueprint.map_placedModules] at hmem
    obtain ⟨interface, hinterface⟩ := hknown _ hmem
    simp only [Checked.discard_eq_error]
    exact lacksInput_iff hinterface
  rw [← Checked.discard_eq_error, applyGlobals, Blueprint.discard_mapModules, Checked.forM_eq_error]
  constructor
  · rintro ⟨⟨place, module⟩, hfirst, hfault⟩
    exact ⟨place, module, hfirst.congr fun placed hplaced => (hlacks placed hplaced).symm,
      Checked.discard_eq_error.mp hfault⟩
  · rintro ⟨place, module, hfirst, hfault⟩
    exact ⟨(place, module), hfirst.congr hlacks, Checked.discard_eq_error.mpr hfault⟩

theorem writesSettings_globalsModule (bp : Blueprint) (catalog : Catalog) :
    Blueprint.WritesSettings (globalsModule bp catalog) := by
  intro place module image h
  obtain ⟨_, settings, -, -, rfl⟩ := globalsModule_eq_ok h
  exact ⟨settings, rfl⟩

/-- What the global variables make of a blueprint. -/
structure FillsSettings (bp : Blueprint) (catalog : Catalog) : Prop where
  fails : (∃ fault, applyGlobals bp catalog = .error fault)
    ↔ ∃ module ∈ bp.modules, LacksInput bp.vars catalog module
  /-- the fault names the first module with an input that lacks a value, and its first such input -/
  names : ∀ {fault}, applyGlobals bp catalog = .error fault → ∃ place module interface input,
    IsFirstWith (fun placed => LacksInput bp.vars catalog placed.2) bp.placedModules (place, module)
      ∧ catalog.interface module.source module.kind = .ok interface
      ∧ IsFirstWith (Lacks bp.vars module.settings) interface.inputs input
      ∧ fault = .located (place.field .settings) (.cause (.missingSetting module.id input.name))
  keeps : ∀ {out}, applyGlobals bp catalog = .ok out → out.withoutSettings = bp.withoutSettings
  /-- the settings of a module are those before, and the variables that its inputs are named for -/
  sets : ∀ {out}, applyGlobals bp catalog = .ok out → ∀ {position module},
    bp.moduleAt? position = some module → ∃ interface settings,
      catalog.interface module.source module.kind = .ok interface
        ∧ out.moduleAt? position = some { module with settings }
        ∧ ∀ key, settings.find? key
          = Option.or (module.settings.find? key) (filled bp.vars interface.inputs key)

/-- Where all modules are known, the pass fails exactly if some input lacks a value, and it names
the first module that has one, and its first.  Else it adds to the settings of each module the
variables that its inputs are named for and that are not set, and leaves everything else. -/
theorem fillsSettings_of_isKnown (hknown : IsKnown bp catalog) : FillsSettings bp catalog := by
  have hmodules : ∀ module ∈ bp.modules, ∃ place, (place, module) ∈ bp.placedModules := by
    intro module hmem
    obtain ⟨_, hplaced⟩ := Blueprint.mem_modules.mp hmem
    exact Blueprint.exists_mem_placedModules hplaced
  have hplaced : ∀ {place module}, (place, module) ∈ bp.placedModules → module ∈ bp.modules := by
    intro place module hmem
    exact Blueprint.mem_modules.mpr (Blueprint.placed_of_mem_placedModules hmem)
  refine ⟨⟨?_, ?_⟩, fun {fault} hfault => ?_, fun {out} hout => ?_,
    fun {out} hout {position module} hmodule => ?_⟩
  · rintro ⟨fault, hfault⟩
    obtain ⟨place, module, hfirst, -⟩ := (applyGlobals_eq_error hknown).mp hfault
    exact ⟨module, hplaced hfirst.mem, hfirst.holds⟩
  · rintro ⟨module, hmem, hlacks⟩
    obtain ⟨place, hmem⟩ := hmodules module hmem
    have hsome : ∃ placed ∈ bp.placedModules, LacksInput bp.vars catalog placed.2 :=
      ⟨(place, module), hmem, hlacks⟩
    obtain ⟨⟨place, module⟩, hfirst⟩ := exists_isFirstWith.mpr hsome
    obtain ⟨interface, hinterface⟩ := hknown module (hplaced hfirst.mem)
    obtain ⟨fault, hfault⟩ := (lacksInput_iff hinterface).mp hfirst.holds
    exact ⟨fault, (applyGlobals_eq_error hknown).mpr ⟨place, module, hfirst, hfault⟩⟩
  · obtain ⟨place, module, hfirst, hread⟩ := (applyGlobals_eq_error hknown).mp hfault
    obtain ⟨interface, hinterface⟩ := hknown module (hplaced hfirst.mem)
    obtain ⟨input, hinput, rfl⟩ := (globalsModule_eq_error hinterface).mp hread
    exact ⟨place, module, interface, input, hfirst, hinterface, hinput, rfl⟩
  · exact Blueprint.withoutSettings_of_mapModules (writesSettings_globalsModule bp catalog) hout
  · have hat := Blueprint.moduleAt?_of_mapModules hout position.1 position.2
    rw [hmodule] at hat
    obtain ⟨image, himage, hread⟩ := Option.map_eq_some_iff.mp hat.symm
    obtain ⟨interface, settings, hinterface, hfold, rfl⟩ := globalsModule_eq_ok hread.symm
    exact ⟨interface, settings, hinterface, himage, find?_setGlobals hfold⟩

def machineCatalog : Catalog := ⟨.ofList [
  ("modules/compute/vm", { interface := { inputs := [
    { name := "zone", required := true }, { name := "project" },
    { name := "project", required := true }] } })]⟩

def machines : Blueprint where
  name := "machines"
  vars := .ofValues (.ofList [("zone", .string "a")])
  groups := [
    { name := "first", modules := [
      { source := "modules/compute/vm", id := "a",
        settings := .ofValues (.ofList [("project", .string "p")]) }] },
    { name := "second", modules := [{ source := "modules/compute/vm", id := "b" }] }]

theorem fillsSettings_of_isKnown_of_machines :
    IsKnown machines machineCatalog ∧ FillsSettings machines machineCatalog := by
  have hknown : IsKnown machines machineCatalog := by
    intro module (hmem : module ∈ [_, _])
    rcases List.mem_pair.mp hmem with rfl | rfl
    · exact ⟨_, rfl⟩
    · exact ⟨_, rfl⟩
  exact ⟨hknown, fillsSettings_of_isKnown hknown⟩

end Use

end ClusterBlueprint
