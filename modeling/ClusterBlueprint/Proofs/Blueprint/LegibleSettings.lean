import ClusterBlueprint.Proofs.Blueprint.GlobalSettings
import ClusterBlueprint.Proofs.Blueprint.MergedLabels
import ClusterBlueprint.Proofs.Blueprint.StagedSettings
import ClusterBlueprint.Proofs.Blueprint.Prepared
import ClusterBlueprint.Proofs.Blueprint.Uses

/-!
Settings from which staging learns of no new reference.

What an author writes is legible but for open dollars, and labels are merged as values, so they stay
legible.  The other passes write references to modules and variables under their names, and lists of
such references; these show no staging call if none of the names spells one.
-/

namespace ClusterBlueprint

section Dict

variable {dict : Dict} {name : String}

theorem Dict.get_of_find? {entry : Entry} (h : dict.find? name = some entry) :
    dict.get name = entry.value := by rw [Dict.get, h]

/-- A dictionary may be checked entry by entry. -/
theorem Dict.keepsReferences_iff : dict.KeepsReferences ↔ ∀ name entry,
    dict.find? name = some entry → ∀ e ∈ entry.value.expressions, e.KeepsReferences := by
  refine forall_congr' fun name => ?_
  cases hentry : dict.find? name with
  | none =>
    rw [Dict.get, hentry]
    exact ⟨fun _ entry heq => absurd heq.symm (Option.some_ne_none entry),
      fun _ => List.forall_mem_nil _⟩
  | some entry =>
    rw [Dict.get_of_find? hentry]
    exact ⟨fun h _ heq => Option.some.inj heq ▸ h, fun h => h entry rfl⟩

end Dict

/-- Whether an entry is an expression whose text spells no staging call. -/
def Entry.IsPlain (entry : Entry) : Prop :=
  ∃ e, entry.value = .expression e ∧ ¬ Staging.Spelled e.text

theorem Entry.IsPlain.keepsReferences {entry : Entry} (h : entry.IsPlain) :
    ∀ e ∈ entry.value.expressions, e.KeepsReferences := by
  obtain ⟨e, he, hplain⟩ := h
  rw [he]
  exact List.forall_mem_singleton.mpr
    (Expression.keepsReferences_of_not_showsStaging (mt Staging.spelled_of_showsStaging hplain))

/-- What an author wrote: legible expressions, or outside of labels, such that show no staging
call. -/
def Dict.IsLegible (dict : Dict) : Prop :=
  ∀ name, ∀ e ∈ (dict.get name).expressions,
    e.IsLegible ∨ name ≠ Labels.labelsName ∧ ¬ e.ShowsStaging

theorem Dict.IsLegible.keepsReferences {dict : Dict} (h : dict.IsLegible) :
    dict.KeepsReferences := fun name e he =>
  (h name e he).elim (·.keepsReferences) fun ⟨_, hhidden⟩ =>
    Expression.keepsReferences_of_not_showsStaging hhidden

/-- Settings read from texts in which no dollar stands directly before an interpolation. -/
theorem Dict.isLegible_of_read {dict : Dict}
    (h : ∀ name, ∀ e ∈ (dict.get name).expressions,
      e.HasNoOpenDollar ∧ ∃ s, Literal.read s = .ok (.expression e)) : dict.IsLegible := by
  intro name e he
  obtain ⟨hdollar, s, hread⟩ := h name e he
  exact .inl (.written (Literal.isWritten_of_read hread hdollar))

/-! ## Labels -/

namespace Labels

variable {catalog : Catalog} {place : Location} {module image : Module}

theorem isLegible_globalLabels : (Expression.ofReference (.global labelsName)).IsLegible := by
  refine .written (.inl (.inr ⟨Reference.globalRoot, [labelsName], rfl, .inl rfl, ?_⟩))
  exact List.forall_mem_singleton.mpr (by decide)

/-- Labels are merged as values. -/
theorem keepsReferences_of_mergeModule (hsettings : module.settings.IsLegible)
    (h : mergeModule catalog place module = .ok image) :
    image.settings.KeepsReferences ∧ image.uses = module.uses ∧ image.source = module.source := by
  obtain ⟨interface, -, hmerged⟩ := mergeModule_eq_ok.mp h
  split at hmerged
  · obtain ⟨args, hargs, rfl⟩ := hmerged
    refine ⟨fun name => ?_, rfl, rfl⟩
    by_cases hname : name = labelsName
    · subst hname
      have hown : ∀ e ∈ (module.settings.get labelsName).expressions, e.IsLegible := fun e he =>
        (hsettings labelsName e he).resolve_right fun hother => hother.1 rfl
      have hlegible := expressions_mergeArgs (List.forall_mem_singleton.mpr rfl) hargs
        isLegible_globalLabels hown
      have hcall : (Value.callOf "merge" args).IsLegible := .call (by decide) hlegible
      have hget : (relabelled module args).settings.get labelsName
          = .expression (Value.callOf "merge" args) := Dict.get_setEntry_self ..
      rw [hget]
      exact List.forall_mem_singleton.mpr hcall.keepsReferences
    · have hget : (relabelled module args).settings.get name = module.settings.get name :=
        Dict.get_setEntry_of_ne hname _
      rw [hget]
      exact hsettings.keepsReferences name
  · obtain rfl := hmerged
    exact ⟨hsettings.keepsReferences, rfl, rfl⟩

end Labels

/-! ## Uses and global variables -/

/-- Whether no name of an input of the modules at a source spells a staging call. -/
def Catalog.HasPlainInputs (catalog : Catalog) (source : String) : Prop :=
  ∀ kind interface, catalog.interface source kind = .ok interface →
    ∀ input ∈ interface.inputs, ¬ Staging.Spelled input.name

theorem Catalog.hasPlainInputs_of_entries {catalog : Catalog}
    (h : ∀ entry ∈ catalog.modules.toList, ∀ input ∈ entry.2.interface.inputs,
      ¬ Staging.Spelled input.name) (source : String) : catalog.HasPlainInputs source := by
  intro kind interface hinterface
  unfold Catalog.interface at hinterface
  split at hinterface
  · next entry hentry =>
    split at hinterface
    · obtain rfl := Except.ok.inj hinterface
      exact h _ (Fields.mem_of_find? hentry)
    · exact absurd hinterface nofun
  · exact absurd hinterface nofun

namespace Use

open Staging (Spelled)

variable {bp : Blueprint} {catalog : Catalog} {place : Location} {module image : Module}
  {id key : String}

theorem isPlain_offered {isList : Bool} {entry : Option Entry} (hid : ¬ Spelled id)
    (hkey : ¬ Spelled key) (h : ∀ existing ∈ entry, existing.IsPlain) :
    ∀ next ∈ offered isList key entry id, next.IsPlain := by
  have hnew : ¬ Spelled (Expression.ofReference (.ofModule id key)).text := fun h =>
    (Staging.spelled_ofReference_output h).elim hid hkey
  rintro next hnext
  cases entry with
  | none =>
    obtain rfl := Option.some.inj hnext
    exact ⟨_, rfl, hnew⟩
  | some existing =>
    obtain rfl := Option.some.inj hnext
    obtain ⟨value, fromUse⟩ := existing
    obtain ⟨e, rfl, he⟩ := h _ rfl
    split
    · exact ⟨_, rfl, fun h => (Staging.spelled_flatten h).elim hnew he⟩
    · exact ⟨e, rfl, he⟩

theorem isPlain_foldl_offered {isList : Bool} {ids : List String} (hids : ∀ id ∈ ids, ¬ Spelled id)
    (hkey : ¬ Spelled key) {entry : Option Entry} (h : ∀ existing ∈ entry, existing.IsPlain) :
    ∀ next ∈ ids.foldl (offered isList key) entry, next.IsPlain := by
  induction ids generalizing entry with
  | nil => exact h
  | cons id ids ih =>
    obtain ⟨hid, hids⟩ := List.forall_mem_cons.mp hids
    exact ih hids (isPlain_offered hid hkey h)

/-- What the uses of a module add to its settings is plain, if the names in it are. -/
theorem keepsReferences_of_applyModule (hids : bp.moduleIds.Nodup)
    (huses : ∀ used ∈ module.uses, ¬ Spelled used)
    (hinputs : catalog.HasPlainInputs module.source)
    (hsettings : module.settings.KeepsReferences)
    (h : applyModule bp catalog place module = .ok image) :
    image.settings.KeepsReferences ∧ image.source = module.source := by
  obtain ⟨settings, rfl, ⟨-, rfl⟩ | ⟨interface, hinterface, hentry⟩⟩ := find?_of_applyModule hids h
  · exact ⟨hsettings, rfl⟩
  · refine ⟨?_, rfl⟩
    refine Dict.keepsReferences_iff.mpr fun key entry hfound => ?_
    rw [hentry] at hfound
    cases hwritten : module.settings.find? key with
    | some written =>
      have hkey : key ∈ module.settings.keys :=
        Dict.has_iff_mem_keys.mp (SortedMap.contains_iff_exists.mpr ⟨written, hwritten⟩)
      have hnone : unwritten? interface module.settings.keys key = none :=
        if_pos (List.contains_iff_mem.mpr hkey)
      rw [hnone, hwritten] at hfound
      exact Dict.keepsReferences_iff.mp hsettings key entry (hwritten.trans hfound)
    | none =>
      rw [hwritten] at hfound
      cases hinput : unwritten? interface module.settings.keys key with
      | none =>
        rw [hinput] at hfound
        exact absurd hfound nofun
      | some input =>
        rw [hinput] at hfound
        have hkey : ¬ Spelled key := by
          unfold unwritten? at hinput
          split at hinput
          · exact absurd hinput nofun
          · rw [← name_of_input? hinput]
            exact hinputs _ interface hinterface input (List.mem_of_find?_eq_some hinput)
        have hcontributors : ∀ id ∈ contributors bp catalog key module.uses, ¬ Spelled id :=
          fun id hid => huses id (mem_contributors.mp hid).1
        have hnothing : ∀ existing ∈ (none : Option Entry), existing.IsPlain := nofun
        exact (isPlain_foldl_offered hcontributors hkey hnothing entry hfound).keepsReferences

theorem keepsReferences_of_globalsModule
    (hinputs : catalog.HasPlainInputs module.source)
    (hsettings : module.settings.KeepsReferences)
    (h : globalsModule bp catalog place module = .ok image) : image.settings.KeepsReferences := by
  obtain ⟨interface, settings, hinterface, hfold, rfl⟩ := globalsModule_eq_ok h
  refine Dict.keepsReferences_iff.mpr fun key entry hfound => ?_
  have hfound : settings.find? key = some entry := hfound
  rw [find?_setGlobals hfold] at hfound
  rcases Option.or_eq_some_iff.mp hfound with hwritten | ⟨-, hfilled⟩
  · exact Dict.keepsReferences_iff.mp hsettings key entry hwritten
  · unfold filled at hfilled
    split at hfilled
    · next hinput =>
      obtain ⟨input, hmem, hname⟩ := List.any_eq_true.mp (Bool.and_eq_true_iff.mp hinput).2
      obtain rfl := of_decide_eq_true hname
      obtain rfl := Option.some.inj hfilled
      have hkey := hinputs _ interface hinterface input hmem
      have hplain : Entry.IsPlain ⟨.ofReference (.global input.name), []⟩ :=
        ⟨_, rfl, mt Staging.spelled_ofReference_global hkey⟩
      exact hplain.keepsReferences
    · exact absurd hfilled nofun

end Use

/-! ## Preparation -/

namespace Blueprint

variable {bp prepared : Blueprint} {catalog : Catalog} {options : ExpandOptions}

/-- A blueprint whose staging can be told from its settings: what is written in them is legible, and
no name in the references that follow from uses and variables spells a staging call. -/
structure IsLegible (bp : Blueprint) (catalog : Catalog) : Prop where
  settings : ∀ module ∈ bp.modules, module.settings.IsLegible
  uses : ∀ module ∈ bp.modules, ∀ used ∈ module.uses, ¬ Staging.Spelled used
  inputs : ∀ module ∈ bp.modules, catalog.HasPlainInputs module.source

theorem exists_of_placed_defaultKinds {i : Nat} {module : Module}
    (h : bp.defaultKinds.Placed i module) : ∃ original, bp.Placed i original
      ∧ module.settings = original.settings ∧ module.uses = original.uses
      ∧ module.source = original.source := by
  obtain ⟨image, himage, hmem⟩ := h
  unfold defaultKinds at himage
  rw [List.getElem?_map] at himage
  obtain ⟨group, hgroup, rfl⟩ := Option.map_eq_some_iff.mp himage
  obtain ⟨original, horiginal, rfl⟩ := List.mem_map.mp hmem
  refine ⟨original, ⟨group, hgroup, horiginal⟩, ?_⟩
  split <;> exact ⟨rfl, rfl, rfl⟩

/-- Staging brings no reference into what was prepared. -/
theorem keepsReferences_of_prepare (hlegible : bp.IsLegible catalog)
    (h : bp.prepare catalog options = .ok prepared) : prepared.KeepsReferences := by
  intro module hmodule
  obtain ⟨i, hplaced⟩ := mem_modules.mp hmodule
  obtain ⟨run, rfl⟩ := prepare_eq_ok.mp h
  -- From the last pass back to what was written.
  obtain ⟨completed, hcompleted, rfl⟩ := placed_populateOutputs hplaced
  obtain ⟨_, used, hused, hglobals⟩ := (mapped_of_mapModules run.completes).back hcompleted
  obtain ⟨_, evaluated, hevaluated, huses⟩ := (mapped_of_mapModules run.uses).back hused
  obtain ⟨labelled, hlabelled, hmap⟩ := Checked.bind_eq_ok.mp run.labels
  obtain ⟨labels, rfl⟩ := Labels.completeGlobal_eq hlabelled
  have hmerged : run.labelled.Placed i evaluated := by
    obtain ⟨vars, -, heq⟩ := evaluateVars_eq_ok.mp run.evaluates
    rw [← heq] at hevaluated
    exact Backends.placed_expand.mp hevaluated
  obtain ⟨_, kinded, hkinded, hmerge⟩ := (mapped_of_mapModules hmap).back hmerged
  obtain ⟨chosen, ⟨group, hgroup, hchosen⟩, hsettings, hchosenUses, hchosenSource⟩ :=
    exists_of_placed_defaultKinds hkinded
  rw [groups_of_applyOptions run.chooses] at hgroup
  have hwritten : chosen ∈ bp.modules := mem_modules.mpr ⟨i, group, hgroup, hchosen⟩
  have hids : run.evaluated.moduleIds.Nodup :=
    ((hasOwnNames_of_check run.isStructured).of_outline
      ((outline_of_evaluateVars run.evaluates).trans
      ((outline_backends _).trans (outline_of_combine run.labels)))).modules
  obtain ⟨hlabels, hmergedUses, hmergedSource⟩ := Labels.keepsReferences_of_mergeModule
    (hsettings ▸ hlegible.settings chosen hwritten) hmerge
  have hnames : ∀ used ∈ evaluated.uses, ¬ Staging.Spelled used := by
    rw [hmergedUses, hchosenUses]
    exact hlegible.uses chosen hwritten
  have hinputs : catalog.HasPlainInputs evaluated.source := by
    rw [hmergedSource, hchosenSource]
    exact hlegible.inputs chosen hwritten
  obtain ⟨hused, husedSource⟩ :=
    Use.keepsReferences_of_applyModule hids hnames hinputs hlabels huses
  rw [Intergroup.settings_declareOutputs]
  exact Use.keepsReferences_of_globalsModule (husedSource ▸ hinputs) hused hglobals

end Blueprint

end ClusterBlueprint
