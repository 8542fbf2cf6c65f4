import ClusterBlueprint.Proofs.Blueprint.GroupOrder
import ClusterBlueprint.Proofs.Blueprint.Passes
import ClusterBlueprint.Proofs.Staging.Legible

/-!
The staging of the settings of a blueprint.

Staging reads expressions back from their texts, and comes after the order of the groups was
checked.  If it brings no reference into the expressions of the settings, it brings none to a later
group.
-/

namespace ClusterBlueprint

/-! ## Dictionaries -/

theorem Dict.result_mapValues (dict : Dict) (f : String → Value → Evaluation Value) :
    (dict.mapValues f).result = dict.mapValues fun name value => (f name value).result := by
  unfold mapValues
  rw [Evaluation.result_foldlM]
  congr 1
  funext image ⟨name, entry⟩
  rw [Evaluation.result_bind]
  rfl

/-- What the images of the values refer to, the image of a dictionary refers to. -/
theorem Dict.refersBy_of_mapValues {p : Reference → Prop} {dict image : Dict}
    {f : String → Value → Checked Value} (h : dict.mapValues f = .ok image)
    (hf : ∀ name value, f name (dict.get name) = .ok value → ∀ reference ∈ value.references,
      p reference) : image.RefersBy p := by
  refine Checked.foldlM_keeps (Dict.RefersBy p) ?_ (fun x hx before next hp hnext => ?_) h
  · exact fun _ reference href => absurd href List.not_mem_nil
  · obtain ⟨name, entry⟩ := x
    obtain ⟨value, hvalue, hreturn⟩ := Checked.bind_eq_ok.mp hnext
    obtain rfl : before.setEntry name { entry with value } = next := Except.ok.inj hreturn
    have hentry : dict.find? name = some entry := dict.entries.ordered.find?_of_mem hx
    have hget : dict.get name = entry.value := by rw [Dict.get, hentry]
    exact hp.setEntry (hf name value (hget ▸ hvalue))

def Dict.KeepsReferences (dict : Dict) : Prop :=
  ∀ name, ∀ e ∈ (dict.get name).expressions, e.KeepsReferences

/-! ## Blueprints -/

theorem Blueprint.result_mapModules (bp : Blueprint) (f : Location → Module → Evaluation Module) :
    (bp.mapModules f).result = bp.mapModules fun place module => (f place module).result := by
  unfold mapModules
  rw [Evaluation.result_bind, Evaluation.result_mapM]
  congr 2
  funext ⟨group, i⟩
  rw [Evaluation.result_bind, Evaluation.result_mapM]
  rfl

namespace Blueprint

/-- Staging brings no reference into the settings of a blueprint. -/
def KeepsReferences (bp : Blueprint) : Prop :=
  ∀ module ∈ bp.modules, module.settings.KeepsReferences

def stageModule (bp : Blueprint) (place : Location) (module : Module) : Evaluation Module := do
  let settings ← module.settings.mapValues fun name value =>
    (Staging.stageValue bp.vars.values value).located (place.setting name)
  return { module with settings }

variable {bp out : Blueprint} {i j : Nat} {module : Module}

theorem stageSettings_eq_ok : bp.stageSettings = .ok out ↔ ∃ image,
    bp.mapModules (fun place module => (bp.stageModule place module).result) = .ok image
      ∧ { bp with
          staged := bp.staged.recordAll bp.directory (bp.mapModules bp.stageModule).staged,
          groups := image.groups } = out := by
  have hstage : bp.stageSettings = (bp.mapModules bp.stageModule).result >>= fun image =>
      .ok { bp with
        staged := bp.staged.recordAll bp.directory (bp.mapModules bp.stageModule).staged,
        groups := image.groups } := by
    show (bp.evaluating (bp.mapModules bp.stageModule) >>= fun _ => _) = _
    rw [evaluating, bind_assoc]
    rfl
  rw [hstage, result_mapModules, Checked.bind_eq_ok]
  simp only [Except.ok.injEq]

theorem stageModule_eq_ok {place : Location} {original : Module} :
    (bp.stageModule place original).result = .ok module ↔ ∃ settings,
      original.settings.mapValues (fun name value =>
          ((Staging.stageValue bp.vars.values value).located (place.setting name)).result)
        = .ok settings ∧ { original with settings } = module := by
  unfold stageModule
  rw [Evaluation.result_bind, Dict.result_mapValues, Checked.bind_eq_ok]
  exact exists_congr fun settings => and_congr_right fun _ =>
    ⟨fun h => Except.ok.inj h, congrArg Except.ok⟩

/-- A module with staged settings is one with settings that refer to what was referred to before. -/
theorem exists_original_of_stageSettings (hkeeps : bp.KeepsReferences)
    (h : bp.stageSettings = .ok out)
    (hmodule : out.Placed i module) : ∃ original settings, bp.Placed i original
      ∧ module = { original with settings } ∧ settings.RefersBy fun reference =>
        ∃ name, reference ∈ (original.settings.get name).references := by
  obtain ⟨image, hmap, rfl⟩ := stageSettings_eq_ok.mp h
  have himage : image.Placed i module := hmodule
  obtain ⟨place, original, horiginal, hok⟩ := (mapped_of_mapModules hmap).back himage
  obtain ⟨settings, hsettings, rfl⟩ := stageModule_eq_ok.mp hok
  refine ⟨original, settings, horiginal, rfl,
    Dict.refersBy_of_mapValues hsettings fun name value hvalue reference href => ?_⟩
  rw [Evaluation.result_located] at hvalue
  have hexpressions := hkeeps original (mem_modules.mpr ⟨i, horiginal⟩) name
  exact ⟨name, Staging.references_stageValue_subset hexpressions (Checked.mapError_eq_ok.mp hvalue)
    href⟩

/-- Staging leaves the groups and the modules where they are. -/
theorem outline_of_stageSettings (h : bp.stageSettings = .ok out) : out.outline = bp.outline := by
  obtain ⟨image, hmap, rfl⟩ := stageSettings_eq_ok.mp h
  have houtline : image.outline = bp.outline :=
    outline_of_mapModules hmap fun place original module hread => by
      obtain ⟨settings, -, rfl⟩ := stageModule_eq_ok.mp hread
      rfl
  exact houtline

theorem vars_of_stageSettings (h : bp.stageSettings = .ok out) : out.vars = bp.vars := by
  obtain ⟨image, -, rfl⟩ := stageSettings_eq_ok.mp h
  rfl

/-- Staging leads to no new reference between groups. -/
theorem refers_of_stageSettings (hkeeps : bp.KeepsReferences) (h : bp.stageSettings = .ok out)
    (hrefers : out.Refers i j) : bp.Refers i j := by
  obtain ⟨hne, module, hmodule, name, reference, href, target, htarget, hid⟩ := hrefers
  obtain ⟨original, settings, horiginal, rfl, hreferences⟩ :=
    exists_original_of_stageSettings hkeeps h hmodule
  obtain ⟨producer, _, hproducer, rfl, -⟩ := exists_original_of_stageSettings hkeeps h htarget
  obtain ⟨setting, hsetting⟩ := hreferences name reference href
  exact ⟨hne, original, horiginal, setting, reference, hsetting, producer, hproducer, hid⟩

end Blueprint

end ClusterBlueprint
