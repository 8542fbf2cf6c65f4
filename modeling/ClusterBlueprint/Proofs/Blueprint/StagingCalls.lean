import ClusterBlueprint.Proofs.Blueprint.Planned
import ClusterBlueprint.Proofs.Staging.Remaining

/-!
What an expansion makes of the staging calls of a blueprint.

The calls in variables and in settings enter the files they stage into the table of the blueprint.
Those in the configurations of backends are evaluated too, but what they stage is not entered.
-/

namespace ClusterBlueprint

/-! ## The sources that an expansion stages -/

namespace Backends

/-- A backend with its configuration evaluated, and the sources that were staged on the way. -/
def evaluation (bp : Blueprint) (place : Location) (backend : Backend) : Evaluation Backend := do
  let configuration ← (backend.configuration.eval bp.vars.values).located
    (place.field .configuration)
  return { backend with configuration }

/-- The blueprint with the configurations of all backends evaluated, and the sources that were
staged on the way. -/
def materialization (bp : Blueprint) : Evaluation Blueprint := do
  let backendDefaults ← evaluation bp (Location.root.field .backendDefaults) bp.backendDefaults
  let groups ← bp.groups.zipIdx.mapM fun (group, i) => do
    match group.backend with
    | none => return group
    | some backend =>
      let backend ← evaluation bp ((Location.group i).field .backend) backend
      return { group with backend := some backend }
  return { bp with backendDefaults, groups }

theorem result_evaluation (bp : Blueprint) (place : Location) (backend : Backend) :
    (evaluation bp place backend).result = evaluate bp place backend := by
  unfold evaluation
  rw [Evaluation.result_bind]
  rfl

theorem result_materialization (bp : Blueprint) :
    (materialization bp).result = materialize bp := by
  unfold materialization materialize
  rw [Evaluation.result_bind, result_evaluation]
  congr 1
  funext backendDefaults
  rw [Evaluation.result_bind, Evaluation.result_mapM]
  congr 2
  funext ⟨group, i⟩
  dsimp only
  cases group.backend with
  | none => rfl
  | some backend =>
    dsimp only
    rw [Evaluation.result_bind, result_evaluation]
    rfl

end Backends

namespace Blueprint

variable {bp out : Blueprint} {catalog : Catalog} {options : ExpandOptions} {e : Expression}

/-- The passes of an expansion before the evaluation of the variables. -/
def label (bp : Blueprint) (catalog : Catalog) (options : ExpandOptions) : Checked Blueprint := do
  let bp := (← bp.applyOptions options).defaultKinds
  Structure.check bp catalog
  References.check bp catalog
  return Backends.expand (← Labels.combine bp catalog)

/-- The passes of an expansion from the evaluation of the variables to the staging of settings. -/
def complete (bp : Blueprint) (catalog : Catalog) : Checked Blueprint := do
  let _ ← bp.deploymentName
  let bp ← Use.apply bp catalog
  let bp ← Use.applyGlobals bp catalog
  let bp := Intergroup.populateOutputs bp
  (GroupGraph.ofBlueprint bp).checkDeclaredOrder bp
  return bp

theorem prepare_eq (bp : Blueprint) (catalog : Catalog) (options : ExpandOptions) :
    bp.prepare catalog options = bp.label catalog options >>= fun labelled =>
      labelled.evaluateVars >>= fun evaluated => evaluated.complete catalog := by
  unfold prepare label complete
  simp only [bind_assoc, pure_bind]

/-- The sources of the staging calls that an expansion evaluates, in order. -/
structure Sources where
  vars : List String
  settings : List String
  backends : List String

/-- The expansion of a blueprint, with the sources that it stages. -/
def expandWithSources (bp : Blueprint) (catalog : Catalog) (options : ExpandOptions) :
    Checked (Blueprint × Sources) := do
  let labelled ← bp.label catalog options
  let prepared ← labelled.evaluateVars >>= fun evaluated => evaluated.complete catalog
  let staged ← prepared.stageSettings
  let out ← (Backends.materialization staged).result
  return (out, {
    vars := (Variables.evaluate labelled.vars).staged
    settings := (prepared.mapModules prepared.stageModule).staged
    backends := (Backends.materialization staged).staged })

theorem fst_expandWithSources (bp : Blueprint) (catalog : Catalog) (options : ExpandOptions) :
    Prod.fst <$> bp.expandWithSources catalog options = bp.expand catalog options := by
  rw [expand_eq, prepare_eq]
  unfold expandWithSources
  simp only [map_bind, bind_assoc, map_pure, Backends.result_materialization, bind_pure]

theorem exists_sources (h : bp.expand catalog options = .ok out) :
    ∃ labelled prepared staged, bp.label catalog options = .ok labelled
      ∧ (labelled.evaluateVars >>= fun evaluated => evaluated.complete catalog) = .ok prepared
      ∧ prepared.stageSettings = .ok staged ∧ Backends.materialize staged = .ok out
      ∧ bp.expandWithSources catalog options = .ok (out, {
          vars := (Variables.evaluate labelled.vars).staged
          settings := (prepared.mapModules prepared.stageModule).staged
          backends := (Backends.materialization staged).staged }) := by
  rw [expand_eq, prepare_eq] at h
  obtain ⟨prepared, hprepared, h⟩ := Checked.bind_eq_ok.mp h
  obtain ⟨labelled, hlabelled, hprepared⟩ := Checked.bind_eq_ok.mp hprepared
  obtain ⟨staged, hstaged, hmaterialized⟩ := Checked.bind_eq_ok.mp h
  refine ⟨labelled, prepared, staged, hlabelled, hprepared, hstaged, hmaterialized, ?_⟩
  rw [← Backends.result_materialization] at hmaterialized
  exact Checked.bind_eq_ok.mpr ⟨labelled, hlabelled, Checked.bind_eq_ok.mpr ⟨prepared, hprepared,
    Checked.bind_eq_ok.mpr ⟨staged, hstaged, Checked.bind_eq_ok.mpr ⟨out, hmaterialized, rfl⟩⟩⟩⟩

/-! ## The table of staged files -/

/-- Whether two blueprints stage files from one directory into one table. -/
structure SameTable (bp out : Blueprint) : Prop where
  path : out.path = bp.path
  staged : out.staged = bp.staged

theorem SameTable.trans {next : Blueprint} (h : bp.SameTable next) (hnext : next.SameTable out) :
    bp.SameTable out := ⟨hnext.path.trans h.path, hnext.staged.trans h.staged⟩

theorem SameTable.directory (h : bp.SameTable out) : out.directory = bp.directory :=
  congrArg Path.directory h.path

theorem sameTable_of_mapModules {f : Location → Module → Checked Module}
    (h : bp.mapModules f = .ok out) : bp.SameTable out := by
  obtain ⟨groups, -, hreturn⟩ := Checked.bind_eq_ok.mp h
  obtain rfl : { bp with groups } = out := Except.ok.inj hreturn
  exact ⟨rfl, rfl⟩

theorem sameTable_of_setVariable {item : String} (h : bp.setVariable item = .ok out) :
    bp.SameTable out := by
  unfold setVariable at h
  split at h
  · exact absurd h (by simp)
  · obtain ⟨value, -, hreturn⟩ := Checked.bind_eq_ok.mp h
    obtain rfl := Except.ok.inj hreturn
    exact ⟨rfl, rfl⟩

theorem sameTable_of_applyOptions (h : bp.applyOptions options = .ok out) : bp.SameTable out := by
  refine Checked.foldlM_keeps bp.SameTable ?_ (fun item _ before next hbefore hnext => ?_) h
  · exact ⟨rfl, rfl⟩
  · exact hbefore.trans (sameTable_of_setVariable hnext)

theorem sameTable_of_label (h : bp.label catalog options = .ok out) : bp.SameTable out := by
  obtain ⟨chosen, hchosen, h⟩ := Checked.bind_eq_ok.mp h
  obtain ⟨_, -, h⟩ := Checked.bind_eq_ok.mp h
  obtain ⟨_, -, h⟩ := Checked.bind_eq_ok.mp h
  obtain ⟨combined, hcombined, hreturn⟩ := Checked.bind_eq_ok.mp h
  obtain rfl := Except.ok.inj hreturn
  obtain ⟨labelled, hlabelled, hmap⟩ := Checked.bind_eq_ok.mp hcombined
  obtain ⟨labels, rfl⟩ := Labels.completeGlobal_eq hlabelled
  have hoptions := sameTable_of_applyOptions hchosen
  have hcombine := sameTable_of_mapModules hmap
  exact ⟨hcombine.path.trans hoptions.path, hcombine.staged.trans hoptions.staged⟩

theorem sameTable_of_complete (h : bp.complete catalog = .ok out) : bp.SameTable out := by
  obtain ⟨_, -, h⟩ := Checked.bind_eq_ok.mp h
  obtain ⟨used, hused, h⟩ := Checked.bind_eq_ok.mp h
  obtain ⟨completed, hcompleted, h⟩ := Checked.bind_eq_ok.mp h
  obtain ⟨_, -, hreturn⟩ := Checked.bind_eq_ok.mp h
  obtain rfl := Except.ok.inj hreturn
  have hboth : bp.SameTable completed :=
    (sameTable_of_mapModules hused).trans (sameTable_of_mapModules hcompleted)
  exact ⟨hboth.path, hboth.staged⟩

theorem sameTable_of_materialize (h : Backends.materialize bp = .ok out) : bp.SameTable out := by
  obtain ⟨backendDefaults, -, h⟩ := Checked.bind_eq_ok.mp h
  obtain ⟨groups, -, hreturn⟩ := Checked.bind_eq_ok.mp h
  obtain rfl : { bp with backendDefaults, groups } = out := Except.ok.inj hreturn
  exact ⟨rfl, rfl⟩

/-! ## Expressions in settings -/

/-- Whether an expression stands in a setting of a module. -/
def Sets (bp : Blueprint) (e : Expression) : Prop :=
  ∃ module ∈ bp.modules, ∃ name, e ∈ (module.settings.get name).expressions

theorem stages_of_stageModule {place : Location} {original module : Module}
    (h : (bp.stageModule place original).result = .ok module) (hstages : e.Stages) :
    (∃ name, e ∈ (module.settings.get name).expressions)
      ↔ (∃ name, e ∈ (original.settings.get name).expressions) ∧ ¬ e.ShowsStaging := by
  obtain ⟨settings, hsettings, rfl⟩ := stageModule_eq_ok.mp h
  have hsame : ∀ name, e ∈ (settings.get name).expressions
      ↔ e ∈ (original.settings.get name).expressions ∧ ¬ e.ShowsStaging := by
    intro name
    by_cases hname : original.settings.has name
    · have hstaged := Checked.mapError_eq_ok.mp (Dict.get_of_mapValues hsettings hname)
      exact Staging.mem_expressions_of_stageValue hstaged hstages
    · rw [Dict.get_of_not_has hname,
        Dict.get_of_not_has (mt (Dict.has_of_mapValues hsettings) hname)]
      exact ⟨fun h => absurd h List.not_mem_nil, fun h => absurd h.1 List.not_mem_nil⟩
  rw [← exists_and_right]
  exact exists_congr hsame

/-- Of the expressions with a staging call, those remain in the settings whose texts hide it. -/
theorem sets_of_stageSettings (h : bp.stageSettings = .ok out) (hstages : e.Stages) :
    out.Sets e ↔ bp.Sets e ∧ ¬ e.ShowsStaging := by
  obtain ⟨image, hmap, rfl⟩ := stageSettings_eq_ok.mp h
  have hmapped := mapped_of_mapModules hmap
  constructor
  · rintro ⟨module, hmodule, hset⟩
    obtain ⟨i, hplaced⟩ := mem_modules.mp hmodule
    obtain ⟨place, original, horiginal, hok⟩ := hmapped.back hplaced
    obtain ⟨hset, hhidden⟩ := (stages_of_stageModule hok hstages).mp hset
    exact ⟨⟨original, mem_modules.mpr ⟨i, horiginal⟩, hset⟩, hhidden⟩
  · rintro ⟨⟨original, horiginal, hset⟩, hhidden⟩
    obtain ⟨i, hplaced⟩ := mem_modules.mp horiginal
    obtain ⟨place, module, hmodule, hok⟩ := hmapped.forth hplaced
    exact ⟨module, mem_modules.mpr ⟨i, hmodule⟩, (stages_of_stageModule hok hstages).mpr
      ⟨hset, hhidden⟩⟩

theorem sets_of_materialize (h : Backends.materialize bp = .ok out) : out.Sets e ↔ bp.Sets e := by
  have hmodules := congrArg (List.flatMap (Prod.snd : String × List Module → List Module))
    (materialize_eq_ok h).2
  rw [List.flatMap_map, List.flatMap_map] at hmodules
  have hmodules : out.modules = bp.modules := hmodules
  unfold Sets
  rw [hmodules]

/-! ## Expansion -/

/-- An expansion leaves no staging call in the settings of modules exactly if the text of each
expression with such a call shows one when it comes to staging.  An expression that keeps its calls
is not what its text is read back as.  The table has the paths of the sources that variables and
settings stage beside those it had; the sources of backends are not entered. -/
theorem staging_of_expand (h : bp.expand catalog options = .ok out) :
    ∃ prepared sources, bp.prepare catalog options = .ok prepared
      ∧ bp.expandWithSources catalog options = .ok (out, sources)
      ∧ ((∀ e, out.Sets e → ¬ e.Stages) ↔ ∀ e, prepared.Sets e → e.Stages → e.ShowsStaging)
      ∧ (∀ e, out.Sets e → e.Stages → Expression.parse e.text ≠ .ok e)
      ∧ ∀ path, (out.staged.get? path).isSome ↔ (bp.staged.get? path).isSome
        ∨ ∃ source ∈ sources.vars ++ sources.settings,
          StagedFiles.resolve bp.directory source = path := by
  obtain ⟨labelled, prepared, staged, hlabelled, hprepared, hstaged, hmaterialized, hsources⟩ :=
    exists_sources h
  have hprepare : bp.prepare catalog options = .ok prepared := by
    rw [prepare_eq]
    exact Checked.bind_eq_ok.mpr ⟨labelled, hlabelled, hprepared⟩
  have hremain : ∀ e : Expression, e.Stages →
      (out.Sets e ↔ prepared.Sets e ∧ ¬ e.ShowsStaging) := fun e hstages =>
    (sets_of_materialize hmaterialized).trans (sets_of_stageSettings hstaged hstages)
  refine ⟨prepared, _, hprepare, hsources, ⟨fun hnone e hset hstages => ?_,
    fun hshown e hset hstages => ?_⟩, fun e hset hstages hread => ?_, fun path => ?_⟩
  · exact Classical.byContradiction fun hhidden =>
      hnone e ((hremain e hstages).mpr ⟨hset, hhidden⟩) hstages
  · obtain ⟨hset, hhidden⟩ := (hremain e hstages).mp hset
    exact hhidden (hshown e hset hstages)
  · exact ((hremain e hstages).mp hset).2 (hstages.shows hread)
  · -- The table changes twice: when the variables are evaluated, and when the settings are staged.
    obtain ⟨evaluated, hevaluated, hcompleted⟩ := Checked.bind_eq_ok.mp hprepared
    obtain ⟨vars, -, rfl⟩ := evaluateVars_eq_ok.mp hevaluated
    have hlabel := sameTable_of_label hlabelled
    have hcomplete := sameTable_of_complete hcompleted
    obtain ⟨image, -, rfl⟩ := stageSettings_eq_ok.mp hstaged
    have hdirectory : prepared.directory = labelled.directory := hcomplete.directory
    rw [(sameTable_of_materialize hmaterialized).staged]
    simp only [StagedFiles.isSome_get?_recordAll, hcomplete.staged, hlabel.staged, hdirectory,
      hlabel.directory, List.mem_append, or_and_right, exists_or, or_assoc]

/-! ### A state in a staged file -/

/-- A backend that keeps its state where a file is staged. -/
def stateBackend : Backend where
  type := "local"
  configuration := .ofValues (.ofList [("path", .expression ⟨.stagingOf "state.tf"⟩)])

def mainModule (kind : ModuleKind) (setting : Value) : Module :=
  { source := "modules/m", kind, id := "m", settings := .ofValues (.ofList [("in", setting)]) }

def mainGroups (kind : ModuleKind) (backend : Option Backend) (setting : Value) : List Group :=
  [{ name := "main", backend, modules := [mainModule kind setting] }]

def writtenMain (setting : Value) : Blueprint where
  name := "bp"
  path := "/bp/bp.yaml"
  vars := .ofValues (.ofList [("deployment_name", .string "d")])
  groups := mainGroups .unknown none setting
  backendDefaults := stateBackend

def labelledMain (vars : Dict) (setting : Value) : Blueprint :=
  { writtenMain setting with vars, groups := mainGroups .terraform (some stateBackend) setting }

def stateFile : Backend where
  type := "local"
  configuration := .ofValues (.ofList [("path", .string (StagedFiles.destination "state.tf"))])

def expandedMain (staged : StagedFiles) (setting : Value) : Blueprint where
  name := "bp"
  path := "/bp/bp.yaml"
  vars := pairVars
  groups := mainGroups .terraform (some stateFile) setting
  backendDefaults := stateFile
  staged

section Main

variable {setting : Expression} {value : Option Value}

theorem evaluateVars_main (setting : Value) :
    (labelledMain pairLabels setting).evaluateVars = .ok (labelledMain pairVars setting) :=
  evaluateVars_pairLabels rfl

/-- A pass over one module. -/
theorem mapModules_main {m : Type → Type} [Monad m] [LawfulMonad m]
    (f : Location → Module → m Module)
    (vars : Dict) (setting : Value) :
    (labelledMain vars setting).mapModules f
      = f (.module 0 0) (mainModule .terraform setting) >>= fun module =>
        pure { labelledMain vars setting with groups := [
          { name := "main", backend := some stateBackend, modules := [module] }] } := by
  have hgroups : (labelledMain vars setting).groups.zipIdx = [(
      { name := "main", backend := some stateBackend, modules := [mainModule .terraform setting] },
      0)] := rfl
  rw [mapModules, hgroups]
  simp only [List.mapM_cons, List.mapM_nil, List.zipIdx_cons, List.zipIdx_nil, bind_assoc,
    pure_bind]

theorem mapModules_stageModule_main {sources : List String}
    (hstage : Staging.stageExpression? pairVars.values setting = ⟨sources, .ok value⟩) :
    let bp := labelledMain pairVars (.expression setting)
    bp.mapModules bp.stageModule
      = ⟨sources, .ok (labelledMain pairVars (value.getD (.expression setting)))⟩ := by
  intro bp
  have hvalue : Staging.stageValue pairVars.values (.expression setting)
      = ⟨sources, .ok (value.getD (.expression setting))⟩ := by
    show (Staging.stageExpression? pairVars.values setting >>= _) = _
    rw [hstage]
    show (⟨sources ++ [], _⟩ : Evaluation Value) = _
    rw [List.append_nil]
    rfl
  rw [mapModules_main]
  show (Dict.mapValues _ _ >>= _) >>= _ = _
  rw [mainModule, Dict.mapValues_single]
  dsimp only
  show (((Staging.stageValue pairVars.values (.expression setting)).located _ >>= _) >>= _) >>= _
    = _
  rw [hvalue]
  show (⟨sources ++ [] ++ [] ++ [], _⟩ : Evaluation Blueprint) = _
  simp only [List.append_nil]
  rfl

theorem evaluation_stateBackend (bp : Blueprint) (place : Location) :
    Backends.evaluation bp place stateBackend = ⟨["state.tf"], .ok stateFile⟩ := by
  have hcall : Value.eval bp.vars.values (.expression ⟨.stagingOf "state.tf"⟩)
      = ⟨["state.tf"], .ok (.string (StagedFiles.destination "state.tf"))⟩ :=
    Term.eval_stagingOf _ "state.tf"
  show (Evaluation.located _ (Dict.mapValues _ _) >>= _) = _
  rw [stateBackend, Dict.mapValues_single, hcall]
  rfl

theorem materialization_main (staged : StagedFiles) (setting : Value) :
    Backends.materialization { labelledMain pairVars setting with staged }
      = ⟨["state.tf", "state.tf"], .ok (expandedMain staged setting)⟩ := by
  show (Backends.evaluation _ _ stateBackend >>= fun _ =>
    [(({ name := "main", backend := some stateBackend, modules := _ } : Group), 0)].mapM _
      >>= _) = _
  simp only [List.mapM_cons, List.mapM_nil, evaluation_stateBackend]
  rfl

/-- The blueprint is expanded if it passes the checks and its setting is staged. -/
theorem expandWithSources_main {sources : List String}
    (hlabel : (writtenMain (.expression setting)).label linkCatalog {}
      = .ok (labelledMain pairLabels (.expression setting)))
    (hcomplete : (labelledMain pairVars (.expression setting)).complete linkCatalog
      = .ok (labelledMain pairVars (.expression setting)))
    (hstage : Staging.stageExpression? pairVars.values setting = ⟨sources, .ok value⟩) :
    (writtenMain (.expression setting)).expandWithSources linkCatalog {}
      = .ok (expandedMain (StagedFiles.recordAll ∅ "/bp" sources)
          (value.getD (.expression setting)),
        { vars := [], settings := sources, backends := ["state.tf", "state.tf"] }) := by
  let table := StagedFiles.recordAll ∅ "/bp" sources
  let image := value.getD (.expression setting)
  have hprepared : ((labelledMain pairLabels (.expression setting)).evaluateVars
      >>= fun evaluated => evaluated.complete linkCatalog)
        = .ok (labelledMain pairVars (.expression setting)) :=
    Checked.bind_eq_ok.mpr ⟨_, evaluateVars_main _, hcomplete⟩
  have hmap := mapModules_stageModule_main hstage
  have hstaged : (labelledMain pairVars (.expression setting)).stageSettings
      = .ok { labelledMain pairVars image with staged := table } := by
    refine stageSettings_eq_ok.mpr ⟨labelledMain pairVars image, ?_, ?_⟩
    · rw [← result_mapModules, hmap]
    · have hdirectory : (labelledMain pairVars (.expression setting)).directory = "/bp" :=
        (by decide : Path.directory "/bp/bp.yaml" = "/bp")
      rw [hmap, hdirectory]
      rfl
  have hbackends := materialization_main table image
  refine Checked.bind_eq_ok.mpr ⟨_, hlabel, Checked.bind_eq_ok.mpr ⟨_, hprepared,
    Checked.bind_eq_ok.mpr ⟨_, hstaged, Checked.bind_eq_ok.mpr ⟨_,
      congrArg Evaluation.result hbackends, ?_⟩⟩⟩⟩
  have hvars :
      (Variables.evaluate (labelledMain pairLabels (.expression setting)).vars).staged = [] :=
    congrArg Evaluation.staged evaluate_pairLabels
  rw [hvars, hmap, hbackends]
  rfl

theorem expand_main {sources : List String}
    (hlabel : (writtenMain (.expression setting)).label linkCatalog {}
      = .ok (labelledMain pairLabels (.expression setting)))
    (hcomplete : (labelledMain pairVars (.expression setting)).complete linkCatalog
      = .ok (labelledMain pairVars (.expression setting)))
    (hstage : Staging.stageExpression? pairVars.values setting = ⟨sources, .ok value⟩) :
    (writtenMain (.expression setting)).expand linkCatalog {}
      = .ok (expandedMain (StagedFiles.recordAll ∅ "/bp" sources)
        (value.getD (.expression setting))) := by
  rw [← fst_expandWithSources, expandWithSources_main hlabel hcomplete hstage]
  rfl

def scriptCall : Expression := ⟨.stagingOf "run.sh"⟩

theorem staging_of_expand_of_script :
    let bp := writtenMain (.expression scriptCall)
    ∃ out, bp.expand linkCatalog {} = .ok out
      ∧ ∃ prepared sources, bp.prepare linkCatalog {} = .ok prepared
        ∧ bp.expandWithSources linkCatalog {} = .ok (out, sources)
        ∧ ((∀ e, out.Sets e → ¬ e.Stages) ↔ ∀ e, prepared.Sets e → e.Stages → e.ShowsStaging)
        ∧ (∀ e, out.Sets e → e.Stages → Expression.parse e.text ≠ .ok e)
        ∧ ∀ path, (out.staged.get? path).isSome ↔ (bp.staged.get? path).isSome
          ∨ ∃ source ∈ sources.vars ++ sources.settings,
            StagedFiles.resolve bp.directory source = path := by
  intro bp
  have hread : Expression.parse scriptCall.text = .ok scriptCall := by with_unfolding_all rfl
  have hcall : ∀ call ∈ scriptCall.term.stagingCalls,
      ∃ destination, Staging.HasDestination pairVars.values call destination := by
    intro call hmem
    obtain rfl : call = .stagingOf "run.sh" := List.mem_singleton.mp hmem
    refine ⟨StagedFiles.destination "run.sh", List.forall_mem_nil _, ?_⟩
    rw [Term.eval_stagingOf]
  have hresult := Staging.result_stageExpression?_of_calls hread (List.cons_ne_nil _ _) hcall
  have hcomplete : (labelledMain pairVars (.expression scriptCall)).complete linkCatalog
      = .ok (labelledMain pairVars (.expression scriptCall)) := by with_unfolding_all rfl
  have hexpand := expand_main rfl hcomplete (by rw [← hresult])
  exact ⟨_, hexpand, staging_of_expand hexpand⟩

/-- The expression in `$$(ghpc_stage("a.sh"))`. -/
def hiddenCall : Expression := ⟨.template [.literal "$", .interpolation (.stagingOf "a.sh")]⟩

theorem read_hiddenCall :
    Literal.read "$$(ghpc_stage(\"a.sh\"))" = .ok (.expression hiddenCall) := by
  have hshort : Literal.shortestExpression "ghpc_stage(\"a.sh\"))".toList
      = .ok (⟨.stagingOf "a.sh"⟩, []) := by with_unfolding_all rfl
  exact Literal.read_before_interpolation rfl rfl rfl rfl rfl (by decide) (by decide) hshort

/-- A call behind a dollar stays in its setting, and the source that a backend stages is not entered
into the table. -/
theorem not_staging_of_expand :
    ∃ setting, Literal.read "$$(ghpc_stage(\"a.sh\"))" = .ok (.expression setting)
      ∧ Literal.read "((ghpc_stage(\"state.tf\")))" = .ok (stateBackend.configuration.get "path")
      ∧ ∃ out sources, (writtenMain (.expression setting)).expand linkCatalog {} = .ok out
        ∧ (writtenMain (.expression setting)).expandWithSources linkCatalog {} = .ok (out, sources)
        ∧ (out.Sets setting ∧ setting.Stages)
        ∧ "state.tf" ∈ sources.backends
        ∧ out.staged.get? (StagedFiles.resolve "/bp" "state.tf") = none := by
  have hstages : hiddenCall.Stages :=
    ⟨.stagingOf "a.sh", by simp [hiddenCall, Term.nodes, Term.partsNodes, Term.mem_nodes_self],
      Term.isStaging_call _⟩
  have hstage : Staging.stageExpression? pairVars.values hiddenCall = ⟨[], .ok none⟩ := by
    with_unfolding_all rfl
  have hcomplete : (labelledMain pairVars (.expression hiddenCall)).complete linkCatalog
      = .ok (labelledMain pairVars (.expression hiddenCall)) := by with_unfolding_all rfl
  have hbackend : Literal.read "((ghpc_stage(\"state.tf\")))"
      = .ok (stateBackend.configuration.get "path") := by with_unfolding_all rfl
  have hset : (expandedMain (StagedFiles.recordAll ∅ "/bp" []) (.expression hiddenCall)).Sets
      hiddenCall := ⟨_, List.mem_singleton_self _, "in", List.mem_singleton_self _⟩
  exact ⟨hiddenCall, read_hiddenCall, hbackend, _, _, expand_main rfl hcomplete hstage,
    expandWithSources_main rfl hcomplete hstage, ⟨hset, hstages⟩, List.mem_cons_self, rfl⟩

end Main

end Blueprint

end ClusterBlueprint
