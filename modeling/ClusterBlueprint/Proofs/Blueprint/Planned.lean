import ClusterBlueprint.Blueprint.Plan
import ClusterBlueprint.Proofs.Blueprint.LegibleSettings
import ClusterBlueprint.Proofs.Literal.Escaped
import ClusterBlueprint.Proofs.Literal.Quoted

/-!
Expanded blueprints can be planned.

The groups of a prepared blueprint refer to earlier groups only.  So the plan fails only if staging
brings in a new reference, and it brings in none if the blueprint is legible.
-/

namespace ClusterBlueprint

/-! ## Plans -/

namespace Plan

open Blueprint

variable {bp : Blueprint} {i : Nat} {group : Group}

/-- What the plan of a blueprint says of a group whose name is its own. -/
def groupPlan (bp : Blueprint) (group : Group) : GroupPlan where
  name := group.name
  kind := group.kind
  modules := group.modules.map Module.id
  inputs := Intergroup.inputsOf bp group

theorem inputsOfNamed_eq_ok (h : bp.HasOwnNames) (hgroup : group ∈ bp.groups) :
    Intergroup.inputsOfNamed bp group.name = .ok (Intergroup.inputsOf bp group) :=
  Checked.bind_eq_ok.mpr ⟨group, h.group_eq_ok hgroup, rfl⟩

theorem ofGroup_eq_ok (h : bp.HasOwnNames) (hgroup : group ∈ bp.groups) :
    ofGroup bp group = .ok (groupPlan bp group) :=
  Checked.bind_eq_ok.mpr ⟨_, inputsOfNamed_eq_ok h hgroup, rfl⟩

/-- A blueprint whose groups refer to earlier groups only has a plan. -/
theorem exists_of_back (h : bp.HasOwnNames) (hback : ∀ i j, bp.Refers i j → j < i)
    (hname : ∃ deployment, bp.deploymentName = .ok deployment) :
    ∃ plan, ofBlueprint bp = .ok plan ∧ plan.groups = bp.groups.map (groupPlan bp) := by
  obtain ⟨order, horder⟩ := GroupGraph.exists_order_ofBlueprint h hback
  have hdeclared := (GroupGraph.checkDeclaredOrder_eq_ok h).mpr hback
  obtain ⟨deployment, hdeployment⟩ := hname
  have hgroups : bp.groups.mapM (ofGroup bp) = .ok (bp.groups.map (groupPlan bp)) := by
    rw [Checked.mapM_eq_ok, List.map_map]
    exact List.map_congr_left fun group hgroup => ofGroup_eq_ok h hgroup
  let plan : Plan := ⟨bp.name, deployment, bp.groups.map (groupPlan bp), bp.staged⟩
  refine ⟨plan, Checked.bind_eq_ok.mpr ⟨order, horder, Checked.bind_eq_ok.mpr ⟨(), hdeclared,
    Checked.bind_eq_ok.mpr ⟨_, hgroups, ?_⟩⟩⟩, rfl⟩
  exact Checked.bind_eq_ok.mpr ⟨deployment, hdeployment, rfl⟩

/-- A group takes its inputs from groups that it refers to. -/
theorem exists_refers_of_mem_inputs (h : bp.HasOwnNames) (hgroup : bp.groups[i]? = some group)
    {producer : String} (hproducer : producer ∈ (groupPlan bp group).inputs.keys) :
    ∃ j, bp.Refers i j ∧ bp.groupNames[j]? = some producer := by
  have hmem := SortedMap.mem_keys_ofList.mp hproducer
  rw [List.map_map] at hmem
  obtain ⟨found, hfound, rfl⟩ := List.mem_map.mp hmem
  obtain ⟨reference, href, hof⟩ := List.mem_filterMap.mp (List.mem_reverse.mp hfound)
  exact (h.exists_producer hgroup).mp ⟨reference, href, found, hof, rfl⟩

end Plan

/-! ## Expansion -/

namespace Blueprint

variable {bp out : Blueprint} {catalog : Catalog} {options : ExpandOptions}

/-- An expanded blueprint has a plan, with the groups as they are declared, in which every group
takes its inputs from groups declared before it, provided that it was legible before. -/
theorem exists_plan_of_expand (h : bp.expand catalog options = .ok out)
    (hlegible : bp.IsLegible catalog) :
    ∃ plan, Plan.ofBlueprint out = .ok plan
      ∧ plan.groups.map GroupPlan.name = bp.groups.map Group.name
      ∧ ∀ (i : Nat) (group : GroupPlan), plan.groups[i]? = some group →
        ∀ producer ∈ group.inputs.keys, producer ∈ bp.groups.map Group.name
          ∧ ∀ j : Nat, (bp.groups.map Group.name)[j]? = some producer → j < i := by
  rw [expand_eq] at h
  obtain ⟨prepared, hprepared, h⟩ := Checked.bind_eq_ok.mp h
  obtain ⟨staged, hstaged, hmaterialized⟩ := Checked.bind_eq_ok.mp h
  have hspec := prepared_of_prepare hprepared
  -- Names and ids are those of the written blueprint, and references between groups are among those
  -- whose order was checked.
  have houtline : out.outline = prepared.outline :=
    (outline_of_materialize hmaterialized).trans (outline_of_stageSettings hstaged)
  have hnames := hspec.names.of_outline houtline
  have hback : ∀ i j, out.Refers i j → j < i := fun i j hrefers => hspec.back i j
    (refers_of_stageSettings (keepsReferences_of_prepare hlegible hprepared) hstaged
      (refers_of_materialize hmaterialized hrefers))
  have hvars : out.vars = prepared.vars :=
    (materialize_eq_ok hmaterialized).1.trans (vars_of_stageSettings hstaged)
  have hdeployment : ∃ deployment, out.deploymentName = .ok deployment := by
    obtain ⟨deployment, hdeployment⟩ := hspec.deployment
    refine ⟨deployment, ?_⟩
    unfold deploymentName at hdeployment ⊢
    rwa [hvars]
  obtain ⟨plan, hplan, hgroups⟩ := Plan.exists_of_back hnames hback hdeployment
  have hdeclared : bp.groups.map Group.name = out.groupNames := by
    rw [groupNames_eq, houtline, hspec.outline, ← groupNames_eq]
    rfl
  refine ⟨plan, hplan, ?_, fun i group hgroup producer hproducer => ?_⟩
  · rw [hgroups, List.map_map, hdeclared]
    rfl
  · rw [hgroups, List.getElem?_map] at hgroup
    obtain ⟨original, horiginal, rfl⟩ := Option.map_eq_some_iff.mp hgroup
    obtain ⟨j, hrefers, hj⟩ := Plan.exists_refers_of_mem_inputs hnames horiginal hproducer
    rw [hdeclared]
    refine ⟨List.mem_of_getElem? hj, fun k hk => ?_⟩
    rw [hnames.eq_of_groupNames hk hj]
    exact hback i j hrefers

/-! ### A pair of groups -/

def linkCatalog : Catalog := ⟨.ofList [
  ("modules/m", { interface := { inputs := [{ name := "in" }], outputs := [{ name := "out" }] } })]⟩

def settingOf (e : Expression) : Dict := .ofValues (.ofList [("in", .expression e)])

def earlyModule (kind : ModuleKind) (outputs : List Output) (settings : Dict) : Module :=
  { source := "modules/m", kind, id := "early", outputs, settings }

def laterModule (kind : ModuleKind) (settings : Dict) : Module :=
  { source := "modules/m", kind, id := "later", settings }

def pairGroups (kind : ModuleKind) (outputs : List Output) (early later : Dict) : List Group := [
  { name := "first", modules := [earlyModule kind outputs early] },
  { name := "second", modules := [laterModule kind later] }]

def writtenPair (early later : Dict) : Blueprint where
  name := "bp"
  path := "/bp/bp.yaml"
  vars := .ofValues (.ofList [("deployment_name", .string "d")])
  groups := pairGroups .unknown [] early later

def pairLabels : Dict := .ofValues (.ofList [("deployment_name", .string "d"),
  ("labels", .object [("ghpc_blueprint", .string "bp"),
    ("ghpc_deployment", .ofReference (.global "deployment_name"))])])

def pairVars : Dict := .ofValues (.ofList [("deployment_name", .string "d"),
  ("labels", .object [("ghpc_blueprint", .string "bp"), ("ghpc_deployment", .string "d")])])

/-- The blueprint with Terraform modules and evaluated variables. -/
def preparedPair (staged : StagedFiles) (outputs : List Output) (early later : Dict) : Blueprint :=
  { writtenPair early later with
    vars := pairVars, staged, groups := pairGroups .terraform outputs early later }

section Pair

variable {staged : StagedFiles} {outputs : List Output} {early later : Dict} {i j : Nat}

theorem evaluate_pairLabels : Variables.evaluate pairLabels = ⟨[], .ok pairVars⟩ := by
  have hkeys : pairLabels.keys.attach
      = [⟨"deployment_name", by decide⟩, ⟨"labels", by decide⟩] := by rfl
  rw [Variables.evaluate, Variables.resolveAll_eq, hkeys]
  simp only [List.foldlM_cons, List.foldlM_nil, Variables.enter, Variables.visit_eq]
  rfl

theorem evaluateVars_pairLabels {bp : Blueprint} (h : bp.vars = pairLabels) :
    bp.evaluateVars = .ok { bp with vars := pairVars } := by
  refine evaluateVars_eq_ok.mpr ⟨pairVars, ?_, ?_⟩
  · rw [h, evaluate_pairLabels]
  · rw [h, evaluate_pairLabels]
    rfl

theorem hasOwnNames_preparedPair : (preparedPair staged outputs early later).HasOwnNames :=
  ⟨by show ["first", "second"].Nodup; decide, by show ["early", "later"].Nodup; decide⟩

theorem eq_of_mem_settingOf {e other : Expression} {name : String}
    (h : .expression other ∈ ((settingOf e).get name).nodes) : other = e := by
  by_cases hname : name = "in"
  · subst hname
    exact Value.expression.inj (List.mem_singleton.mp h)
  · have hnot : ¬ (settingOf e).has name := fun hhas =>
      hname (List.mem_singleton.mp (Dict.has_iff_mem_keys.mp hhas))
    rw [Dict.get_of_not_has hnot] at h
    exact absurd (List.mem_singleton.mp h) (by simp)

theorem placed_preparedPair {module : Module}
    (h : (preparedPair staged outputs early later).Placed i module) :
    (i = 0 ∧ module.settings = early) ∨ (i = 1 ∧ module.settings = later) := by
  obtain ⟨group, hgroup, hmem⟩ := h
  rcases i with _ | _ | i
  · obtain rfl := Option.some.inj hgroup
    obtain rfl := List.mem_singleton.mp hmem
    exact .inl ⟨rfl, rfl⟩
  · obtain rfl := Option.some.inj hgroup
    obtain rfl := List.mem_singleton.mp hmem
    exact .inr ⟨rfl, rfl⟩
  · exact absurd hgroup (Option.some_ne_none group).symm

/-- If the module of the first group refers to nothing, the groups refer to earlier ones only. -/
theorem back_preparedPair (hearly : ∀ name, (early.get name).references = [])
    (h : (preparedPair staged outputs early later).Refers i j) : j < i := by
  obtain ⟨hne, module, hmodule, name, reference, href, target, htarget, -⟩ := h
  rcases placed_preparedPair hmodule with ⟨rfl, hsettings⟩ | ⟨rfl, -⟩
  · rw [hsettings, hearly] at href
    exact absurd href List.not_mem_nil
  · rcases placed_preparedPair htarget with ⟨rfl, -⟩ | ⟨rfl, -⟩
    · exact Nat.zero_lt_one
    · exact absurd rfl hne

/-- A pair is prepared if it passes the checks. -/
theorem exists_prepare_writtenPair
    (hstructure : Structure.check (writtenPair early later).defaultKinds linkCatalog = .ok ())
    (hreferences : References.check (writtenPair early later).defaultKinds linkCatalog = .ok ())
    (hglobals : ∀ staged, Use.applyGlobals (preparedPair staged [] early later) linkCatalog
      = .ok (preparedPair staged [] early later))
    (houtputs : ∀ staged, Intergroup.populateOutputs (preparedPair staged [] early later)
      = preparedPair staged outputs early later)
    (hearly : ∀ name, (early.get name).references = []) :
    ∃ staged, (writtenPair early later).prepare linkCatalog {}
      = .ok (preparedPair staged outputs early later) := by
  let labelled : Blueprint := { writtenPair early later with
    vars := pairLabels, groups := pairGroups .terraform [] early later }
  have hlabels : Labels.combine (writtenPair early later).defaultKinds linkCatalog
      = .ok labelled := rfl
  have hvars : (Backends.expand labelled).evaluateVars = .ok (preparedPair ∅ [] early later) :=
    evaluateVars_pairLabels rfl
  have hback : ∀ i j, (preparedPair ∅ outputs early later).Refers i j → j < i :=
    fun _ _ => back_preparedPair hearly
  have hdeclared := (GroupGraph.checkDeclaredOrder_eq_ok hasOwnNames_preparedPair).mpr hback
  rw [← houtputs ∅] at hdeclared
  exact ⟨∅, prepare_eq_ok.mpr ⟨⟨rfl, hstructure, hreferences, hlabels, hvars, rfl, rfl, hglobals ∅,
    hdeclared⟩, houtputs ∅⟩⟩

/-- In a setting, an expression with a staging call is replaced. -/
theorem result_stageModule {bp : Blueprint} {place : Location} {module : Module}
    {e image : Expression} (hsettings : module.settings = settingOf e)
    (hstaged : (Staging.stageExpression? bp.vars.values e).result
      = .ok (some (.expression image))) :
    (bp.stageModule place module).result = .ok { module with settings := settingOf image } := by
  have hvalue : (Staging.stageValue bp.vars.values (.expression e)).result
      = .ok (.expression image) := by
    show ((Staging.stageExpression? bp.vars.values e) >>= fun _ => _).result = _
    rw [Evaluation.result_bind, hstaged]
    rfl
  have hentries : (settingOf e).entries.toList = [("in", ⟨.expression e, []⟩)] := rfl
  refine stageModule_eq_ok.mpr ⟨settingOf image, ?_, rfl⟩
  rw [hsettings, Dict.mapValues, hentries, List.foldlM_cons]
  refine Checked.bind_eq_ok.mpr ⟨settingOf image, ?_, rfl⟩
  dsimp only
  rw [Evaluation.result_located, hvalue]
  rfl

/-- A pass over a pair is one over each of its modules. -/
theorem mapModules_pair {f : Location → Module → Checked Module} {early' later' : Dict}
    (hearly : f (.module 0 0) (earlyModule .terraform outputs early)
      = .ok (earlyModule .terraform outputs early'))
    (hlater : f (.module 1 0) (laterModule .terraform later)
      = .ok (laterModule .terraform later')) :
    (preparedPair staged outputs early later).mapModules f
      = .ok { preparedPair staged outputs early later with
          groups := pairGroups .terraform outputs early' later' } := by
  have hfirst : [earlyModule .terraform outputs early].zipIdx.mapM
      (fun entry => f (.module 0 entry.2) entry.1) = .ok [earlyModule .terraform outputs early'] :=
    Checked.mapM_eq_ok.mpr (congrArg ([·]) hearly)
  have hsecond : [laterModule .terraform later].zipIdx.mapM
      (fun entry => f (.module 1 entry.2) entry.1) = .ok [laterModule .terraform later'] :=
    Checked.mapM_eq_ok.mpr (congrArg ([·]) hlater)
  refine Checked.bind_eq_ok.mpr ⟨pairGroups .terraform outputs early' later', ?_, rfl⟩
  refine Checked.mapM_eq_ok.mpr (congrArg₂ (fun first second => [first, second]) ?_ ?_)
  · exact Checked.bind_eq_ok.mpr ⟨_, hfirst, rfl⟩
  · exact Checked.bind_eq_ok.mpr ⟨_, hsecond, rfl⟩

/-- A prepared blueprint without backends is expanded by staging the settings of its modules. -/
theorem exists_expand_of_prepare {bp prepared image : Blueprint} {catalog : Catalog}
    {options : ExpandOptions} (hprepare : bp.prepare catalog options = .ok prepared)
    (hmap : prepared.mapModules (fun place module => (prepared.stageModule place module).result)
      = .ok image)
    (hbackends : ∀ table,
      Backends.materialize { prepared with groups := image.groups, staged := table }
        = .ok { prepared with groups := image.groups, staged := table }) :
    ∃ table, bp.expand catalog options
      = .ok { prepared with groups := image.groups, staged := table } := by
  refine ⟨prepared.staged.recordAll prepared.directory
    (prepared.mapModules prepared.stageModule).staged, ?_⟩
  rw [expand_eq]
  exact Checked.bind_eq_ok.mpr ⟨_, hprepare, Checked.bind_eq_ok.mpr
    ⟨_, stageSettings_eq_ok.mpr ⟨image, hmap, rfl⟩, hbackends _⟩⟩

theorem exists_expand_pair {early' later' : Dict}
    (hprepare : (writtenPair early later).prepare linkCatalog {}
      = .ok (preparedPair staged outputs early later))
    (hearly : ((preparedPair staged outputs early later).stageModule (.module 0 0)
      (earlyModule .terraform outputs early)).result = .ok (earlyModule .terraform outputs early'))
    (hlater : ((preparedPair staged outputs early later).stageModule (.module 1 0)
      (laterModule .terraform later)).result = .ok (laterModule .terraform later')) :
    ∃ after, (writtenPair early later).expand linkCatalog {}
      = .ok (preparedPair after outputs early' later') :=
  exists_expand_of_prepare hprepare (mapModules_pair hearly hlater) fun _ => rfl

theorem result_stageModule_empty {bp : Blueprint} {place : Location} {module : Module}
    (hsettings : module.settings = ∅) : (bp.stageModule place module).result = .ok module := by
  refine stageModule_eq_ok.mpr ⟨∅, ?_, ?_⟩
  · rw [hsettings]
    rfl
  · rw [← hsettings]

theorem hasPlainInputs_linkCatalog : ∀ source, linkCatalog.HasPlainInputs source :=
  Catalog.hasPlainInputs_of_entries <| List.forall_mem_singleton.mpr <|
    List.forall_mem_singleton.mpr (Staging.not_spelled_of_length (by decide))

/-- A pair with one expression, which was read from a text. -/
theorem isLegible_writtenPair {e : Expression} {s : String}
    (hread : Literal.read s = .ok (.expression e)) (hdollar : e.HasNoOpenDollar) :
    (writtenPair ∅ (settingOf e)).IsLegible linkCatalog := by
  have hmodules {p : Module → Prop} (hearly : p (earlyModule .unknown [] ∅))
      (hlater : p (laterModule .unknown (settingOf e))) :
      ∀ module ∈ (writtenPair ∅ (settingOf e)).modules, p module :=
    List.forall_mem_cons.mpr ⟨hearly, List.forall_mem_singleton.mpr hlater⟩
  refine ⟨hmodules ?_ ?_, hmodules (List.forall_mem_nil _) (List.forall_mem_nil _),
    fun module _ => hasPlainInputs_linkCatalog module.source⟩
  · exact fun name => List.forall_mem_nil _
  · refine Dict.isLegible_of_read fun name other hother => ?_
    obtain rfl := eq_of_mem_settingOf (Value.mem_expressions.mp hother)
    exact ⟨hdollar, s, hread⟩

/-- A staging call of the later group beside a reference to the earlier one. -/
def scriptOrOutput : Expression :=
  ⟨.binary .equal (.stagingOf "run.sh") (.ofNames "module" ["early", "out"])⟩

theorem parse_scriptOrOutput : Expression.parse scriptOrOutput.text = .ok scriptOrOutput := by
  refine Expression.parse_text_eq_ok.mpr ⟨?_, fun root steps hmem => ?_⟩
  · exact ⟨by decide, by decide, ⟨by decide, ⟨by decide, trivial, trivial⟩, trivial⟩, by decide,
      by decide, by decide, trivial⟩
  · obtain ⟨rfl, rfl⟩ : root = "module" ∧ steps = [.attribute "early", .attribute "out"] := by
      simpa [scriptOrOutput, Term.stagingOf, Term.ofString, Term.ofNames, Term.nodes,
        Term.listNodes, Term.partsNodes, Term.stepsNodes] using hmem
    exact ⟨.ofModule "early" "out", rfl⟩

theorem exists_plan_of_expand_of_pair :
    let bp := writtenPair ∅ (settingOf scriptOrOutput)
    ∃ out, bp.expand linkCatalog {} = .ok out
      ∧ bp.IsLegible linkCatalog
      ∧ ∃ plan, Plan.ofBlueprint out = .ok plan
        ∧ plan.groups.map GroupPlan.name = bp.groups.map Group.name
        ∧ ∀ (i : Nat) (group : GroupPlan), plan.groups[i]? = some group →
          ∀ producer ∈ group.inputs.keys, producer ∈ bp.groups.map Group.name
            ∧ ∀ j : Nat, (bp.groups.map Group.name)[j]? = some producer → j < i := by
  intro bp
  let outputs := [Intergroup.generatedOutput "early" "out"]
  obtain ⟨staged, hprepare⟩ : ∃ staged, bp.prepare linkCatalog {}
      = .ok (preparedPair staged outputs ∅ (settingOf scriptOrOutput)) :=
    exists_prepare_writtenPair rfl rfl (fun _ => rfl) (fun _ => rfl) fun _ => rfl
  have hcalls : ∀ call ∈ scriptOrOutput.term.stagingCalls,
      ∃ destination, Staging.HasDestination pairVars.values call destination := by
    intro call hmem
    obtain rfl : call = .stagingOf "run.sh" := List.mem_singleton.mp hmem
    refine ⟨StagedFiles.destination "run.sh", List.forall_mem_nil _, ?_⟩
    rw [Term.eval_stagingOf]
  have hstaged : (Staging.stageExpression? pairVars.values scriptOrOutput).result
      = .ok (some (.expression (Staging.spliced pairVars.values scriptOrOutput))) :=
    Staging.result_stageExpression?_of_calls parse_scriptOrOutput (List.cons_ne_nil _ _) hcalls
  obtain ⟨after, hexpand⟩ := exists_expand_pair hprepare (result_stageModule_empty rfl)
    (result_stageModule rfl hstaged)
  have hread : Literal.read ("((" ++ scriptOrOutput.text ++ "))")
      = .ok (.expression scriptOrOutput) := by
    rw [Literal.read_source, parse_scriptOrOutput]
    rfl
  have hlegible : bp.IsLegible linkCatalog := isLegible_writtenPair hread trivial
  exact ⟨_, hexpand, hlegible, exists_plan_of_expand hexpand hlegible⟩

/-- The expression in `$$("..." )`, where the quoted text looks like code. -/
def dollarQuoted : Expression :=
  ⟨.template [.literal "$", .interpolation
    (.ofString " == ghpc_stage(var.deployment_name) == module.later.out == ")]⟩

/-- What the text of this expression is read back as. -/
def dollarRead : Expression :=
  ⟨.binary .equal (.binary .equal (.binary .equal (.ofString "$\x7b")
    (.call Function.stageName [.ofNames "var" ["deployment_name"]]))
    (.ofNames "module" ["later", "out"])) (.ofString "\x7d")⟩

theorem text_dollarQuoted : dollarQuoted.text = dollarRead.text := by decide +kernel

theorem read_dollarQuoted :
    Literal.read "$$(\" == ghpc_stage(var.deployment_name) == module.later.out == \")"
      = .ok (.expression dollarQuoted) := by
  let text := " == ghpc_stage(var.deployment_name) == module.later.out == "
  have htext : (Term.ofString text).text.toList = '"' :: " == ghpc_stage(var.deployment_name".toList
      ++ ')' :: " == module.later.out == \"".toList := by decide +kernel
  have hshort : Literal.shortestExpression ((Term.ofString text).text.toList ++ [')'])
      = .ok (⟨.ofString text⟩, []) :=
    Literal.shortestExpression_quoted (by decide) htext (by decide) (by decide) (by decide) []
  exact Literal.read_before_interpolation rfl rfl (by decide +kernel) rfl (by decide +kernel)
    (by decide) (by decide) hshort

theorem parse_dollarRead : Expression.parse dollarRead.text = .ok dollarRead := by
  refine Expression.parse_text_eq_ok.mpr ⟨?_, fun root steps hmem => ?_⟩
  · exact ⟨by decide, by decide, ⟨by decide, by decide, ⟨by decide, by decide,
      ⟨by decide, trivial, trivial⟩, by decide, ⟨by decide, by decide, trivial⟩, trivial⟩,
      by decide, by decide, by decide, trivial⟩, by decide, trivial, trivial⟩
  · have hmem : (root = "var" ∧ steps = [.attribute "deployment_name"])
        ∨ (root = "module" ∧ steps = [.attribute "later", .attribute "out"]) := by
      simpa [dollarRead, Term.ofString, Term.ofNames, Term.nodes, Term.listNodes, Term.partsNodes,
        Term.stepsNodes] using hmem
    rcases hmem with ⟨rfl, rfl⟩ | ⟨rfl, rfl⟩
    · exact ⟨.global "deployment_name", rfl⟩
    · exact ⟨.ofModule "later" "out", rfl⟩

theorem stage_dollarQuoted : (Staging.stageExpression? pairVars.values dollarQuoted).result
    = .ok (some (.expression (Staging.spliced pairVars.values dollarRead))) := by
  have hcalls : ∀ call ∈ dollarRead.term.stagingCalls,
      ∃ destination, Staging.HasDestination pairVars.values call destination := by
    intro call hmem
    obtain rfl : call = .call Function.stageName [.ofNames "var" ["deployment_name"]] :=
      List.mem_singleton.mp hmem
    exact ⟨StagedFiles.destination "d", List.forall_mem_singleton.mpr rfl, rfl⟩
  -- Staging sees the text of an expression only.
  have hsame : Staging.stageExpression? pairVars.values dollarQuoted
      = Staging.stageExpression? pairVars.values dollarRead := by
    unfold Staging.stageExpression? Expression.tokens
    rw [text_dollarQuoted]
  rw [hsame]
  exact Staging.result_stageExpression?_of_calls parse_dollarRead (List.cons_ne_nil _ _) hcalls

/-- A setting that is read back as another expression brings in a reference to a later group. -/
theorem not_exists_plan_of_expand :
    ∃ setting,
      Literal.read "$$(\" == ghpc_stage(var.deployment_name) == module.later.out == \")"
          = .ok (.expression setting)
        ∧ ∃ out, (writtenPair (settingOf setting) ∅).expand linkCatalog {} = .ok out
          ∧ ∀ plan, Plan.ofBlueprint out ≠ .ok plan := by
  let image := Staging.spliced pairVars.values dollarRead
  have hnone : ∀ name, ((settingOf dollarQuoted).get name).references = [] := by
    refine fun name => List.eq_nil_iff_forall_not_mem.mpr fun reference href => ?_
    obtain ⟨e, he, hmem⟩ := Value.mem_references.mp href
    rw [eq_of_mem_settingOf he] at hmem
    exact absurd hmem List.not_mem_nil
  obtain ⟨staged, hprepare⟩ : ∃ staged,
      (writtenPair (settingOf dollarQuoted) ∅).prepare linkCatalog {}
        = .ok (preparedPair staged [] (settingOf dollarQuoted) ∅) :=
    exists_prepare_writtenPair rfl rfl (fun _ => rfl) (fun _ => rfl) hnone
  obtain ⟨after, hexpand⟩ := exists_expand_pair hprepare
    (result_stageModule rfl stage_dollarQuoted) (result_stageModule_empty rfl)
  refine ⟨dollarQuoted, read_dollarQuoted, _, hexpand, fun plan hplan => ?_⟩
  obtain ⟨_, -, hplan⟩ := Checked.bind_eq_ok.mp hplan
  obtain ⟨_, hdeclared, -⟩ := Checked.bind_eq_ok.mp hplan
  have hmem : .ofModule "later" "out" ∈ image.references := List.mem_singleton.mpr rfl
  have hrefers : (preparedPair after [] (settingOf image) ∅).Refers 0 1 := by
    refine ⟨Nat.zero_ne_one, earlyModule .terraform [] (settingOf image),
      ⟨_, rfl, List.mem_singleton_self _⟩, "in", .ofModule "later" "out", ?_,
      laterModule .terraform ∅, ⟨_, rfl, List.mem_singleton_self _⟩, rfl⟩
    exact Value.mem_references.mpr ⟨image, List.mem_singleton_self _, hmem⟩
  have hback := (GroupGraph.checkDeclaredOrder_eq_ok hasOwnNames_preparedPair).mp hdeclared
  exact Nat.not_lt_zero 1 (hback 0 1 hrefers)

end Pair

end Blueprint

end ClusterBlueprint
