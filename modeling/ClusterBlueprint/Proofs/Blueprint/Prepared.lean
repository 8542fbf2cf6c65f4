import ClusterBlueprint.Proofs.Blueprint.DeclaredOutputs
import ClusterBlueprint.Proofs.Blueprint.Passes

/-!
Blueprints before their settings are staged.

The passes of an expansion leave the groups and the modules where they are, so the names that were
checked at first are those of the result.  The order of the groups is checked after all passes that
write references but one, the staging of settings.
-/

namespace ClusterBlueprint

namespace Blueprint

variable {bp out : Blueprint} {catalog : Catalog} {options : ExpandOptions} {i j : Nat}

theorem groups_of_setVariable {item : String} (h : bp.setVariable item = .ok out) :
    out.groups = bp.groups := by
  unfold setVariable at h
  split at h
  · exact absurd h (by simp)
  · obtain ⟨value, -, hreturn⟩ := Checked.bind_eq_ok.mp h
    obtain rfl := Except.ok.inj hreturn
    rfl

theorem groups_of_applyOptions (h : bp.applyOptions options = .ok out) :
    out.groups = bp.groups := by
  unfold applyOptions setVariables at h
  refine Checked.foldlM_keeps (fun next : Blueprint => next.groups = bp.groups) ?_
    (fun item _ before next hbefore hnext => ?_) h
  · rfl
  · exact (groups_of_setVariable hnext).trans hbefore

theorem outline_of_applyOptions (h : bp.applyOptions options = .ok out) :
    out.outline = bp.outline :=
  congrArg (List.map fun group : Group => (group.name, group.modules.map Module.id))
    (groups_of_applyOptions h)

theorem outline_defaultKinds (bp : Blueprint) : bp.defaultKinds.outline = bp.outline := by
  unfold outline defaultKinds
  rw [List.map_map]
  refine List.map_congr_left fun group _ => ?_
  refine congrArg (Prod.mk group.name) ?_
  rw [List.map_map]
  refine List.map_congr_left fun module _ => ?_
  show (if module.kind = .unknown then { module with kind := .terraform } else module).id = _
  split <;> rfl

theorem outline_of_combine (h : Labels.combine bp catalog = .ok out) :
    out.outline = bp.outline := by
  obtain ⟨labelled, hlabelled, hmap⟩ := Checked.bind_eq_ok.mp h
  obtain ⟨labels, rfl⟩ := Labels.completeGlobal_eq hlabelled
  refine (outline_of_mapModules hmap fun place original module hread => ?_).trans rfl
  obtain ⟨settings, rfl, -⟩ := Labels.mergeModule_refersBy (p := fun _ => True) trivial
    (fun _ _ _ => trivial) hread
  rfl

theorem outline_backends (bp : Blueprint) : (Backends.expand bp).outline = bp.outline := by
  unfold outline Backends.expand
  rw [List.map_map]
  rfl

theorem outline_of_evaluateVars (h : bp.evaluateVars = .ok out) : out.outline = bp.outline := by
  obtain ⟨vars, -, rfl⟩ := evaluateVars_eq_ok.mp h
  rfl

theorem outline_of_apply (h : Use.apply bp catalog = .ok out) : out.outline = bp.outline := by
  refine outline_of_mapModules h fun place original module hread => ?_
  obtain ⟨settings, rfl, -⟩ := Use.applyModule_refersBy (p := fun _ => True)
    (fun _ _ _ _ _ _ => trivial) (fun _ _ _ => trivial) hread
  rfl

theorem outline_of_applyGlobals (h : Use.applyGlobals bp catalog = .ok out) :
    out.outline = bp.outline := by
  refine outline_of_mapModules h fun place original module hread => ?_
  obtain ⟨_, settings, -, -, rfl⟩ := Use.globalsModule_eq_ok hread
  rfl

/-- Materialized backends leave everything else as it is. -/
theorem materialize_eq_ok (h : Backends.materialize bp = .ok out) : out.vars = bp.vars
    ∧ out.groups.map (fun group => (group.name, group.modules))
      = bp.groups.map fun group => (group.name, group.modules) := by
  obtain ⟨backendDefaults, -, hrest⟩ := Checked.bind_eq_ok.mp h
  obtain ⟨groups, hgroups, hreturn⟩ := Checked.bind_eq_ok.mp hrest
  obtain rfl : { bp with backendDefaults, groups } = out := Except.ok.inj hreturn
  refine ⟨rfl, Checked.map_eq_of_mapM_zipIdx hgroups fun group i image hread => ?_⟩
  dsimp only at hread
  split at hread
  · obtain rfl := Except.ok.inj hread
    rfl
  · obtain ⟨backend, -, hreturn⟩ := Checked.bind_eq_ok.mp hread
    obtain rfl := Except.ok.inj hreturn
    rfl

theorem outline_of_materialize (h : Backends.materialize bp = .ok out) :
    out.outline = bp.outline := by
  have hcontents := congrArg (List.map fun content : String × List Module =>
    (content.1, content.2.map Module.id)) (materialize_eq_ok h).2
  rw [List.map_map, List.map_map] at hcontents
  exact hcontents

theorem placed_of_materialize (h : Backends.materialize bp = .ok out) {module : Module}
    (hmodule : out.Placed i module) : bp.Placed i module := by
  obtain ⟨group, hgroup, hmem⟩ := hmodule
  have hat := congrArg (·[i]?) (materialize_eq_ok h).2
  rw [List.getElem?_map, List.getElem?_map, hgroup] at hat
  obtain ⟨original, horiginal, heq⟩ := Option.map_eq_some_iff.mp hat.symm
  exact ⟨original, horiginal, (Prod.mk.inj heq).2 ▸ hmem⟩

theorem refers_of_materialize (h : Backends.materialize bp = .ok out) (hrefers : out.Refers i j) :
    bp.Refers i j := by
  obtain ⟨hne, module, hmodule, name, reference, href, target, htarget, hid⟩ := hrefers
  exact ⟨hne, module, placed_of_materialize h hmodule, name, reference, href, target,
    placed_of_materialize h htarget, hid⟩

/-! ## Preparation -/

/-- The passes of an expansion before the staging of settings. -/
def prepare (bp : Blueprint) (catalog : Catalog) (options : ExpandOptions) : Checked Blueprint := do
  let bp := (← bp.applyOptions options).defaultKinds
  Structure.check bp catalog
  References.check bp catalog
  let bp := Backends.expand (← Labels.combine bp catalog)
  let bp ← bp.evaluateVars
  let _ ← bp.deploymentName
  let bp ← Use.apply bp catalog
  let bp ← Use.applyGlobals bp catalog
  let bp := Intergroup.populateOutputs bp
  (GroupGraph.ofBlueprint bp).checkDeclaredOrder bp
  return bp

theorem expand_eq (bp : Blueprint) (catalog : Catalog) (options : ExpandOptions) :
    bp.expand catalog options = bp.prepare catalog options >>= fun prepared =>
      prepared.stageSettings >>= Backends.materialize := by
  unfold expand prepare
  simp only [bind_assoc, pure_bind]

/-- A preparation that succeeds, pass by pass. -/
structure Preparation (bp : Blueprint) (catalog : Catalog) (options : ExpandOptions) where
  {chosen labelled evaluated used completed : Blueprint}
  {deployment : String}
  chooses : bp.applyOptions options = .ok chosen
  isStructured : Structure.check chosen.defaultKinds catalog = .ok ()
  isReferenced : References.check chosen.defaultKinds catalog = .ok ()
  labels : Labels.combine chosen.defaultKinds catalog = .ok labelled
  evaluates : (Backends.expand labelled).evaluateVars = .ok evaluated
  isNamed : evaluated.deploymentName = .ok deployment
  uses : Use.apply evaluated catalog = .ok used
  completes : Use.applyGlobals used catalog = .ok completed
  isOrdered : (GroupGraph.ofBlueprint (Intergroup.populateOutputs completed)).checkDeclaredOrder
    (Intergroup.populateOutputs completed) = .ok ()

def Preparation.result (run : Preparation bp catalog options) : Blueprint :=
  Intergroup.populateOutputs run.completed

theorem prepare_eq_ok :
    bp.prepare catalog options = .ok out
      ↔ ∃ run : Preparation bp catalog options, run.result = out := by
  constructor
  · intro h
    obtain ⟨_, hchosen, h⟩ := Checked.bind_eq_ok.mp h
    obtain ⟨_, hstructure, h⟩ := Checked.bind_eq_ok.mp h
    obtain ⟨_, hreferences, h⟩ := Checked.bind_eq_ok.mp h
    obtain ⟨_, hlabelled, h⟩ := Checked.bind_eq_ok.mp h
    obtain ⟨_, hevaluated, h⟩ := Checked.bind_eq_ok.mp h
    obtain ⟨_, hdeployment, h⟩ := Checked.bind_eq_ok.mp h
    obtain ⟨_, hused, h⟩ := Checked.bind_eq_ok.mp h
    obtain ⟨_, hcompleted, h⟩ := Checked.bind_eq_ok.mp h
    obtain ⟨_, hdeclared, hreturn⟩ := Checked.bind_eq_ok.mp h
    exact ⟨⟨hchosen, hstructure, hreferences, hlabelled, hevaluated, hdeployment, hused, hcompleted,
      hdeclared⟩, Except.ok.inj hreturn⟩
  · rintro ⟨run, rfl⟩
    exact Checked.bind_eq_ok.mpr ⟨_, run.chooses, Checked.bind_eq_ok.mpr ⟨_, run.isStructured,
      Checked.bind_eq_ok.mpr ⟨_, run.isReferenced, Checked.bind_eq_ok.mpr ⟨_, run.labels,
        Checked.bind_eq_ok.mpr ⟨_, run.evaluates, Checked.bind_eq_ok.mpr ⟨_, run.isNamed,
          Checked.bind_eq_ok.mpr ⟨_, run.uses, Checked.bind_eq_ok.mpr ⟨_, run.completes,
            Checked.bind_eq_ok.mpr ⟨(), run.isOrdered, rfl⟩⟩⟩⟩⟩⟩⟩⟩⟩

/-- A prepared blueprint has the names of the written one, its groups refer to earlier groups only,
and its deployment has a name. -/
structure Prepared (bp out : Blueprint) : Prop where
  outline : out.outline = bp.outline
  names : out.HasOwnNames
  back : ∀ i j, out.Refers i j → j < i
  deployment : ∃ deployment, out.deploymentName = .ok deployment

theorem prepared_of_prepare (h : bp.prepare catalog options = .ok out) : bp.Prepared out := by
  obtain ⟨run, rfl⟩ := prepare_eq_ok.mp h
  have hchecked : run.result.outline = run.chosen.defaultKinds.outline := by
    rw [Preparation.result, outline_populateOutputs, outline_of_applyGlobals run.completes,
      outline_of_apply run.uses, outline_of_evaluateVars run.evaluates, outline_backends,
      outline_of_combine run.labels]
  have hnames := (hasOwnNames_of_check run.isStructured).of_outline hchecked
  refine ⟨?_, hnames, (GroupGraph.checkDeclaredOrder_eq_ok hnames).mp run.isOrdered,
    run.deployment, ?_⟩
  · rw [hchecked, outline_defaultKinds, outline_of_applyOptions run.chooses]
  · have hvars : run.result.vars = run.evaluated.vars :=
      (mapped_of_mapModules run.completes).vars.trans (mapped_of_mapModules run.uses).vars
    have hname := run.isNamed
    unfold deploymentName at hname ⊢
    rwa [hvars]

end Blueprint

end ClusterBlueprint
