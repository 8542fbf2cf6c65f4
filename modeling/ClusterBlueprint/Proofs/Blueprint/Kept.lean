import ClusterBlueprint.Proofs.Blueprint.Prepared
import ClusterBlueprint.Proofs.Blueprint.StagedSettings
import ClusterBlueprint.Proofs.Blueprint.Uses
import ClusterBlueprint.Proofs.Blueprint.Planned
import ClusterBlueprint.Proofs.Evaluation.Mapped
import Mathlib.Data.List.Forall2

/-!
What an expansion keeps of a blueprint.

Every pass keeps the groups and the modules and what the author wrote in them: it fills in what is
missing, and adds outputs after those that are declared.  The last pass over the settings stages
their values.  `Blueprint.keeps_of_expand` puts the passes together.
-/

namespace ClusterBlueprint

/-- Item by item, the images of a list. -/
theorem Checked.forall₂_of_mapM_zipIdx {α β : Type} {read : α × Nat → Checked β} {xs : List α}
    {ys : List β} {r : α → β → Prop} (h : xs.zipIdx.mapM read = .ok ys)
    (hread : ∀ x i y, read (x, i) = .ok y → r x y) : List.Forall₂ r xs ys := by
  have hmap : List.Forall₂ (· = ·) (xs.zipIdx.map read) (ys.map .ok) :=
    List.forall₂_eq_eq_eq ▸ mapM_eq_ok.mp h
  rw [List.forall₂_map_left_iff, List.forall₂_map_right_iff] at hmap
  have hitems : List.Forall₂ r (xs.zipIdx.map Prod.fst) ys :=
    List.forall₂_map_left_iff.mpr (hmap.imp fun (x, i) y => hread x i y)
  rwa [List.zipIdx_map_fst] at hitems

theorem forall₂_comp {α β γ : Type} {r : α → β → Prop} {s : β → γ → Prop} {xs : List α}
    {ys : List β} {zs : List γ} (h : List.Forall₂ r xs ys) (hnext : List.Forall₂ s ys zs) :
    List.Forall₂ (Relation.Comp r s) xs zs := by
  induction h generalizing zs with
  | nil =>
    cases hnext
    exact .nil
  | cons hxy _ ih =>
    cases hnext with
    | cons hyz hrest => exact .cons ⟨_, hxy, hyz⟩ (ih hrest)

variable {becomes after : Entry → Entry → Prop}

/-- What stays of a module: outputs are only added after those there are, and each setting that is
not for labels stays, its entry turned into another. -/
structure Module.Keeps (becomes : Entry → Entry → Prop) (module image : Module) : Prop where
  id : image.id = module.id
  source : image.source = module.source
  uses : image.uses = module.uses
  kind : image.kind = module.kind ∨ module.kind = .unknown ∧ image.kind = .terraform
  outputs : module.outputs <+: image.outputs
  settings : ∀ key ≠ Labels.labelsName, ∀ entry, module.settings.find? key = some entry →
    ∃ found, image.settings.find? key = some found ∧ becomes entry found

/-- What stays of a group: its name, and its modules in their order. -/
structure Group.Keeps (becomes : Entry → Entry → Prop) (group image : Group) : Prop where
  name : image.name = group.name
  modules : List.Forall₂ (Module.Keeps becomes) group.modules image.modules

/-- What stays of a blueprint: its groups in their order. -/
def Blueprint.Keeps (becomes : Entry → Entry → Prop) (bp image : Blueprint) : Prop :=
  List.Forall₂ (Group.Keeps becomes) bp.groups image.groups

/-! ## One pass after another -/

theorem Module.Keeps.of_settings {module : Module} {settings : Dict}
    (h : ∀ key ≠ Labels.labelsName, ∀ entry, module.settings.find? key = some entry →
      ∃ found, settings.find? key = some found ∧ becomes entry found) :
    module.Keeps becomes { module with settings } :=
  ⟨rfl, rfl, rfl, .inl rfl, List.prefix_rfl, h⟩

theorem Module.Keeps.refl (module : Module) : module.Keeps (· = ·) module :=
  .of_settings fun _ _ entry hentry => ⟨entry, hentry, rfl⟩

theorem Module.Keeps.trans {module image last : Module} (h : module.Keeps becomes image)
    (hnext : image.Keeps after last) : module.Keeps (Relation.Comp becomes after) last where
  id := hnext.id.trans h.id
  source := hnext.source.trans h.source
  uses := hnext.uses.trans h.uses
  kind := by
    rcases h.kind with hkind | ⟨hunknown, hkind⟩
    · exact hkind ▸ hnext.kind
    · refine .inr ⟨hunknown, ?_⟩
      rcases hnext.kind with hlast | ⟨-, hlast⟩
      · exact hlast.trans hkind
      · exact hlast
  outputs := h.outputs.trans hnext.outputs
  settings key hkey entry hentry := by
    obtain ⟨found, hfound, hbecomes⟩ := h.settings key hkey entry hentry
    obtain ⟨other, hother, hafter⟩ := hnext.settings key hkey found hfound
    exact ⟨other, hother, found, hbecomes, hafter⟩

theorem Group.Keeps.trans {group image last : Group} (h : group.Keeps becomes image)
    (hnext : image.Keeps after last) : group.Keeps (Relation.Comp becomes after) last where
  name := hnext.name.trans h.name
  modules := (forall₂_comp h.modules hnext.modules).imp fun _ _ ⟨_, hmodule, hlast⟩ =>
    hmodule.trans hlast

namespace Blueprint

variable {bp out : Blueprint} {catalog : Catalog} {options : ExpandOptions}

theorem Keeps.trans {last : Blueprint} (h : bp.Keeps becomes out) (hnext : out.Keeps after last) :
    bp.Keeps (Relation.Comp becomes after) last :=
  (forall₂_comp h hnext).imp fun _ _ ⟨_, hgroup, hlast⟩ => hgroup.trans hlast

/-- A pass that keeps all entries, and a pass after it. -/
theorem Keeps.then {last : Blueprint} (h : bp.Keeps (· = ·) out) (hnext : out.Keeps after last) :
    bp.Keeps after last := by
  have hboth := h.trans hnext
  rwa [Relation.eq_comp] at hboth

theorem keeps_of_contents (h : out.groups.map (fun group => (group.name, group.modules))
    = bp.groups.map fun group => (group.name, group.modules)) : bp.Keeps (· = ·) out := by
  have hcontents : List.Forall₂ (· = ·)
      (out.groups.map fun group => (group.name, group.modules))
      (bp.groups.map fun group => (group.name, group.modules)) := List.forall₂_eq_eq_eq ▸ h
  rw [List.forall₂_map_left_iff, List.forall₂_map_right_iff] at hcontents
  refine List.Forall₂.flip (hcontents.imp fun image group heq => ?_)
  obtain ⟨hname, hmodules⟩ := Prod.mk.inj heq
  refine ⟨hname, ?_⟩
  rw [hmodules]
  exact List.forall₂_same.mpr fun module _ => Module.Keeps.refl module

theorem keeps_of_map {f : Module → Module}
    (h : ∀ module : Module, module.Keeps becomes (f module)) :
    bp.Keeps becomes { bp with groups := bp.groups.map fun group =>
      { group with modules := group.modules.map f } } := by
  refine List.forall₂_map_right_iff.mpr (List.forall₂_same.mpr fun group _ => ⟨rfl, ?_⟩)
  exact List.forall₂_map_right_iff.mpr (List.forall₂_same.mpr fun module _ => h module)

theorem keeps_of_mapModules {f : Location → Module → Checked Module}
    (h : bp.mapModules f = .ok out)
    (hf : ∀ place module image, f place module = .ok image → module.Keeps becomes image) :
    bp.Keeps becomes out := by
  obtain ⟨groups, hgroups, hreturn⟩ := Checked.bind_eq_ok.mp h
  obtain rfl : { bp with groups } = out := Except.ok.inj hreturn
  refine Checked.forall₂_of_mapM_zipIdx hgroups fun group i image hread => ?_
  obtain ⟨modules, hmodules, hreturn⟩ := Checked.bind_eq_ok.mp hread
  obtain rfl : { group with modules } = image := Except.ok.inj hreturn
  exact ⟨rfl, Checked.forall₂_of_mapM_zipIdx hmodules fun module j => hf (.module i j) module⟩

end Blueprint

/-! ## Each pass -/

theorem Labels.keeps_of_mergeModule {catalog : Catalog} {place : Location} {module image : Module}
    (h : mergeModule catalog place module = .ok image) : module.Keeps (· = ·) image := by
  obtain ⟨interface, -, hrest⟩ := Checked.bind_eq_ok.mp h
  split at hrest
  · exact Except.ok.inj hrest ▸ .refl module
  · obtain ⟨args, -, hreturn⟩ := Checked.bind_eq_ok.mp hrest
    obtain rfl := Except.ok.inj hreturn
    refine .of_settings fun key hkey entry hentry => ⟨entry, ?_, rfl⟩
    exact (Dict.find?_setEntry_of_ne hkey _).trans hentry

namespace Blueprint

variable {bp out : Blueprint} {catalog : Catalog} {options : ExpandOptions}

theorem keeps_defaultKinds (bp : Blueprint) : bp.Keeps (· = ·) bp.defaultKinds := by
  refine keeps_of_map fun module => ?_
  split
  · next hunknown =>
    exact ⟨rfl, rfl, rfl, .inr ⟨hunknown, rfl⟩, List.prefix_rfl,
      fun _ _ entry hentry => ⟨entry, hentry, rfl⟩⟩
  · exact .refl module

theorem keeps_of_combine (h : Labels.combine bp catalog = .ok out) : bp.Keeps (· = ·) out := by
  obtain ⟨labelled, hlabelled, hmap⟩ := Checked.bind_eq_ok.mp h
  obtain ⟨labels, rfl⟩ := Labels.completeGlobal_eq hlabelled
  have hlabels : bp.Keeps (· = ·) { bp with
      vars := bp.vars.set Labels.labelsName (.object labels) } := keeps_of_contents rfl
  exact hlabels.then (keeps_of_mapModules hmap fun _ _ _ => Labels.keeps_of_mergeModule)

theorem keeps_backends (bp : Blueprint) : bp.Keeps (· = ·) (Backends.expand bp) := by
  refine keeps_of_contents ?_
  unfold Backends.expand
  rw [List.map_map]
  rfl

theorem keeps_of_evaluateVars (h : bp.evaluateVars = .ok out) : bp.Keeps (· = ·) out := by
  obtain ⟨vars, -, rfl⟩ := evaluateVars_eq_ok.mp h
  exact keeps_of_contents rfl

end Blueprint

namespace Use

variable {bp out : Blueprint} {catalog : Catalog} {settings : Dict} {id key : String}
  {entry : Entry}

/-- What the author wrote is not an input to fill. -/
theorem find?_take_of_written {interface used : Interface} {written : List String}
    (hwritten : key ∈ written) :
    Dict.find? (take interface written settings id used) key = settings.find? key := by
  have hnone : unwritten? interface written key = none :=
    if_pos (List.contains_iff_mem.mpr hwritten)
  rw [find?_take, hnone]
  rfl

theorem keeps_of_applyModule {place : Location} {module image : Module}
    (h : applyModule bp catalog place module = .ok image) : module.Keeps (· = ·) image := by
  unfold applyModule at h
  split at h
  · exact Except.ok.inj h ▸ .refl module
  · obtain ⟨interface, -, hrest⟩ := Checked.bind_eq_ok.mp h
    obtain ⟨settings, hfold, hreturn⟩ := Checked.bind_eq_ok.mp hrest
    obtain rfl := Except.ok.inj hreturn
    refine .of_settings fun key _ entry hentry => ⟨entry, ?_, rfl⟩
    have hkey : key ∈ module.settings.keys :=
      Dict.has_iff_mem_keys.mp (SortedMap.contains_iff_exists.mpr ⟨entry, hentry⟩)
    refine Checked.foldlM_keeps (fun next : Dict => next.find? key = some entry) hentry
      (fun used _ before next hbefore hnext => ?_) hfold
    obtain ⟨usedInterface, -, htake⟩ := Checked.bind_eq_ok.mp hnext
    obtain rfl := Except.ok.inj htake
    exact (find?_take_of_written hkey).trans hbefore

theorem find?_of_setGlobal {vars next : Dict} {input : Input}
    (h : setGlobal vars id settings input = .ok next) (hentry : settings.find? key = some entry) :
    next.find? key = some entry := by
  unfold setGlobal at h
  split at h
  · exact Except.ok.inj h ▸ hentry
  · next hnot =>
    split at h
    · obtain rfl := Except.ok.inj h
      have hne : key ≠ input.name := by
        rintro rfl
        exact hnot (SortedMap.contains_iff_exists.mpr ⟨entry, hentry⟩)
      exact (Dict.find?_setEntry_of_ne hne _).trans hentry
    · split at h
      · exact absurd h nofun
      · exact Except.ok.inj h ▸ hentry

theorem keeps_of_globalsModule {place : Location} {module image : Module}
    (h : globalsModule bp catalog place module = .ok image) : module.Keeps (· = ·) image := by
  obtain ⟨interface, settings, -, hfold, rfl⟩ := globalsModule_eq_ok h
  refine .of_settings fun key _ entry hentry => ⟨entry, ?_, rfl⟩
  exact Checked.foldlM_keeps (fun next : Dict => next.find? key = some entry) hentry
    (fun _ _ _ _ hbefore hnext => find?_of_setGlobal hnext hbefore) hfold

end Use

theorem Intergroup.keeps_declareOutputs (references : List Reference) (module : Module) :
    module.Keeps (· = ·) (declareOutputs references module) := by
  obtain ⟨names, heq, -⟩ := exists_declareOutputs references module
  have hkeeps := Module.Keeps.refl module
  rw [heq]
  exact ⟨hkeeps.id, hkeeps.source, hkeeps.uses, hkeeps.kind, List.prefix_append _ _,
    hkeeps.settings⟩

namespace Blueprint

variable {bp out : Blueprint} {catalog : Catalog} {options : ExpandOptions}

theorem keeps_of_prepare (h : bp.prepare catalog options = .ok out) : bp.Keeps (· = ·) out := by
  obtain ⟨run, rfl⟩ := prepare_eq_ok.mp h
  have hoptions : bp.Keeps (· = ·) run.chosen :=
    keeps_of_contents (congrArg _ (groups_of_applyOptions run.chooses))
  have huses : run.evaluated.Keeps (· = ·) run.used :=
    keeps_of_mapModules run.uses fun _ _ _ => Use.keeps_of_applyModule
  have hglobals : run.used.Keeps (· = ·) run.completed :=
    keeps_of_mapModules run.completes fun _ _ _ => Use.keeps_of_globalsModule
  have houtputs : run.completed.Keeps (· = ·) run.result :=
    keeps_of_map (Intergroup.keeps_declareOutputs _)
  have hfilled := huses.then (hglobals.then houtputs)
  have hlabels := (keeps_of_combine run.labels).then (keeps_backends run.labelled)
  have hevaluation := (hlabels.then (keeps_of_evaluateVars run.evaluates)).then hfilled
  exact (hoptions.then (keeps_defaultKinds run.chosen)).then hevaluation

/-- What becomes of an entry under global variables: its value is staged, and where it comes from
stays. -/
def Stages (vars : Dict) (entry image : Entry) : Prop :=
  ∃ value, (Staging.stageValue vars.values entry.value).result = .ok value
    ∧ image = { entry with value := value }

theorem keeps_of_stageSettings (h : bp.stageSettings = .ok out) :
    bp.Keeps (Stages bp.vars) out := by
  obtain ⟨image, hmap, rfl⟩ := stageSettings_eq_ok.mp h
  have hkeeps : bp.Keeps (Stages bp.vars) image := by
    refine keeps_of_mapModules hmap fun place module staged hread => ?_
    obtain ⟨settings, hsettings, rfl⟩ := stageModule_eq_ok.mp hread
    refine .of_settings fun key _ entry hentry => ?_
    obtain ⟨value, hvalue, hfound⟩ := Dict.exists_entry_of_mapValues hsettings hentry
    rw [Evaluation.result_located] at hvalue
    exact ⟨_, hfound, value, Checked.mapError_eq_ok.mp hvalue, rfl⟩
  exact hkeeps

/-- An expansion keeps the groups and the modules, what they declare and what is set in them: values
are staged under the final global variables, and nothing else happens to them. -/
theorem keeps_of_expand (h : bp.expand catalog options = .ok out) :
    bp.Keeps (Stages out.vars) out := by
  rw [expand_eq] at h
  obtain ⟨prepared, hprepare, hrest⟩ := Checked.bind_eq_ok.mp h
  obtain ⟨staged, hstaged, hmaterialize⟩ := Checked.bind_eq_ok.mp hrest
  obtain ⟨hvars, hcontents⟩ := materialize_eq_ok hmaterialize
  have hboth := (keeps_of_prepare hprepare).then (keeps_of_stageSettings hstaged)
  have hall := hboth.trans (keeps_of_contents hcontents)
  rwa [Relation.comp_eq, ← vars_of_stageSettings hstaged, ← hvars] at hall

/-! ### A machine in a network -/

def wireCatalog : Catalog := ⟨.ofList [
  ("modules/network/vpc", { interface := { outputs := [{ name := "network" }] } }),
  ("modules/compute/vm", { interface := { inputs := [{ name := "network" }] } })]⟩

def wires (kind : ModuleKind) (vars settings : Dict) : Blueprint where
  name := "bp"
  path := "/bp/bp.yaml"
  vars := vars
  groups := [{ name := "main", modules := [
    { source := "modules/network/vpc", kind, id := "net" },
    { source := "modules/compute/vm", kind, id := "vm", uses := ["net"], settings }] }]

def wireVars : Dict := .ofValues (.ofList [("deployment_name", .string "d")])

/-- The settings of the machine after it took the network. -/
def networked : Dict := Dict.setEntry ∅ "network" (Use.outputEntry "net" "network")

theorem apply_wires : Use.apply (wires .unknown wireVars ∅) wireCatalog
    = .ok (wires .unknown wireVars networked) := rfl

theorem prepare_wires : (wires .unknown wireVars networked).prepare wireCatalog {}
    = .ok (wires .terraform pairVars networked) := by
  let labelled := wires .terraform pairLabels networked
  let bp := wires .terraform pairVars networked
  have hlabels : Labels.combine (wires .terraform wireVars networked) wireCatalog
      = .ok labelled := rfl
  have hvars : (Backends.expand labelled).evaluateVars = .ok bp := evaluateVars_pairLabels rfl
  have huses : Use.apply bp wireCatalog = .ok bp := rfl
  have hglobals : Use.applyGlobals bp wireCatalog = .ok bp := rfl
  have houtputs : Intergroup.populateOutputs bp = bp := rfl
  have hnames : bp.HasOwnNames :=
    ⟨by show ["main"].Nodup; decide, by show ["net", "vm"].Nodup; decide⟩
  -- There is one group only.
  have hfirst : ∀ i module, bp.Placed i module → i = 0 := by
    rintro i module ⟨group, hgroup, -⟩
    have hlt : i < 1 := (List.getElem?_eq_some_iff.mp hgroup).1
    exact Nat.lt_one_iff.mp hlt
  have hdeclared : (GroupGraph.ofBlueprint bp).checkDeclaredOrder bp = .ok () := by
    refine (GroupGraph.checkDeclaredOrder_eq_ok hnames).mpr fun i j hrefers => ?_
    obtain ⟨hne, module, hmodule, -, -, -, target, htarget, -⟩ := hrefers
    exact absurd ((hfirst i module hmodule).trans (hfirst j target htarget).symm) hne
  rw [← houtputs] at hdeclared
  exact prepare_eq_ok.mpr
    ⟨⟨rfl, rfl, rfl, hlabels, hvars, rfl, huses, hglobals, hdeclared⟩, houtputs⟩

theorem expand_wires : ∃ staged, (wires .unknown wireVars networked).expand wireCatalog {}
    = .ok { wires .terraform pairVars networked with staged } := by
  let bp := wires .terraform pairVars networked
  have hmap : bp.mapModules (fun place module => (bp.stageModule place module).result)
      = .ok bp := by with_unfolding_all rfl
  exact exists_expand_of_prepare prepare_wires hmap fun _ => rfl

theorem keeps_of_expand_of_wires : ∃ out,
    (wires .unknown wireVars networked).expand wireCatalog {} = .ok out
      ∧ (wires .unknown wireVars networked).Keeps (Stages out.vars) out := by
  obtain ⟨staged, hexpand⟩ := expand_wires
  exact ⟨_, hexpand, keeps_of_expand hexpand⟩

/-- A setting that was made of an output before the expansion is known as such afterwards. -/
theorem not_keeps_of_expand : ∃ used out,
    Use.apply (wires .unknown wireVars ∅) wireCatalog = .ok used
      ∧ used.expand wireCatalog {} = .ok out
      ∧ ¬ used.Keeps (fun entry image => ∃ value,
        (Staging.stageValue out.vars.values entry.value).result = .ok value ∧ image = ⟨value, []⟩)
        out := by
  obtain ⟨staged, hexpand⟩ := expand_wires
  refine ⟨_, _, apply_wires, hexpand, fun hkeeps => ?_⟩
  cases hkeeps with
  | cons hgroup _ =>
    cases hgroup.modules with
    | cons _ hrest =>
      cases hrest with
      | cons hmodule _ =>
        obtain ⟨found, hfound, value, -, himage⟩ := hmodule.settings "network" (by decide)
          (Use.outputEntry "net" "network") rfl
        have hentry : Use.outputEntry "net" "network" = found := Option.some.inj hfound
        have huse : ["net"] = [] := congrArg Entry.fromUse (hentry.trans himage)
        exact absurd huse (List.cons_ne_nil _ _)

end Blueprint

end ClusterBlueprint
