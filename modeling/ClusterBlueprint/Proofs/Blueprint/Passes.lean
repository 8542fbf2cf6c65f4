import ClusterBlueprint.Blueprint.Expansion
import ClusterBlueprint.Proofs.Blueprint.Wired
import ClusterBlueprint.Proofs.Variables.Solution

/-!
The passes of an expansion that write settings, up to the global variables.

Each of them keeps a blueprint wired, and after the last no required input is without a setting.
-/

namespace ClusterBlueprint

section Dict

variable {p : Reference → Prop} {dict : Dict} {name : String}

theorem Dict.RefersBy.setEntry {entry : Entry} (h : dict.RefersBy p)
    (hentry : ∀ reference ∈ entry.value.references, p reference) :
    (dict.setEntry name entry).RefersBy p := by
  intro other reference href
  by_cases heq : other = name
  · subst heq
    rw [Dict.get_setEntry_self] at href
    exact hentry reference href
  · rw [Dict.get_setEntry_of_ne heq] at href
    exact h other reference href

theorem Dict.RefersBy.of_entry {entry : Entry} (h : dict.RefersBy p)
    (hentry : dict.find? name = some entry) :
    ∀ reference ∈ entry.value.references, p reference := by
  intro reference href
  refine h name reference ?_
  rwa [Dict.get, hentry]

end Dict

/-! ## Labels -/

namespace Labels

variable {p : Reference → Prop} {catalog : Catalog}

theorem mem_withMissing {labels others : Fields Value} {field : String × Value}
    (h : field ∈ withMissing labels others) : field ∈ labels ∨ field ∈ others := by
  induction others generalizing labels with
  | nil => exact .inl h
  | cons first others ih =>
    rcases ih h with hlabels | hothers
    · dsimp only at hlabels
      split at hlabels
      · exact .inl hlabels
      · rcases Fields.mem_put hlabels with rfl | hmem
        · exact .inr List.mem_cons_self
        · exact .inl hmem
    · exact .inr (List.mem_cons_of_mem _ hothers)

/-- The expressions in the labels to merge are the global labels and those of the module's own
labels. -/
theorem expressions_mergeArgs {q : Expression → Prop} {roleLabels : Fields Value} {own : Value}
    {args : List Value} (hrole : ∀ field ∈ roleLabels, field.2.expressions = [])
    (h : mergeArgs roleLabels own = .ok args) (hglobal : q (.ofReference (.global labelsName)))
    (hown : ∀ e ∈ own.expressions, q e) : ∀ arg ∈ args, ∀ e ∈ arg.expressions, q e := by
  have hlabels : ∀ e ∈ globalLabels.expressions, q e := List.forall_mem_singleton.mpr hglobal
  have hroles : ∀ e ∈ (Value.object roleLabels).expressions, q e := by
    intro e he
    rw [Value.expressions_object] at he
    obtain ⟨field, hfield, hmem⟩ := List.mem_flatMap.mp he
    rw [hrole field hfield] at hmem
    exact absurd hmem List.not_mem_nil
  unfold mergeArgs at h
  split at h
  · obtain rfl := Except.ok.inj h
    simpa using ⟨hlabels, hroles⟩
  · next fields =>
    obtain rfl := Except.ok.inj h
    rw [Value.expressions_object] at hown hroles
    have hmerged : ∀ e ∈ (Value.object (withMissing fields roleLabels)).expressions, q e := by
      intro e he
      rw [Value.expressions_object] at he
      obtain ⟨field, hfield, hmem⟩ := List.mem_flatMap.mp he
      rcases mem_withMissing hfield with hfield | hfield
      · exact hown e (List.mem_flatMap.mpr ⟨field, hfield, hmem⟩)
      · exact hroles e (List.mem_flatMap.mpr ⟨field, hfield, hmem⟩)
    simpa using ⟨hlabels, hmerged⟩
  · obtain rfl := Except.ok.inj h
    simpa using ⟨hlabels, hroles, hown⟩
  · exact absurd h nofun

theorem mergeModule_refersBy {place : Location} {module image : Module}
    (hglobal : p (.global labelsName)) (hsettings : module.settings.RefersBy p)
    (h : mergeModule catalog place module = .ok image) :
    ∃ settings, image = { module with settings } ∧ settings.RefersBy p := by
  obtain ⟨interface, -, hrest⟩ := Checked.bind_eq_ok.mp h
  split at hrest
  · exact ⟨module.settings, (Except.ok.inj hrest).symm, hsettings⟩
  · obtain ⟨args, hargs, hreturn⟩ := Checked.bind_eq_ok.mp hrest
    refine ⟨_, (Except.ok.inj hreturn).symm, hsettings.setEntry fun reference href => ?_⟩
    rw [Value.references_expression] at href
    obtain ⟨arg, harg, hmem⟩ := Value.mem_references_callOf.mp href
    obtain ⟨e, he, href⟩ := List.mem_flatMap.mp hmem
    have hrole : ∀ field ∈ Fields.put roleLabel (Value.string (role module.source)) [],
        field.2.expressions = [] := List.forall_mem_singleton.mpr rfl
    refine expressions_mergeArgs hrole (Checked.located_eq_ok.mp hargs)
      (q := fun e => ∀ reference ∈ e.references, p reference) ?_ ?_ arg harg e he reference href
    · exact List.forall_mem_singleton.mpr hglobal
    · exact fun e he reference href =>
        hsettings _ reference (List.mem_flatMap.mpr ⟨e, he, href⟩)

theorem completeGlobal_eq {bp out : Blueprint} (h : completeGlobal bp = .ok out) :
    ∃ labels, out = { bp with vars := bp.vars.set labelsName (.object labels) } := by
  unfold completeGlobal at h
  dsimp only at h
  split at h
  · exact ⟨_, (Except.ok.inj h).symm⟩
  · exact ⟨_, (Except.ok.inj h).symm⟩
  · exact absurd h nofun

theorem wired_combine {bp out : Blueprint} (hwired : bp.Wired catalog)
    (h : combine bp catalog = .ok out) : out.Wired catalog := by
  obtain ⟨labelled, hlabelled, hmap⟩ := Checked.bind_eq_ok.mp h
  obtain ⟨labels, rfl⟩ := completeGlobal_eq hlabelled
  have hcomplete : Blueprint.Wired { bp with vars := bp.vars.set labelsName (.object labels) }
      catalog :=
    hwired.of_placed (fun _ _ => Iff.rfl) fun name hname => Dict.has_setEntry.mpr (.inr hname)
  refine hcomplete.mapped hmap fun horiginal hread => ?_
  have hglobal : (bp.vars.set labelsName (.object labels)).has labelsName :=
    Dict.has_setEntry.mpr (.inl rfl)
  exact mergeModule_refersBy hglobal (hcomplete.settings horiginal) hread

end Labels

/-! ## Backends and variables -/

theorem Backends.placed_expand {bp : Blueprint} {i : Nat} {module : Module} :
    (expand bp).Placed i module ↔ bp.Placed i module := by
  have hgroup : (expand bp).groups[i]? = (bp.groups[i]?).map fun group =>
      { group with backend := (inherited bp group).map (withPrefix bp group.name) } :=
    List.getElem?_map
  constructor
  · rintro ⟨image, himage, hmem⟩
    rw [hgroup] at himage
    obtain ⟨group, hfound, rfl⟩ := Option.map_eq_some_iff.mp himage
    exact ⟨group, hfound, hmem⟩
  · rintro ⟨group, hfound, hmem⟩
    exact ⟨_, hgroup.trans (congrArg _ hfound), hmem⟩

theorem Backends.wired_expand {bp : Blueprint} {catalog : Catalog} (hwired : bp.Wired catalog) :
    (expand bp).Wired catalog := hwired.of_placed (fun _ _ => placed_expand) fun _ => id

theorem Blueprint.evaluateVars_eq_ok {bp out : Blueprint} :
    bp.evaluateVars = .ok out ↔ ∃ vars, (Variables.evaluate bp.vars).result = .ok vars
      ∧ { bp with
          vars, staged := bp.staged.recordAll bp.directory
            (Variables.evaluate bp.vars).staged } = out := by
  unfold evaluateVars evaluating
  cases (Variables.evaluate bp.vars).result with
  | error fault => exact ⟨nofun, nofun⟩
  | ok vars =>
    constructor
    · exact fun h => ⟨vars, rfl, Except.ok.inj h⟩
    · rintro ⟨_, ⟨⟩, rfl⟩
      rfl

theorem Blueprint.wired_evaluateVars {bp out : Blueprint} {catalog : Catalog}
    (hwired : bp.Wired catalog) (h : bp.evaluateVars = .ok out) : out.Wired catalog := by
  obtain ⟨vars, hevaluated, rfl⟩ := evaluateVars_eq_ok.mp h
  refine hwired.of_placed (fun _ _ => Iff.rfl) fun name hname => ?_
  rw [Dict.has_iff_mem_keys] at hname ⊢
  rwa [Variables.keys_of_evaluate hevaluated]

/-! ## Uses -/

namespace Use

variable {p : Reference → Prop} {bp out : Blueprint} {catalog : Catalog} {settings : Dict}
  {id : String}

theorem offer_refersBy {input : Input} (hnew : p (.ofModule id input.name))
    (h : settings.RefersBy p) : (offer id settings input).RefersBy p := by
  have hentry : ∀ reference ∈ (outputEntry id input.name).value.references, p reference := by
    intro reference href
    rwa [Value.eq_of_mem_references_output href]
  unfold offer
  dsimp only
  split
  · exact h.setEntry hentry
  · next existing hexisting =>
    split
    · refine h.setEntry fun reference href => ?_
      rw [accumulate, Entry.ofUse, Value.references_expression] at href
      obtain ⟨arg, harg, hmem⟩ := Value.mem_references_callOf.mp href
      rw [List.mem_singleton.mp harg] at hmem
      obtain ⟨item, hitem, hreference⟩ := Value.mem_references_list.mp hmem
      rcases List.mem_pair.mp hitem with rfl | rfl
      · exact hentry reference hreference
      · exact h.of_entry hexisting reference hreference
    · exact h

theorem take_refersBy {interface used : Interface} {written : List String}
    (houtput : ∀ output ∈ used.outputs, p (.ofModule id output.name)) (h : settings.RefersBy p) :
    (take interface written settings id used).RefersBy p := by
  unfold take
  generalize used.outputs = outputs at houtput
  induction outputs generalizing settings with
  | nil => exact h
  | cons output outputs ih =>
    obtain ⟨hfirst, hrest⟩ := List.forall_mem_cons.mp houtput
    refine ih ?_ hrest
    dsimp only
    split
    · next input hinput =>
      split
      · exact h
      · have hname : input.name = output.name := by simpa using List.find?_some hinput
        exact offer_refersBy (hname ▸ hfirst) h
    · exact h

theorem applyModule_refersBy {place : Location} {module image : Module}
    (huses : ∀ used ∈ module.uses, ∀ interface, resolve bp catalog used = .ok interface →
      ∀ output ∈ interface.outputs, p (.ofModule used output.name))
    (hsettings : module.settings.RefersBy p) (h : applyModule bp catalog place module = .ok image) :
    ∃ settings, image = { module with settings } ∧ settings.RefersBy p := by
  unfold applyModule at h
  split at h
  · exact ⟨module.settings, (Except.ok.inj h).symm, hsettings⟩
  · obtain ⟨interface, -, hrest⟩ := Checked.bind_eq_ok.mp h
    obtain ⟨settings, hfold, hreturn⟩ := Checked.bind_eq_ok.mp hrest
    refine ⟨settings, (Except.ok.inj hreturn).symm, ?_⟩
    refine Checked.foldlM_keeps (Dict.RefersBy p) hsettings
      (fun x hx before next hp hnext => ?_) hfold
    obtain ⟨usedInterface, hresolve, htake⟩ := Checked.bind_eq_ok.mp hnext
    obtain rfl := Except.ok.inj htake
    have hused := List.fst_mem_of_mem_zipIdx hx
    exact take_refersBy (huses x.1 hused usedInterface (Checked.located_eq_ok.mp hresolve)) hp

/-- The interface of a used module is that of the module that the uses were checked for. -/
theorem interface_of_resolve {target : Module} {i : Nat} {interface : Interface}
    (hwired : bp.Wired catalog) (htarget : bp.Placed i target)
    (h : resolve bp catalog target.id = .ok interface) :
    catalog.interface target.source target.kind = .ok interface := by
  unfold resolve at h
  split at h
  · exact absurd h nofun
  · next last hlast =>
    have hmem := List.mem_reverse.mp (List.mem_of_find?_eq_some hlast)
    obtain ⟨j, hplaced⟩ := Blueprint.mem_modules.mp hmem
    have hid : last.id = target.id := by simpa using List.find?_some hlast
    obtain ⟨hsource, hkind⟩ := hwired.same hplaced htarget hid
    rwa [← hsource, ← hkind]

theorem wired_apply (hwired : bp.Wired catalog) (h : apply bp catalog = .ok out) :
    out.Wired catalog := by
  refine hwired.mapped h fun {i _ original _} horiginal hread => ?_
  refine applyModule_refersBy (fun used hused interface hresolve output houtput => ?_)
    (hwired.settings horiginal) hread
  obtain ⟨target, hreaches, rfl⟩ := hwired.uses horiginal used hused
  obtain ⟨j, -, htarget⟩ := hreaches.placed
  refine ⟨target, interface, hreaches, rfl, interface_of_resolve hwired htarget hresolve, ?_⟩
  exact List.any_eq_true.mpr ⟨output, houtput, decide_eq_true rfl⟩

/-! ## Global variables -/

theorem setGlobal_refersBy {vars next : Dict} {input : Input}
    (hvars : ∀ name, vars.has name → p (.global name)) (h : settings.RefersBy p)
    (hnext : setGlobal vars id settings input = .ok next) : next.RefersBy p := by
  unfold setGlobal at hnext
  split at hnext
  · exact Except.ok.inj hnext ▸ h
  · split at hnext
    · next hhas =>
      obtain rfl := Except.ok.inj hnext
      refine h.setEntry fun reference href => ?_
      rw [Value.eq_of_mem_references_global href]
      exact hvars _ hhas
    · split at hnext
      · exact absurd hnext nofun
      · exact Except.ok.inj hnext ▸ h

theorem has_of_setGlobal {vars next : Dict} {input : Input}
    (hnext : setGlobal vars id settings input = .ok next) :
    (∀ name, settings.has name → next.has name) ∧ (input.required → next.has input.name) := by
  unfold setGlobal at hnext
  split at hnext
  · next hhas =>
    obtain rfl := Except.ok.inj hnext
    exact ⟨fun _ hname => hname, fun _ => hhas⟩
  · split at hnext
    · obtain rfl := Except.ok.inj hnext
      exact ⟨fun _ hname => Dict.has_setEntry.mpr (.inr hname),
        fun _ => Dict.has_setEntry.mpr (.inl rfl)⟩
    · split at hnext
      · exact absurd hnext nofun
      · next hoptional =>
        obtain rfl := Except.ok.inj hnext
        exact ⟨fun _ hname => hname, fun hrequired => absurd hrequired hoptional⟩

theorem has_of_setGlobals {vars last : Dict} {inputs : List Input}
    (h : inputs.foldlM (setGlobal vars id) settings = .ok last) :
    (∀ name, settings.has name → last.has name)
      ∧ ∀ input ∈ inputs, input.required → last.has input.name := by
  induction inputs generalizing settings with
  | nil =>
    obtain rfl := Except.ok.inj h
    exact ⟨fun _ hname => hname, List.forall_mem_nil _⟩
  | cons input inputs ih =>
    rw [List.foldlM_cons] at h
    obtain ⟨next, hnext, hlast⟩ := Checked.bind_eq_ok.mp h
    obtain ⟨hkeeps, hrequired⟩ := has_of_setGlobal hnext
    obtain ⟨hrest, hall⟩ := ih hlast
    exact ⟨fun name hname => hrest name (hkeeps name hname), List.forall_mem_cons.mpr
      ⟨fun hinput => hrest _ (hrequired hinput), hall⟩⟩

/-- No input that a module requires is without a setting. -/
def IsComplete (catalog : Catalog) (module : Module) : Prop :=
  ∃ interface, catalog.interface module.source module.kind = .ok interface
    ∧ ∀ input ∈ interface.inputs, input.required → module.settings.has input.name

theorem globalsModule_eq_ok {place : Location} {module image : Module}
    (h : globalsModule bp catalog place module = .ok image) :
    ∃ interface settings, catalog.interface module.source module.kind = .ok interface
      ∧ interface.inputs.foldlM (setGlobal bp.vars module.id) module.settings = .ok settings
      ∧ image = { module with settings } := by
  obtain ⟨interface, hinterface, hrest⟩ := Checked.bind_eq_ok.mp h
  obtain ⟨settings, hfold, hreturn⟩ := Checked.bind_eq_ok.mp hrest
  exact ⟨interface, settings, Checked.located_eq_ok.mp hinterface, Checked.located_eq_ok.mp hfold,
    (Except.ok.inj hreturn).symm⟩

theorem wired_applyGlobals (hwired : bp.Wired catalog) (h : applyGlobals bp catalog = .ok out) :
    out.Wired catalog := by
  refine hwired.mapped h fun {i _ original _} horiginal hread => ?_
  obtain ⟨interface, settings, -, hfold, heq⟩ := globalsModule_eq_ok hread
  refine ⟨settings, heq, ?_⟩
  exact Checked.foldlM_keeps (Dict.RefersBy (bp.Leads catalog i)) (hwired.settings horiginal)
    (fun _ _ _ _ hp hnext => setGlobal_refersBy (fun _ => id) hp hnext) hfold

theorem isComplete_of_applyGlobals (h : applyGlobals bp catalog = .ok out) {i : Nat}
    {module : Module} (hmodule : out.Placed i module) : IsComplete catalog module := by
  obtain ⟨place, original, -, hread⟩ := (Blueprint.mapped_of_mapModules h).back hmodule
  obtain ⟨interface, settings, hinterface, hfold, rfl⟩ := globalsModule_eq_ok hread
  exact ⟨interface, hinterface, (has_of_setGlobals hfold).2⟩

end Use

/-! ## All of them -/

namespace Blueprint

/-- After the passes every reference in a setting leads to a variable, or to an output of a module
that may be referred to, and every required input is set. -/
theorem leads_of_passes {bp combined evaluated used out : Blueprint} {catalog : Catalog}
    (hstructure : Structure.check bp.defaultKinds catalog = .ok ())
    (hreferences : References.check bp.defaultKinds catalog = .ok ())
    (hlabels : Labels.combine bp.defaultKinds catalog = .ok combined)
    (hvars : (Backends.expand combined).evaluateVars = .ok evaluated)
    (huses : Use.apply evaluated catalog = .ok used)
    (hglobals : Use.applyGlobals used catalog = .ok out) :
    ∀ i module, out.Placed i module →
      (∀ name, ∀ reference ∈ (module.settings.get name).references, out.Leads catalog i reference)
        ∧ Use.IsComplete catalog module := by
  have hchecked := wired_of_checks hstructure hreferences
  have hcombined := Backends.wired_expand (Labels.wired_combine hchecked hlabels)
  have hevaluated := wired_evaluateVars hcombined hvars
  have hwired := Use.wired_applyGlobals (Use.wired_apply hevaluated huses) hglobals
  intro i module hmodule
  exact ⟨hwired.settings hmodule, Use.isComplete_of_applyGlobals hglobals hmodule⟩

def pairCatalog : Catalog := ⟨.ofList [
  ("modules/network/vpc", { interface := { outputs := [{ name := "network" }] } }),
  ("modules/compute/vm", { interface := { inputs := [
    { name := "network", required := true }, { name := "zone", required := true },
    { name := "labels" }] } })]⟩

def pair : Blueprint where
  name := "pair"
  vars := .ofValues (.ofList [("zone", .string "a")])
  groups := [{ name := "main", modules := [
    { source := "modules/network/vpc", id := "net" },
    { source := "modules/compute/vm", id := "vm", uses := ["net"] }] }]

def labelled : Dict := .ofValues (.ofList [
  ("labels", .object [("ghpc_blueprint", .string "pair")]), ("zone", .string "a")])

theorem evaluate_labelled : (Variables.evaluate labelled).result = .ok labelled := by
  have hkeys : labelled.keys.attach = [⟨"labels", by decide⟩, ⟨"zone", by decide⟩] := by rfl
  rw [Variables.evaluate, Variables.resolveAll_eq, hkeys]
  simp only [List.foldlM_cons, List.foldlM_nil, Variables.enter, Variables.visit_eq]
  rfl

/-- The blueprint after labels were combined. -/
def labelledPair : Blueprint where
  name := "pair"
  vars := labelled
  groups := [{ name := "main", modules := [
    { source := "modules/network/vpc", kind := .terraform, id := "net" },
    { source := "modules/compute/vm", kind := .terraform, id := "vm", uses := ["net"],
      settings := .ofValues (.ofList [("labels", .expression (Value.callOf "merge"
        [Labels.globalLabels, .object [("ghpc_role", .string "compute")]]))]) }] }]

theorem leads_of_passes_of_pair : ∃ evaluated used out,
    Structure.check pair.defaultKinds pairCatalog = .ok ()
      ∧ References.check pair.defaultKinds pairCatalog = .ok ()
      ∧ Labels.combine pair.defaultKinds pairCatalog = .ok labelledPair
      ∧ (Backends.expand labelledPair).evaluateVars = .ok evaluated
      ∧ Use.apply evaluated pairCatalog = .ok used
      ∧ Use.applyGlobals used pairCatalog = .ok out
      ∧ ∀ i module, out.Placed i module →
        (∀ name, ∀ reference ∈ (module.settings.get name).references,
          out.Leads pairCatalog i reference) ∧ Use.IsComplete pairCatalog module := by
  have hstructure : Structure.check pair.defaultKinds pairCatalog = .ok () := rfl
  have hreferences : References.check pair.defaultKinds pairCatalog = .ok () := rfl
  have hlabels : Labels.combine pair.defaultKinds pairCatalog = .ok labelledPair := rfl
  have hbackends : (Variables.evaluate (Backends.expand labelledPair).vars).result = .ok labelled :=
    evaluate_labelled
  have hvars := evaluateVars_eq_ok.mpr ⟨labelled, hbackends, rfl⟩
  generalize (Backends.expand labelledPair).staged.recordAll _ _ = staged at hvars
  obtain ⟨used, out, huses, hglobals⟩ : ∃ used out,
      Use.apply { Backends.expand labelledPair with vars := labelled, staged } pairCatalog
          = .ok used
        ∧ Use.applyGlobals used pairCatalog = .ok out := ⟨_, _, rfl, rfl⟩
  exact ⟨_, used, out, hstructure, hreferences, hlabels, hvars, huses, hglobals,
    leads_of_passes hstructure hreferences hlabels hvars huses hglobals⟩

end Blueprint

end ClusterBlueprint
