import ClusterBlueprint.Proofs.Blueprint.Planned

/-!
The outputs that groups hand on, and the names under which they do.

A name is made of an output and a module, and a group asks for outputs by their names.  So it finds
among its inputs exactly the outputs that it refers to, unless one of them shares its name with
another output.  That can be if one module's id is itself such a name for another module, and only
then.
-/

namespace ClusterBlueprint

/-- Lists that a mark divides, perhaps in different places. -/
theorem append_cons_eq_iff {α : Type} {mark : α} {xs ys us vs : List α} :
    xs ++ mark :: ys = us ++ mark :: vs ↔ xs = us ∧ ys = vs
      ∨ (∃ ws, ys = ws ++ mark :: vs ∧ us = xs ++ mark :: ws)
      ∨ ∃ ws, vs = ws ++ mark :: ys ∧ xs = us ++ mark :: ws := by
  constructor
  · intro h
    rcases List.append_eq_append_iff.mp h with ⟨rest, hus, hys⟩ | ⟨rest, hxs, hvs⟩
    · cases rest with
      | nil => exact .inl ⟨(hus.trans (List.append_nil _)).symm, (List.cons.inj hys).2⟩
      | cons first rest =>
        obtain ⟨hmark, hrest⟩ := List.cons.inj hys
        exact .inr (.inl ⟨rest, hrest, hmark ▸ hus⟩)
    · cases rest with
      | nil => exact .inl ⟨hxs.trans (List.append_nil _), (List.cons.inj hvs).2.symm⟩
      | cons first rest =>
        obtain ⟨hmark, hrest⟩ := List.cons.inj hvs
        exact .inr (.inr ⟨rest, hrest, hmark ▸ hxs⟩)
  · rintro (⟨rfl, rfl⟩ | ⟨ws, rfl, rfl⟩ | ⟨ws, rfl, rfl⟩)
    · rfl
    · rw [List.append_assoc, List.cons_append]
    · rw [List.append_assoc, List.cons_append]

theorem Output.toList_automaticName (name id : String) :
    (automaticName name id).toList = name.toList ++ '_' :: id.toList := by
  rw [automaticName, String.toList_append, String.toList_append, List.append_assoc]
  rfl

/-- Names of outputs of different modules are equal if one id ends in the other. -/
theorem Output.automaticName_eq_iff {name other id another : String} :
    automaticName name id = automaticName other another ↔ name = other ∧ id = another
      ∨ (∃ ahead, id = automaticName ahead another ∧ other = automaticName name ahead)
      ∨ ∃ ahead, another = automaticName ahead id ∧ name = automaticName other ahead := by
  have hlists : ∀ {a b c d : String}, (∃ ws, a.toList = ws ++ '_' :: b.toList
      ∧ c.toList = d.toList ++ '_' :: ws) ↔ ∃ ahead, a = automaticName ahead b
        ∧ c = automaticName d ahead := by
    intro a b c d
    simp only [← String.toList_inj, toList_automaticName]
    constructor
    · rintro ⟨ws, ha, hc⟩
      exact ⟨String.ofList ws, by rwa [String.toList_ofList], by rwa [String.toList_ofList]⟩
    · rintro ⟨ahead, ha, hc⟩
      exact ⟨ahead.toList, ha, hc⟩
  rw [← String.toList_inj, toList_automaticName, toList_automaticName, append_cons_eq_iff, hlists,
    hlists, String.toList_inj, String.toList_inj]

namespace Blueprint

variable {bp out : Blueprint} {catalog : Catalog} {options : ExpandOptions} {i j : Nat}
  {group producer : Group} {id name listed : String}

/-! ## What a group refers to -/

/-- Whether a module in the group at one position refers to an output of a module of an id in the
group at another. -/
def RefersTo (bp : Blueprint) (i j : Nat) (id name : String) : Prop :=
  i ≠ j ∧ ∃ module, bp.Placed i module ∧ ∃ setting,
    ∃ reference ∈ (module.settings.get setting).references,
      reference.module? = some id ∧ reference.name = name
        ∧ ∃ target, bp.Placed j target ∧ target.id = id

/-- Whether each output that one group refers to shares its name with no other output that another
group declares. -/
def NamesApart (bp : Blueprint) (i j : Nat) : Prop :=
  ∀ k id name, bp.RefersTo i k id name → ∀ module, bp.Placed j module → ∀ output ∈ module.outputs,
    Output.automaticName output.name module.id = Output.automaticName name id →
      module.id = id ∧ output.name = name

/-- Whether no id is the name under which an output of a module is handed on. -/
def HasSeparateIds (bp : Blueprint) : Prop :=
  ∀ id ∈ bp.moduleIds, ∀ other ∈ bp.moduleIds, ∀ ahead, id ≠ Output.automaticName ahead other

theorem RefersTo.refers (h : bp.RefersTo i j id name) : bp.Refers i j := by
  obtain ⟨hne, module, hmodule, setting, reference, href, hid, -, target, htarget, rfl⟩ := h
  exact ⟨hne, module, hmodule, setting, reference, href, target, htarget, hid⟩

theorem RefersTo.exists_target (h : bp.RefersTo i j id name) :
    ∃ target, bp.Placed j target ∧ target.id = id := by
  obtain ⟨-, -, -, -, -, -, -, -, target, htarget⟩ := h
  exact ⟨target, htarget⟩

theorem Placed.mem_moduleIds {module : Module} (h : bp.Placed i module) :
    module.id ∈ bp.moduleIds := List.mem_map_of_mem (mem_modules.mpr ⟨i, h⟩)

theorem RefersTo.mem_moduleIds (h : bp.RefersTo i j id name) : id ∈ bp.moduleIds := by
  obtain ⟨target, htarget, rfl⟩ := h.exists_target
  exact htarget.mem_moduleIds

/-- Modules whose ids are separate have outputs of different names. -/
theorem HasSeparateIds.eq_of_automaticName (h : bp.HasSeparateIds) {other another : String}
    (hid : id ∈ bp.moduleIds) (hanother : another ∈ bp.moduleIds)
    (heq : Output.automaticName name id = Output.automaticName other another) :
    name = other ∧ id = another := by
  rcases Output.automaticName_eq_iff.mp heq with hsame | ⟨ahead, hends, -⟩ | ⟨ahead, hends, -⟩
  · exact hsame
  · exact absurd hends (h id hid another hanother ahead)
  · exact absurd hends (h another hanother id hid ahead)

theorem HasSeparateIds.namesApart (h : bp.HasSeparateIds) : bp.NamesApart i j :=
  fun _ _ _ hrefers _ hplaced _ _ heq =>
    (h.eq_of_automaticName hplaced.mem_moduleIds hrefers.mem_moduleIds heq).symm

/-! ## What is listed -/

/-- The names that are listed for one producer among the inputs of a group. -/
def handedNames (bp : Blueprint) (group : Group) (producer : String) : List String :=
  ((Intergroup.inputsOf bp group).find? producer).getD []

theorem HasOwnNames.exists_handedName (h : bp.HasOwnNames) (hgroup : bp.groups[i]? = some group) :
    (∃ reference ∈ Intergroup.groupReferences bp group, Intergroup.handedName reference = listed)
      ↔ ∃ k id name, bp.RefersTo i k id name ∧ Output.automaticName name id = listed := by
  constructor
  · rintro ⟨reference, href, rfl⟩
    obtain ⟨⟨module, hmem, setting, hsetting⟩, k, hne, hposition⟩ :=
      (h.mem_groupReferences hgroup).mp href
    obtain ⟨id, hid, hindex⟩ := Option.bind_eq_some_iff.mp hposition
    obtain ⟨target, htarget⟩ := h.groupIndex?_eq_some.mp hindex
    refine ⟨k, id, reference.name, ⟨hne.symm, module, ⟨group, hgroup, hmem⟩, setting, reference,
      hsetting, hid, rfl, target, htarget⟩, ?_⟩
    rw [Intergroup.handedName, hid]
    rfl
  · rintro ⟨k, id, name, ⟨hne, module, ⟨own, hown, hmem⟩, setting, reference, hsetting, hid, rfl,
      target, htarget⟩, rfl⟩
    obtain rfl : group = own := Option.some.inj (hgroup.symm.trans hown)
    have hposition : reference.module?.bind bp.groupIndex? = some k := by
      rw [hid]
      exact h.groupIndex?_eq_some.mpr ⟨target, htarget⟩
    refine ⟨reference, (h.mem_groupReferences hgroup).mpr ⟨⟨module, hmem, setting, hsetting⟩, k,
      hne.symm, hposition⟩, ?_⟩
    rw [Intergroup.handedName, hid]
    rfl

theorem mem_outputNames : listed ∈ Intergroup.outputNames producer ↔ ∃ module ∈ producer.modules,
    ∃ output ∈ module.outputs, Output.automaticName output.name module.id = listed := by
  unfold Intergroup.outputNames
  rw [List.mem_flatMap]
  simp only [List.mem_map]

/-- The names of the outputs that a group declares and another refers to, wherever it does. -/
theorem HasOwnNames.handedNames_eq (h : bp.HasOwnNames) (hgroup : bp.groups[i]? = some group)
    (hproducer : bp.groups[j]? = some producer) :
    bp.Refers i j ∧ bp.handedNames group producer.name
        = SortedMap.sortedNames ((Intergroup.outputNames producer).filter
          ((Intergroup.groupReferences bp group).map Intergroup.handedName).contains)
      ∨ ¬ bp.Refers i j ∧ bp.handedNames group producer.name = [] := by
  let references := Intergroup.groupReferences bp group
  let needed := references.map Intergroup.handedName
  let producers := references.filterMap fun reference => reference.module?.bind bp.groupOf?
  let entry (producer : Group) : String × List String :=
    (producer.name,
      SortedMap.sortedNames ((Intergroup.outputNames producer).filter needed.contains))
  have hinputs : Intergroup.inputsOf bp group = .ofList (producers.reverse.map entry) := rfl
  have hname : bp.groupNames[j]? = some producer.name :=
    groupNames_getElem?_eq_some.mpr ⟨producer, hproducer, rfl⟩
  have hmem : ∀ found ∈ producers.reverse, ∃ reference ∈ references,
      reference.module?.bind bp.groupOf? = some found := fun found hfound =>
    List.mem_filterMap.mp (List.mem_reverse.mp hfound)
  -- Different groups have different names.
  have hsame : ∀ found ∈ producers.reverse, found.name = producer.name → found = producer := by
    intro found hfound hsame
    obtain ⟨reference, -, hof⟩ := hmem found hfound
    obtain ⟨id, -, hof⟩ := Option.bind_eq_some_iff.mp hof
    obtain ⟨k, -, hk⟩ := groupOf?_eq_some.mp hof
    exact List.inj_on_of_nodup_map h.groups (List.mem_of_getElem? hk)
      (List.mem_of_getElem? hproducer) hsame
  rw [handedNames, hinputs]
  by_cases hrefers : bp.Refers i j
  · refine .inl ⟨hrefers, ?_⟩
    obtain ⟨reference, href, found, hof, hfound⟩ :=
      (h.exists_producer hgroup).mpr ⟨j, hrefers, hname⟩
    have hproducers : found ∈ producers.reverse :=
      List.mem_reverse.mpr (List.mem_filterMap.mpr ⟨reference, href, hof⟩)
    obtain rfl := hsame found hproducers hfound
    have hfind : (SortedMap.ofList (producers.reverse.map entry)).find? found.name
        = some (entry found).2 := by
      refine SortedMap.find?_ofList_of_mem (List.mem_map_of_mem hproducers) fun names hnames => ?_
      obtain ⟨other, hother, heq⟩ := List.mem_map.mp hnames
      obtain ⟨hothername, rfl⟩ := Prod.mk.inj heq
      rw [hsame other hother hothername]
    rw [hfind]
    rfl
  · refine .inr ⟨hrefers, ?_⟩
    have hnone : producer.name ∉ (producers.reverse.map entry).map Prod.fst := by
      rw [List.map_map]
      intro hin
      obtain ⟨found, hfound, heq⟩ := List.mem_map.mp hin
      obtain ⟨reference, href, hof⟩ := hmem found hfound
      obtain ⟨k, hk, hkname⟩ := (h.exists_producer hgroup).mp ⟨reference, href, found, hof, heq⟩
      exact hrefers (h.eq_of_groupNames hkname hname ▸ hk)
    rw [SortedMap.find?_ofList_eq_none hnone]
    rfl

theorem HasOwnNames.mem_handedNames (h : bp.HasOwnNames) (hgroup : bp.groups[i]? = some group)
    (hproducer : bp.groups[j]? = some producer) : listed ∈ bp.handedNames group producer.name
      ↔ bp.Refers i j ∧ listed ∈ Intergroup.outputNames producer
        ∧ ∃ k id name, bp.RefersTo i k id name ∧ Output.automaticName name id = listed := by
  rcases h.handedNames_eq hgroup hproducer with ⟨hrefers, heq⟩ | ⟨hnot, heq⟩
  · rw [heq, SortedMap.mem_sortedNames, List.mem_filter, List.contains_iff_mem, List.mem_map,
      h.exists_handedName hgroup]
    exact (and_iff_right hrefers).symm
  · rw [heq]
    exact ⟨fun hin => absurd hin List.not_mem_nil, fun hin => absurd hin.1 hnot⟩

theorem HasOwnNames.nodup_handedNames (h : bp.HasOwnNames) (hgroup : bp.groups[i]? = some group)
    (hproducer : bp.groups[j]? = some producer) : (bp.handedNames group producer.name).Nodup := by
  rcases h.handedNames_eq hgroup hproducer with ⟨-, heq⟩ | ⟨-, heq⟩
  · rw [heq]
    exact (SortedMap.pairwise_sortedNames _).imp String.ne_of_lt
  · rw [heq]
    exact List.nodup_nil

/-! ## What is declared -/

/-- What another group refers to is declared. -/
theorem hasOutput_populateOutputs (h : bp.HasOwnNames) {target : Module}
    (hrefers : (Intergroup.populateOutputs bp).RefersTo i j target.id name)
    (htarget : (Intergroup.populateOutputs bp).Placed j target) : target.hasOutput name := by
  obtain ⟨hne, module, hmodule, setting, reference, href, hid, hname, -⟩ := hrefers
  obtain ⟨consumer, hconsumer, rfl⟩ := placed_populateOutputs hmodule
  obtain ⟨original, horiginal, rfl⟩ := placed_populateOutputs htarget
  rw [Intergroup.settings_declareOutputs] at href
  rw [Intergroup.id_declareOutputs] at hid
  have hneeded : bp.NeedsOutput j original.id name :=
    ⟨i, consumer, hne, hconsumer, setting, reference, Value.mem_references_iff_holds.mp href, hid,
      hname⟩
  obtain ⟨other, hmem, hother, rfl⟩ := (exists_mem_references h.modules horiginal).mpr hneeded
  exact Intergroup.hasOutput_declareOutputs hmem hother

theorem hasOutput_of_prepare (h : bp.prepare catalog options = .ok out) {target : Module}
    (hrefers : out.RefersTo i j target.id name) (htarget : out.Placed j target) :
    target.hasOutput name := by
  have hnames := (prepared_of_prepare h).names
  obtain ⟨run, rfl⟩ := prepare_eq_ok.mp h
  have hcompleted := hnames.of_outline (outline_populateOutputs run.completed).symm
  exact hasOutput_populateOutputs hcompleted hrefers htarget

/-- What an expanded blueprint refers to is declared, if staging brought in no reference. -/
theorem hasOutput_of_expand (h : bp.expand catalog options = .ok out)
    (hlegible : bp.IsLegible catalog) {target : Module}
    (hrefers : out.RefersTo i j target.id name) (htarget : out.Placed j target) :
    target.hasOutput name := by
  rw [expand_eq] at h
  obtain ⟨prepared, hprepared, h⟩ := Checked.bind_eq_ok.mp h
  obtain ⟨staged, hstaged, hmaterialized⟩ := Checked.bind_eq_ok.mp h
  have hback := fun {i : Nat} {module : Module} (hmodule : out.Placed i module) =>
    exists_original_of_stageSettings (keepsReferences_of_prepare hlegible hprepared) hstaged
      (placed_of_materialize hmaterialized hmodule)
  obtain ⟨hne, module, hmodule, setting, reference, href, hid, rfl, -⟩ := hrefers
  obtain ⟨consumer, _, hconsumer, rfl, hreferences⟩ := hback hmodule
  obtain ⟨original, _, horiginal, rfl, -⟩ := hback htarget
  obtain ⟨before, hbefore⟩ := hreferences setting reference href
  have hrefers : prepared.RefersTo i j original.id reference.name :=
    ⟨hne, consumer, hconsumer, before, reference, hbefore, hid, rfl, original, horiginal, rfl⟩
  have hdeclared : original.hasOutput reference.name :=
    hasOutput_of_prepare hprepared hrefers horiginal
  exact hdeclared

/-! ## Names and outputs -/

/-- Whether names list the outputs that one group takes from another: each of them under its own
name, and nothing else. -/
structure ListsOutputs (bp : Blueprint) (i j : Nat) (names : List String) : Prop where
  nodup : names.Nodup
  every : ∀ id name, bp.RefersTo i j id name → Output.automaticName name id ∈ names
  only : ∀ listed ∈ names, ∃ id name, bp.RefersTo i j id name
    ∧ Output.automaticName name id = listed
  once : ∀ id name other another, bp.RefersTo i j id name → bp.RefersTo i j other another →
    Output.automaticName name id = Output.automaticName another other → id = other ∧ name = another

theorem names_of_expand (h : bp.expand catalog options = .ok out) : out.HasOwnNames := by
  rw [expand_eq] at h
  obtain ⟨prepared, hprepared, h⟩ := Checked.bind_eq_ok.mp h
  obtain ⟨staged, hstaged, hmaterialized⟩ := Checked.bind_eq_ok.mp h
  exact (prepared_of_prepare hprepared).names.of_outline
    ((outline_of_materialize hmaterialized).trans (outline_of_stageSettings hstaged))

/-- What an expanded blueprint lists of one group for another: the names of outputs that the one
declares and under which the other refers to an output, be it of the same module or not.  If the
settings are legible, the names of all outputs that the other refers to are listed; and if none of
these has its name in common with another output, no other name is, and each is the name of one
output. -/
theorem listsOutputs_of_expand (h : bp.expand catalog options = .ok out) (hne : i ≠ j)
    (hgroup : out.groups[i]? = some group) (hproducer : out.groups[j]? = some producer) :
    Intergroup.inputsOfNamed out group.name = .ok (Intergroup.inputsOf out group)
      ∧ (∀ listed, listed ∈ out.handedNames group producer.name ↔ out.Refers i j
        ∧ (∃ module ∈ producer.modules, ∃ output ∈ module.outputs,
          Output.automaticName output.name module.id = listed)
        ∧ ∃ k id name, out.RefersTo i k id name ∧ Output.automaticName name id = listed)
      ∧ (bp.IsLegible catalog →
        (∀ id name, out.RefersTo i j id name →
            Output.automaticName name id ∈ out.handedNames group producer.name)
          ∧ (out.NamesApart i j → out.ListsOutputs i j (out.handedNames group producer.name))) := by
  have hnames := names_of_expand h
  have hmem : ∀ listed, listed ∈ out.handedNames group producer.name ↔ out.Refers i j
      ∧ (∃ module ∈ producer.modules, ∃ output ∈ module.outputs,
        Output.automaticName output.name module.id = listed)
      ∧ ∃ k id name, out.RefersTo i k id name ∧ Output.automaticName name id = listed := by
    intro listed
    rw [← mem_outputNames]
    exact hnames.mem_handedNames hgroup hproducer
  refine ⟨Plan.inputsOfNamed_eq_ok hnames (List.mem_of_getElem? hgroup), hmem, fun hlegible => ?_⟩
  have hdeclared : ∀ id name, out.RefersTo i j id name → ∃ target ∈ producer.modules,
      ∃ output ∈ target.outputs, target.id = id ∧ output.name = name := by
    intro id name hrefers
    obtain ⟨target, htarget, rfl⟩ := hrefers.exists_target
    have hhas := hasOutput_of_expand h hlegible hrefers htarget
    obtain ⟨own, hown, hin⟩ := htarget
    obtain rfl : producer = own := Option.some.inj (hproducer.symm.trans hown)
    obtain ⟨output, houtput, hname⟩ := List.any_eq_true.mp hhas
    exact ⟨target, hin, output, houtput, rfl, of_decide_eq_true hname⟩
  have hevery : ∀ id name, out.RefersTo i j id name →
      Output.automaticName name id ∈ out.handedNames group producer.name := by
    intro id name hrefers
    obtain ⟨target, hin, output, houtput, rfl, rfl⟩ := hdeclared id name hrefers
    exact (hmem _).mpr ⟨hrefers.refers, ⟨target, hin, output, houtput, rfl⟩, j, _, _, hrefers, rfl⟩
  refine ⟨hevery, fun hapart => ⟨hnames.nodup_handedNames hgroup hproducer, hevery,
    fun listed hlisted => ?_, fun id name other another hrefers hother heq => ?_⟩⟩
  · obtain ⟨-, ⟨module, hin, output, houtput, hname⟩, k, id, name, hrefers, rfl⟩ :=
      (hmem listed).mp hlisted
    have hplaced : out.Placed j module := ⟨producer, hproducer, hin⟩
    obtain ⟨rfl, rfl⟩ := hapart k id name hrefers module hplaced output houtput hname
    obtain ⟨-, consumer, hconsumer, setting, reference, href, hmodule, hsame, -⟩ := hrefers
    exact ⟨module.id, output.name, ⟨hne, consumer, hconsumer, setting, reference, href, hmodule,
      hsame, module, hplaced, rfl⟩, rfl⟩
  · obtain ⟨module, hin, output, houtput, rfl, rfl⟩ := hdeclared id name hrefers
    exact hapart j other another hother module ⟨producer, hproducer, hin⟩ output houtput heq

theorem hasSeparateIds_of_not_mem (h : ∀ id ∈ bp.moduleIds, '_' ∉ id.toList) :
    bp.HasSeparateIds := by
  rintro id hid other - ahead rfl
  refine h _ hid ?_
  rw [Output.toList_automaticName]
  exact List.mem_append_right _ List.mem_cons_self

def earlyOutput : Expression := ⟨(Reference.ofModule "early" "out").toTerm⟩

theorem listsOutputs_of_expand_of_pair :
    let bp := writtenPair ∅ (settingOf earlyOutput)
    ∃ out group producer, bp.expand linkCatalog {} = .ok out
      ∧ out.groups[1]? = some group ∧ out.groups[0]? = some producer
      ∧ bp.IsLegible linkCatalog
      ∧ out.NamesApart 1 0
      ∧ out.ListsOutputs 1 0 (out.handedNames group producer.name) := by
  intro bp
  let outputs := [Intergroup.generatedOutput "early" "out"]
  obtain ⟨staged, hprepare⟩ : ∃ staged, bp.prepare linkCatalog {}
      = .ok (preparedPair staged outputs ∅ (settingOf earlyOutput)) :=
    exists_prepare_writtenPair rfl rfl (fun _ => rfl) (fun _ => rfl) fun _ => rfl
  have hlater : ((preparedPair staged outputs ∅ (settingOf earlyOutput)).stageModule (.module 1 0)
      (laterModule .terraform (settingOf earlyOutput))).result
        = .ok (laterModule .terraform (settingOf earlyOutput)) := by with_unfolding_all rfl
  obtain ⟨after, hexpand⟩ := exists_expand_pair hprepare (result_stageModule_empty rfl) hlater
  have hread : Literal.read ("((" ++ earlyOutput.text ++ "))") = .ok (.expression earlyOutput) := by
    rw [Literal.read_source]
    with_unfolding_all rfl
  have hlegible : bp.IsLegible linkCatalog := isLegible_writtenPair hread trivial
  have hseparate : (preparedPair after outputs ∅ (settingOf earlyOutput)).HasSeparateIds :=
    hasSeparateIds_of_not_mem (by
      show ∀ id ∈ ["early", "later"], '_' ∉ id.toList
      decide)
  exact ⟨_, _, _, hexpand, rfl, rfl, hlegible, hseparate.namesApart,
    ((listsOutputs_of_expand hexpand Nat.one_ne_zero rfl rfl).2.2 hlegible).2 hseparate.namesApart⟩

/-! ### Two outputs of one name -/

def crossCatalog : Catalog := ⟨.ofList [("modules/m", { interface := {
  inputs := [{ name := "in" }], outputs := [{ name := "a" }, { name := "a_b" },
    { name := "x" }] } })]⟩

def crossSetting : Value :=
  .list [.ofReference (.ofModule "c" "x"), .ofReference (.ofModule "b_c" "a")]

/-- Two groups and a third one that refers to both, where the first declares an output that has the
name of the second one's. -/
def crossed (kind : ModuleKind) (vars : Dict) (more second : List Output) : Blueprint where
  name := "bp"
  path := "/bp/bp.yaml"
  vars := vars
  groups := [
    { name := "first", modules := [
      { source := "modules/m", kind, id := "c", outputs := { name := "a_b" } :: more }] },
    { name := "second", modules := [
      { source := "modules/m", kind, id := "b_c", outputs := second }] },
    { name := "third", modules := [
      { source := "modules/m", kind, id := "user",
        settings := .ofValues (.ofList [("in", crossSetting)]) }] }]

def crossVars : Dict := .ofValues (.ofList [("deployment_name", .string "d")])

def preparedCrossed : Blueprint :=
  crossed .terraform pairVars [Intergroup.generatedOutput "c" "x"]
    [Intergroup.generatedOutput "b_c" "a"]

theorem back_crossed {vars : Dict} {kind : ModuleKind} {more second : List Output}
    (h : (crossed kind vars more second).Refers i j) : j < i := by
  obtain ⟨hne, module, ⟨group, hgroup, hmem⟩, name, reference, href, target,
    ⟨other, hother, -⟩, -⟩ := h
  have hj : j < 3 := (List.getElem?_eq_some_iff.mp hother).1
  have hnone : module.settings = ∅ → False := by
    intro hsettings
    rw [hsettings] at href
    exact absurd href List.not_mem_nil
  rcases i with _ | _ | _ | i
  · obtain rfl := Option.some.inj hgroup
    obtain rfl := List.mem_singleton.mp hmem
    exact (hnone rfl).elim
  · obtain rfl := Option.some.inj hgroup
    obtain rfl := List.mem_singleton.mp hmem
    exact (hnone rfl).elim
  · omega
  · exact absurd hgroup (Option.some_ne_none group).symm

theorem prepare_crossed :
    (crossed .unknown crossVars [] []).prepare crossCatalog {} = .ok preparedCrossed := by
  let labelled := crossed .terraform pairLabels [] []
  let bp := crossed .terraform pairVars [] []
  have hlabels : Labels.combine (crossed .terraform crossVars [] []) crossCatalog
      = .ok labelled := rfl
  have hvars : (Backends.expand labelled).evaluateVars = .ok bp := evaluateVars_pairLabels rfl
  have huses : Use.apply bp crossCatalog = .ok bp := rfl
  have hglobals : Use.applyGlobals bp crossCatalog = .ok bp := rfl
  have houtputs : Intergroup.populateOutputs bp = preparedCrossed := rfl
  have hnames : preparedCrossed.HasOwnNames :=
    ⟨by show ["first", "second", "third"].Nodup; decide, by show ["c", "b_c", "user"].Nodup; decide⟩
  have hdeclared := (GroupGraph.checkDeclaredOrder_eq_ok hnames).mpr fun _ _ => back_crossed
  rw [← houtputs] at hdeclared
  exact prepare_eq_ok.mpr
    ⟨⟨rfl, rfl, rfl, hlabels, hvars, rfl, huses, hglobals, hdeclared⟩, houtputs⟩

/-- The first group is asked for an output that the third refers to in the second. -/
theorem not_listsOutputs_of_expand : ∃ out group producer,
    (crossed .unknown crossVars [] []).expand crossCatalog {} = .ok out
      ∧ out.groups[2]? = some group ∧ out.groups[0]? = some producer
      ∧ ¬ out.ListsOutputs 2 0 (out.handedNames group producer.name) := by
  have hmap : preparedCrossed.mapModules
      (fun place module => (preparedCrossed.stageModule place module).result)
        = .ok preparedCrossed := by with_unfolding_all rfl
  obtain ⟨table, hexpand⟩ := exists_expand_of_prepare prepare_crossed hmap fun _ => rfl
  have hfirst : Blueprint.RefersTo { preparedCrossed with staged := table } 2 0 "c" "x" :=
    ⟨by decide, _, ⟨_, rfl, List.mem_singleton_self _⟩, "in", .ofModule "c" "x", List.mem_cons_self,
      rfl, rfl, _, ⟨_, rfl, List.mem_singleton_self _⟩, rfl⟩
  have hsecond : Blueprint.RefersTo { preparedCrossed with staged := table } 2 1 "b_c" "a" :=
    ⟨by decide, _, ⟨_, rfl, List.mem_singleton_self _⟩, "in", .ofModule "b_c" "a",
      List.mem_cons_of_mem _ List.mem_cons_self, rfl, rfl, _, ⟨_, rfl, List.mem_singleton_self _⟩,
      rfl⟩
  refine ⟨_, _, _, hexpand, rfl, rfl, fun hlists => ?_⟩
  have hlisted := ((names_of_expand hexpand).mem_handedNames rfl rfl).mpr
    ⟨hfirst.refers, List.mem_cons_self, 1, "b_c", "a", hsecond, rfl⟩
  obtain ⟨id, name, hrefers, hname⟩ := hlists.only "a_b_c" hlisted
  obtain ⟨-, module, ⟨group, hgroup, hmem⟩, setting, reference, href, hid, rfl, target,
    ⟨other, hother, htarget⟩, rfl⟩ := hrefers
  obtain rfl := Option.some.inj hgroup
  obtain rfl := Option.some.inj hother
  obtain rfl := List.mem_singleton.mp hmem
  obtain rfl := List.mem_singleton.mp htarget
  have hin : setting = "in" :=
    List.mem_singleton.mp (Dict.has_iff_mem_keys.mp (Dict.has_of_mem_references href))
  subst hin
  have href : reference ∈ [Reference.ofModule "c" "x", .ofModule "b_c" "a"] := href
  rcases List.mem_pair.mp href with rfl | rfl
  · exact absurd hname (by decide)
  · exact absurd hid (by decide)

end Blueprint

end ClusterBlueprint
