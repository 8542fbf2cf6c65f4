import ClusterBlueprint.Proofs.Blueprint.GroupOrder
import ClusterBlueprint.Proofs.Blueprint.Positions
import Mathlib.Data.List.Lex
import Mathlib.Data.Prod.Lex
import Mathlib.Data.String.Basic

/-!
The outputs that are declared because other groups refer to them.

The references between groups are collected in an order of their own, each once, and every module
takes from them the names that are its own and that it does not declare.  So it gets these names in
order, each once, and nothing else of the blueprint changes.
-/

namespace ClusterBlueprint

/-! ## The order of references -/

namespace Reference

variable {reference other : Reference}

/-- Where a reference stands in the order: what kind it is of, and its parts. -/
def rank : Reference → Nat ×ₗ List String
  | output none module name => toLex (0, [module, name])
  | output (some group) module name => toLex (1, [group, module, name])
  | global name => toLex (2, [name])

theorem before_iff_rank_lt : reference.before other = true ↔ reference.rank < other.rank := by
  rcases reference with name | ⟨_ | group, module, name⟩ <;>
    rcases other with name' | ⟨_ | group', module', name'⟩ <;>
    simp [before, rank, Prod.Lex.toLex_lt_toLex, List.cons_lt_cons_iff]

theorem eq_of_rank_eq (h : reference.rank = other.rank) : reference = other := by
  rcases reference with name | ⟨_ | group, module, name⟩ <;>
    rcases other with name' | ⟨_ | group', module', name'⟩ <;>
    simp_all [rank]

end Reference

namespace Intergroup

variable {references : List Reference} {reference : Reference}

theorem pairwise_insertReference (h : references.Pairwise (·.rank < ·.rank)) :
    (insertReference reference references).Pairwise (·.rank < ·.rank) := by
  induction references with
  | nil => exact List.pairwise_singleton _ _
  | cons first references ih =>
    obtain ⟨hfirst, hrest⟩ := List.pairwise_cons.mp h
    unfold insertReference
    split
    · exact h
    · next hne =>
      split
      · next hbefore =>
        have hlt := Reference.before_iff_rank_lt.mp hbefore
        exact List.pairwise_cons.mpr
          ⟨List.forall_mem_cons.mpr ⟨hlt, fun _ hmem => hlt.trans (hfirst _ hmem)⟩, h⟩
      · next hnot =>
        have hle : first.rank ≤ reference.rank :=
          not_lt.mp fun hlt => hnot (Reference.before_iff_rank_lt.mpr hlt)
        have hlt : first.rank < reference.rank :=
          lt_of_le_of_ne hle fun heq => hne (Reference.eq_of_rank_eq heq).symm
        refine List.pairwise_cons.mpr ⟨fun other hmem => ?_, ih hrest⟩
        rcases mem_insertReference.mp hmem with rfl | hmem
        · exact hlt
        · exact hfirst other hmem

/-- Sorted references are in order, each once. -/
theorem pairwise_sortedReferences (references : List Reference) :
    (sortedReferences references).Pairwise (·.rank < ·.rank) :=
  List.foldlRecOn references _ .nil fun _ hsorted _ _ => pairwise_insertReference hsorted

end Intergroup

/-! ## The outputs of a module -/

theorem Module.hasOutput_iff_mem {module : Module} {name : String} :
    module.hasOutput name ↔ name ∈ module.outputs.map Output.name := by
  simp [hasOutput]

namespace Intergroup

variable {references : List Reference} {reference : Reference} {module : Module} {id name : String}

/-- The module with the output that a reference names, unless it is another module's or declared. -/
def declareOutput (id : String) (module : Module) (reference : Reference) : Module :=
  if reference.module? = some id && !module.hasOutput reference.name then
    { module with outputs := module.outputs ++ [generatedOutput id reference.name] }
  else module

theorem names_generatedOutput (id : String) (names : List String) :
    (names.map (generatedOutput id)).map Output.name = names := by
  rw [List.map_map]
  exact List.map_id names

theorem hasOutput_append {names : List String} :
    Module.hasOutput { module with outputs := module.outputs ++ names.map (generatedOutput id) }
        name ↔ module.hasOutput name ∨ name ∈ names := by
  rw [Module.hasOutput_iff_mem, Module.hasOutput_iff_mem, List.map_append, names_generatedOutput,
    List.mem_append]

/-- What a fold declares: names that references give, in their order.  They are those that were not
declared before. -/
theorem exists_foldl_declareOutput (id : String) (references : List Reference) (module : Module) :
    ∃ names : List String, references.foldl (declareOutput id) module
        = { module with outputs := module.outputs ++ names.map (generatedOutput id) }
      ∧ names.Sublist ((references.filter (·.module? = some id)).map Reference.name)
      ∧ ∀ name, name ∈ names ↔ (∃ reference ∈ references, reference.module? = some id
          ∧ reference.name = name) ∧ ¬ module.hasOutput name := by
  induction references generalizing module with
  | nil => exact ⟨[], by simp, List.Sublist.refl [], by simp⟩
  | cons first references ih =>
    obtain ⟨names, hfold, hsublist, hmem⟩ := ih (declareOutput id module first)
    rw [List.foldl_cons, hfold]
    -- The first reference adds its name or nothing, and what the rest adds is asked of the result.
    by_cases hadds : first.module? = some id ∧ ¬ module.hasOutput first.name
    · obtain ⟨hid, hnot⟩ := hadds
      have hstep : declareOutput id module first
          = { module with outputs := module.outputs ++ [first.name].map (generatedOutput id) } := by
        simp [declareOutput, hid, hnot]
      refine ⟨first.name :: names, ?_, ?_, fun name => ?_⟩
      · rw [hstep, List.append_assoc, ← List.map_append]
        rfl
      · rw [List.filter_cons_of_pos (by simpa using hid)]
        exact hsublist.cons_cons first.name
      · rw [List.mem_cons, hmem, hstep, hasOutput_append, List.mem_singleton]
        by_cases hname : name = first.name
        · subst hname
          simp [hid, hnot]
        · simp [hname, Ne.symm hname]
    · have hstep : declareOutput id module first = module := by
        unfold declareOutput
        rw [if_neg (by simpa using hadds)]
      rw [hstep] at hmem ⊢
      have hrest := (List.sublist_cons_self first references).filter (·.module? = some id)
      refine ⟨names, rfl, hsublist.trans (hrest.map Reference.name), fun name => ?_⟩
      rw [hmem]
      refine and_congr_left fun hnot => ⟨?_, ?_⟩
      · rintro ⟨reference, href, hnames⟩
        exact ⟨reference, List.mem_cons_of_mem first href, hnames⟩
      · rintro ⟨reference, href, hid, rfl⟩
        rcases List.mem_cons.mp href with rfl | href
        · exact absurd ⟨hid, hnot⟩ hadds
        · exact ⟨reference, href, hid, rfl⟩

/-- A module gets the names that references give it and that it does not declare, in their order. -/
theorem exists_declareOutputs (references : List Reference) (module : Module) :
    ∃ names : List String, declareOutputs references module
        = { module with outputs := module.outputs ++ names.map (generatedOutput module.id) }
      ∧ names.Sublist ((references.filter (·.module? = some module.id)).map Reference.name)
      ∧ ∀ name, name ∈ names ↔ (∃ reference ∈ references, reference.module? = some module.id
          ∧ reference.name = name) ∧ ¬ module.hasOutput name :=
  exists_foldl_declareOutput module.id references module

theorem id_declareOutputs (references : List Reference) (module : Module) :
    (declareOutputs references module).id = module.id := by
  obtain ⟨names, heq, -⟩ := exists_declareOutputs references module
  rw [heq]

theorem settings_declareOutputs (references : List Reference) (module : Module) :
    (declareOutputs references module).settings = module.settings := by
  obtain ⟨names, heq, -⟩ := exists_declareOutputs references module
  rw [heq]

/-- After its outputs are declared a module has those that are referred to. -/
theorem hasOutput_declareOutputs (hmem : reference ∈ references)
    (hid : reference.module? = some module.id) :
    (declareOutputs references module).hasOutput reference.name := by
  obtain ⟨names, heq, -, hnames⟩ := exists_declareOutputs references module
  rw [heq, hasOutput_append]
  by_cases hhas : module.hasOutput reference.name
  · exact .inl hhas
  · exact .inr ((hnames reference.name).mpr ⟨⟨reference, hmem, hid, rfl⟩, hhas⟩)

/-- A module that has what is referred to gets nothing. -/
theorem declareOutputs_eq_self (h : ∀ reference ∈ references,
    reference.module? = some module.id → module.hasOutput reference.name) :
    declareOutputs references module = module := by
  obtain ⟨names, heq, -, hnames⟩ := exists_declareOutputs references module
  have hnil : names = [] := by
    refine List.eq_nil_iff_forall_not_mem.mpr fun name hname => ?_
    obtain ⟨⟨reference, href, hid, rfl⟩, hnot⟩ := (hnames name).mp hname
    exact hnot (h reference href hid)
  rw [heq, hnil, List.map_nil, List.append_nil]

end Intergroup

/-! ## The outputs of a blueprint -/

namespace Blueprint

open Intergroup

variable {bp : Blueprint} {i j : Nat} {module target : Module} {id name : String}

/-- The blueprint with the outputs of all modules left out. -/
def withoutOutputs (bp : Blueprint) : Blueprint :=
  { bp with groups := bp.groups.map fun group =>
      { group with modules := group.modules.map fun module => { module with outputs := [] } } }

/-- Whether a module in another group than the one at a position has a setting that refers to an
output of a module of an id. -/
def NeedsOutput (bp : Blueprint) (j : Nat) (id name : String) : Prop :=
  ∃ i module, i ≠ j ∧ bp.Placed i module ∧ ∃ setting reference,
    Value.Holds reference (module.settings.get setting)
      ∧ reference.module? = some id ∧ reference.name = name

theorem moduleAt?_populateOutputs (position : Nat × Nat) :
    (populateOutputs bp).moduleAt? position
      = (bp.moduleAt? position).map (declareOutputs (references bp)) := by
  unfold moduleAt? populateOutputs
  rw [List.getElem?_map]
  cases bp.groups[position.1]? with
  | none => rfl
  | some group => exact List.getElem?_map

theorem placed_populateOutputs (h : (populateOutputs bp).Placed i module) :
    ∃ original, bp.Placed i original ∧ module = declareOutputs (references bp) original := by
  obtain ⟨image, himage, hmem⟩ := h
  unfold populateOutputs at himage
  rw [List.getElem?_map] at himage
  obtain ⟨group, hgroup, rfl⟩ := Option.map_eq_some_iff.mp himage
  obtain ⟨original, horiginal, rfl⟩ := List.mem_map.mp hmem
  exact ⟨original, ⟨group, hgroup, horiginal⟩, rfl⟩

theorem withoutOutputs_populateOutputs (bp : Blueprint) :
    (populateOutputs bp).withoutOutputs = bp.withoutOutputs := by
  have hmodule : ∀ module : Module, { declareOutputs (references bp) module with outputs := [] }
      = { module with outputs := [] } := by
    intro module
    obtain ⟨names, heq, -⟩ := exists_declareOutputs (references bp) module
    rw [heq]
  unfold withoutOutputs populateOutputs
  dsimp only
  rw [List.map_map]
  refine congrArg (fun groups => { bp with groups }) (List.map_congr_left fun group _ => ?_)
  refine congrArg (fun modules => { group with modules }) ?_
  rw [List.map_map]
  exact List.map_congr_left fun module _ => hmodule module

theorem outline_populateOutputs (bp : Blueprint) : (populateOutputs bp).outline = bp.outline := by
  unfold outline populateOutputs
  rw [List.map_map]
  refine List.map_congr_left fun group _ => congrArg (Prod.mk group.name) ?_
  rw [List.map_map]
  exact List.map_congr_left fun module _ => id_declareOutputs _ module

theorem references_populateOutputs (bp : Blueprint) :
    references (populateOutputs bp) = references bp := by
  have hindex := groupIndex?_of_outline (outline_populateOutputs bp)
  have hmodule : ∀ module, moduleReferences (populateOutputs bp)
      (declareOutputs (references bp) module) = moduleReferences bp module := by
    intro module
    unfold moduleReferences valueReferences
    rw [hindex, settings_declareOutputs, id_declareOutputs]
  have hmodules : (populateOutputs bp).modules
      = bp.modules.map (declareOutputs (references bp)) := by
    unfold modules populateOutputs
    rw [List.flatMap_map, List.map_flatMap]
  unfold references at hmodule hmodules ⊢
  rw [hmodules, List.flatMap_map]
  exact congrArg sortedReferences (List.flatMap_congr fun module _ => hmodule module)

/-- What is declared once is not declared again. -/
theorem populateOutputs_populateOutputs (bp : Blueprint) :
    populateOutputs (populateOutputs bp) = populateOutputs bp := by
  have hmodule : ∀ module, declareOutputs (references bp) (declareOutputs (references bp) module)
      = declareOutputs (references bp) module := fun module =>
    declareOutputs_eq_self fun reference href hid =>
      hasOutput_declareOutputs href (hid.trans (congrArg some (id_declareOutputs _ module)))
  have hpass : ∀ out, populateOutputs out = { out with groups := out.groups.map fun group =>
      { group with modules := group.modules.map (declareOutputs (references out)) } } :=
    fun _ => rfl
  rw [hpass (populateOutputs bp), references_populateOutputs, hpass bp]
  refine congrArg (fun groups => { bp with groups }) ?_
  rw [List.map_map]
  refine List.map_congr_left fun group _ => congrArg (fun modules => { group with modules }) ?_
  rw [List.map_map]
  exact List.map_congr_left fun module _ => hmodule module

theorem mem_references {reference : Reference} : reference ∈ references bp
    ↔ ∃ i module, bp.Placed i module ∧ reference ∈ moduleReferences bp module := by
  rw [references, mem_sortedReferences, List.mem_flatMap]
  constructor
  · rintro ⟨module, hmem, href⟩
    obtain ⟨i, hplaced⟩ := mem_modules.mp hmem
    exact ⟨i, module, hplaced, href⟩
  · rintro ⟨i, module, hplaced, href⟩
    exact ⟨module, mem_modules.mpr ⟨i, hplaced⟩, href⟩

/-- The references between groups, by what modules of other groups hold. -/
theorem exists_mem_references (h : bp.moduleIds.Nodup) (htarget : bp.Placed j target) :
    (∃ reference ∈ references bp, reference.module? = some target.id ∧ reference.name = name)
      ↔ bp.NeedsOutput j target.id name := by
  have hposition : bp.groupIndex? target.id = some j :=
    (groupIndex?_eq_some h).mpr ⟨target, htarget, rfl⟩
  constructor
  · rintro ⟨reference, href, hid, hname⟩
    obtain ⟨i, module, hmodule, href⟩ := mem_references.mp href
    obtain ⟨⟨setting, hsetting⟩, k, hne, hk⟩ := (hmodule.mem_moduleReferences h).mp href
    rw [hid, Option.bind_some, hposition] at hk
    obtain rfl := Option.some.inj hk
    exact ⟨i, module, hne.symm, hmodule, setting, reference,
      Value.mem_references_iff_holds.mp hsetting, hid, hname⟩
  · rintro ⟨i, module, hne, hmodule, setting, reference, hholds, hid, hname⟩
    have hindex : reference.module?.bind bp.groupIndex? = some j := by
      rw [hid, Option.bind_some, hposition]
    exact ⟨reference, mem_references.mpr ⟨i, module, hmodule, (hmodule.mem_moduleReferences h).mpr
      ⟨⟨setting, Value.mem_references_iff_holds.mpr hholds⟩, j, hne.symm, hindex⟩⟩, hid, hname⟩

/-- The references to one module are in the order of their names. -/
theorem pairwise_names_references (bp : Blueprint) (id : String) :
    (((references bp).filter (·.module? = some id)).map Reference.name).Pairwise (· < ·) := by
  have hform : ∀ reference ∈ (references bp).filter (·.module? = some id),
      reference = .ofModule id reference.name := by
    intro reference hmem
    obtain ⟨href, hid⟩ := List.mem_filter.mp hmem
    obtain ⟨i, module, -, href⟩ := mem_references.mp href
    obtain ⟨-, -, ⟨setting, hsetting⟩, -⟩ := mem_moduleReferences.mp href
    exact Reference.eq_ofModule (Value.group?_of_mem_references hsetting) (of_decide_eq_true hid)
  have hsorted := (pairwise_sortedReferences (bp.modules.flatMap (moduleReferences bp))).filter
    (·.module? = some id)
  refine List.pairwise_map.mpr (hsorted.imp_of_mem fun {reference other} href hother hlt => ?_)
  rw [hform reference href, hform other hother, ← Reference.before_iff_rank_lt] at hlt
  simpa [Reference.before, Reference.ofModule] using hlt

/-- Outputs are declared where they are needed and nowhere else.  Nothing but outputs changes, and a
module, wherever it stands, keeps its outputs and gets one for each name that a setting in another
group refers to and that it does not declare, in the order of the names and each once.  Then all
that is needed is declared. -/
theorem populateOutputs_declares (h : bp.moduleIds.Nodup) :
    (populateOutputs bp).withoutOutputs = bp.withoutOutputs
      ∧ (∀ position module, bp.moduleAt? position = some module → ∃ names : List String,
          (populateOutputs bp).moduleAt? position = some
              { module with outputs := module.outputs ++ names.map (generatedOutput module.id) }
            ∧ names.Pairwise (· < ·)
            ∧ ∀ name, name ∈ names
                ↔ bp.NeedsOutput position.1 module.id name ∧ ¬ module.hasOutput name)
      ∧ populateOutputs (populateOutputs bp) = populateOutputs bp := by
  refine ⟨withoutOutputs_populateOutputs bp, fun position module hat => ?_,
    populateOutputs_populateOutputs bp⟩
  have hplaced := placed_of_moduleAt? hat
  obtain ⟨names, heq, hsublist, hnames⟩ := exists_declareOutputs (references bp) module
  refine ⟨names, ?_, (pairwise_names_references bp module.id).sublist hsublist, fun name => ?_⟩
  · rw [moduleAt?_populateOutputs, hat, Option.map_some, heq]
  · rw [hnames, exists_mem_references h hplaced]

def declaring : Module where
  source := "modules/m"
  id := "p"
  outputs := [{ name := "a" }]

def referring (id : String) (names : List String) : Module where
  source := "modules/m"
  id := id
  settings := .ofValues (.ofList
    [("in", .list (names.map fun name => .ofReference (.ofModule "p" name)))])

/-- The one module with others in its own group and in a later one. -/
def shared : Blueprint where
  name := "bp"
  groups := [
    { name := "first", modules := [declaring, referring "q" ["d"]] },
    { name := "second", modules := [referring "r" ["c", "a", "b", "c"]] }]

theorem populateOutputs_declares_of_shared :
    (populateOutputs shared).moduleAt? (0, 0)
        = some { declaring with outputs := { name := "a" } :: ["b", "c"].map (generatedOutput "p") }
      ∧ (∀ name, name ∈ ["b", "c"]
          ↔ shared.NeedsOutput 0 "p" name ∧ ¬ declaring.hasOutput name)
      ∧ populateOutputs (populateOutputs shared) = populateOutputs shared := by
  have hids : shared.moduleIds.Nodup := by
    show ["p", "q", "r"].Nodup
    decide
  obtain ⟨-, hmodules, hagain⟩ := populateOutputs_declares hids
  obtain ⟨names, hat, -, hnames⟩ := hmodules (0, 0) declaring rfl
  have hrun : (populateOutputs shared).moduleAt? (0, 0) = some { declaring with
      outputs := { name := "a" } :: ["b", "c"].map (generatedOutput "p") } := rfl
  have houtputs : declaring.outputs ++ names.map (generatedOutput "p")
      = declaring.outputs ++ ["b", "c"].map (generatedOutput "p") :=
    congrArg Module.outputs (Option.some.inj (hat.symm.trans hrun))
  have hsame := congrArg (List.map Output.name) (List.append_cancel_left houtputs)
  rw [names_generatedOutput, names_generatedOutput] at hsame
  subst hsame
  exact ⟨hrun, hnames, hagain⟩

end Blueprint

end ClusterBlueprint
