import ClusterBlueprint.Blueprint.Use
import ClusterBlueprint.Proofs.Blueprint.Positions
import ClusterBlueprint.Proofs.References
import ClusterBlueprint.Proofs.SortedMap

/-!
What the uses of a module make of its settings.

The settings of different names do not meet: what becomes of one is a fold over the modules that
contribute to it, a module once for each of its outputs of that name.  Such a fold keeps the first
contribution to an input of its own, and collects all contributions to an input for lists.
-/

namespace ClusterBlueprint

/-! ## Modules of different ids -/

namespace Blueprint

variable {bp : Blueprint} {id : String} {module : Module}

theorem module?_eq (bp : Blueprint) (id : String) : bp.module? id = bp.modules.find? (·.id = id) :=
  List.find?_flatMap.symm

/-- Where ids are different the last module of an id is the first. -/
theorem lastModule?_eq (h : bp.moduleIds.Nodup) : Use.lastModule? bp id = bp.module? id := by
  rw [module?_eq, Use.lastModule?]
  cases hfirst : bp.modules.find? (·.id = id) with
  | none =>
    refine List.find?_eq_none.mpr fun module hmodule => ?_
    exact List.find?_eq_none.mp hfirst module (List.mem_reverse.mp hmodule)
  | some first =>
    have hmem := List.mem_of_find?_eq_some hfirst
    have hid : first.id = id := by simpa using List.find?_some hfirst
    cases hlast : bp.modules.reverse.find? (·.id = id) with
    | none =>
      exact absurd (decide_eq_true hid)
        (List.find?_eq_none.mp hlast first (List.mem_reverse.mpr hmem))
    | some last =>
      have hlastId : last.id = id := by simpa using List.find?_some hlast
      have hlastMem := List.mem_reverse.mp (List.mem_of_find?_eq_some hlast)
      rw [List.inj_on_of_nodup_map h hlastMem hmem (hlastId.trans hid.symm)]

def outputCount (bp : Blueprint) (catalog : Catalog) (name id : String) : Nat :=
  match bp.module? id with
  | none => 0
  | some module =>
    match catalog.interface module.source module.kind with
    | .ok interface => interface.outputs.countP (·.name = name)
    | .error _ => 0

end Blueprint

namespace Use

variable {bp out : Blueprint} {catalog : Catalog} {id key : String} {settings : Dict}

theorem outputCount_of_resolve {interface : Interface} (hids : bp.moduleIds.Nodup)
    (h : resolve bp catalog id = .ok interface) (key : String) :
    bp.outputCount catalog key id = interface.outputs.countP (·.name = key) := by
  unfold resolve at h
  rw [Blueprint.lastModule?_eq hids] at h
  unfold Blueprint.outputCount
  cases hmodule : bp.module? id with
  | none =>
    rw [hmodule] at h
    exact absurd h nofun
  | some module =>
    rw [hmodule] at h
    dsimp only at h ⊢
    rw [h]

/-! ## One setting -/

/-- The entry of an input after an output of its name was offered to it. -/
def offered (isList : Bool) (name : String) (entry : Option Entry) (id : String) : Option Entry :=
  match entry with
  | none => some (outputEntry id name)
  | some existing =>
    some (if isList then accumulate (outputEntry id name) existing else existing)

theorem find?_offer_self (id : String) (settings : Dict) (input : Input) :
    Dict.find? (offer id settings input) input.name
      = offered input.isList input.name (settings.find? input.name) id := by
  unfold offer offered
  dsimp only
  cases hentry : settings.find? input.name with
  | none => rw [Dict.find?_setEntry_self]
  | some existing =>
    dsimp only
    split
    · rw [Dict.find?_setEntry_self]
    · exact hentry

theorem find?_offer_of_ne {input : Input} (h : key ≠ input.name) :
    Dict.find? (offer id settings input) key = settings.find? key := by
  unfold offer
  dsimp only
  split
  · exact Dict.find?_setEntry_of_ne h _
  · split
    · exact Dict.find?_setEntry_of_ne h _
    · rfl

/-- The input of a name for which the author of a module wrote no setting. -/
def unwritten? (interface : Interface) (written : List String) (name : String) : Option Input :=
  if written.contains name then none else interface.input? name

/-- The entry of a name after modules contributed to it in turn; without an input they do not. -/
def merged (input : Option Input) (name : String) (ids : List String) (entry : Option Entry) :
    Option Entry :=
  match input with
  | none => entry
  | some input => ids.foldl (offered input.isList name) entry

theorem merged_append (input : Option Input) (name : String) (ids more : List String)
    (entry : Option Entry) :
    merged input name (ids ++ more) entry
      = merged input name more (merged input name ids entry) := by
  cases input with
  | none => rfl
  | some input => exact List.foldl_append

theorem merged_nil (input : Option Input) (name : String) (entry : Option Entry) :
    merged input name [] entry = entry := by
  cases input <;> rfl

theorem name_of_input? {interface : Interface} {input : Input}
    (h : interface.input? key = some input) : input.name = key := by
  simpa using List.find?_some h

def takeOutput (interface : Interface) (written : List String) (id : String) (settings : Dict)
    (output : Output) : Dict :=
  match interface.input? output.name with
  | some input => if written.contains input.name then settings else offer id settings input
  | none => settings

theorem take_eq (interface used : Interface) (written : List String) (settings : Dict)
    (id : String) : take interface written settings id used
      = used.outputs.foldl (takeOutput interface written id) settings := rfl

/-- An output that is taken changes the setting of its name only. -/
theorem find?_takeOutput {interface : Interface} {written : List String} (output : Output) :
    Dict.find? (takeOutput interface written id settings output) key
      = merged (unwritten? interface written key) key (if output.name = key then [id] else [])
          (settings.find? key) := by
  unfold takeOutput unwritten?
  by_cases hname : output.name = key
  · subst hname
    rw [if_pos rfl]
    cases hinput : interface.input? output.name with
    | none =>
      dsimp only
      split <;> rfl
    | some input =>
      rw [← name_of_input? hinput]
      dsimp only
      split
      · rfl
      · exact find?_offer_self id settings input
  · rw [if_neg hname, merged_nil]
    split
    · next input hinput =>
      split
      · rfl
      · exact find?_offer_of_ne fun heq => hname ((name_of_input? hinput).symm.trans heq.symm)
    · rfl

/-- Outputs that are taken change the setting of a name once for each output of that name. -/
theorem find?_take {interface used : Interface} {written : List String} :
    Dict.find? (take interface written settings id used) key
      = merged (unwritten? interface written key) key
          (List.replicate (used.outputs.countP (·.name = key)) id) (settings.find? key) := by
  rw [take_eq]
  induction used.outputs generalizing settings with
  | nil => exact (merged_nil _ _ _).symm
  | cons output outputs ih =>
    have hcount : List.replicate ((output :: outputs).countP (·.name = key)) id
        = (if output.name = key then [id] else [])
          ++ List.replicate (outputs.countP (·.name = key)) id := by
      by_cases hname : output.name = key <;> simp [hname, List.replicate_succ]
    rw [List.foldl_cons, ih, find?_takeOutput, hcount, merged_append]

/-- The modules that contribute to a setting, in the order of the uses, each as often as it has an
output of that name. -/
def contributors (bp : Blueprint) (catalog : Catalog) (key : String) (uses : List String) :
    List String :=
  uses.flatMap fun used => List.replicate (bp.outputCount catalog key used) used

theorem find?_takeAll {interface : Interface} {written : List String} {place : Location}
    (hids : bp.moduleIds.Nodup) {uses : List (String × Nat)} {last : Dict}
    (h : uses.foldlM (fun settings (used, i) => do
      let usedInterface ← (resolve bp catalog used).located (place.index i)
      return take interface written settings used usedInterface) settings = .ok last) :
    last.find? key = merged (unwritten? interface written key) key
      (contributors bp catalog key (uses.map Prod.fst)) (settings.find? key) := by
  induction uses generalizing settings with
  | nil =>
    obtain rfl := Except.ok.inj h
    exact (merged_nil _ _ _).symm
  | cons first uses ih =>
    obtain ⟨used, i⟩ := first
    rw [List.foldlM_cons] at h
    obtain ⟨next, hnext, hrest⟩ := Checked.bind_eq_ok.mp h
    obtain ⟨usedInterface, hresolve, hreturn⟩ := Checked.bind_eq_ok.mp hnext
    obtain rfl := Except.ok.inj hreturn
    have hcount := outputCount_of_resolve hids (Checked.located_eq_ok.mp hresolve) key
    rw [ih hrest, find?_take, ← hcount, ← merged_append]
    rfl

/-- What becomes of one setting of a module. -/
theorem find?_of_applyModule {place : Location} {module image : Module}
    (hids : bp.moduleIds.Nodup) (h : applyModule bp catalog place module = .ok image) :
    ∃ settings, image = { module with settings }
      ∧ (module.uses = [] ∧ settings = module.settings
        ∨ ∃ interface, catalog.interface module.source module.kind = .ok interface
          ∧ ∀ key, settings.find? key
            = merged (unwritten? interface module.settings.keys key) key
                (contributors bp catalog key module.uses) (module.settings.find? key)) := by
  unfold applyModule at h
  split at h
  · next huses =>
    exact ⟨module.settings, (Except.ok.inj h).symm, .inl ⟨List.isEmpty_iff.mp huses, rfl⟩⟩
  · obtain ⟨interface, hinterface, hrest⟩ := Checked.bind_eq_ok.mp h
    obtain ⟨settings, hfold, hreturn⟩ := Checked.bind_eq_ok.mp hrest
    refine ⟨settings, (Except.ok.inj hreturn).symm,
      .inr ⟨interface, Checked.located_eq_ok.mp hinterface, fun key => ?_⟩⟩
    rw [find?_takeAll hids hfold, List.zipIdx_map_fst]

theorem writesSettings_applyModule (bp : Blueprint) (catalog : Catalog) :
    Blueprint.WritesSettings (applyModule bp catalog) := by
  intro place module image h
  unfold applyModule at h
  split at h
  · exact ⟨module.settings, (Except.ok.inj h).symm⟩
  · obtain ⟨_, -, hrest⟩ := Checked.bind_eq_ok.mp h
    obtain ⟨settings, -, hreturn⟩ := Checked.bind_eq_ok.mp hrest
    exact ⟨settings, (Except.ok.inj hreturn).symm⟩

/-! ## What contributions add up to -/

theorem foldl_offered_scalar (first : String) (rest : List String) :
    (first :: rest).foldl (offered false key) none
      = some ⟨.ofReference (.ofModule first key), [first]⟩ := by
  rw [List.foldl_cons]
  induction rest with
  | nil => rfl
  | cons id rest ih => exact ih

/-- The entry of a list to which modules contributed, the last one first. -/
def Collected (key : String) (ids : List String) (entry : Option Entry) : Prop :=
  match entry with
  | none => ids = []
  | some entry => ids ≠ []
    ∧ entry.value.references = ids.reverse.map (Reference.ofModule · key)
    ∧ entry.fromUse.Pairwise (· < ·) ∧ ∀ id, id ∈ entry.fromUse ↔ id ∈ ids

theorem collected_offered {ids : List String} {entry : Option Entry} (h : Collected key ids entry)
    (id : String) : Collected key (ids ++ [id]) (offered true key entry id) := by
  have hne : ids ++ [id] ≠ [] := List.append_ne_nil_of_right_ne_nil _ (List.cons_ne_nil _ _)
  cases entry with
  | none =>
    obtain rfl : ids = [] := h
    exact ⟨hne, rfl, List.pairwise_singleton _ _, fun _ => Iff.rfl⟩
  | some existing =>
    obtain ⟨-, hreferences, -, hmem⟩ := h
    refine ⟨hne, ?_, SortedMap.pairwise_sortedNames _, fun other => ?_⟩
    · have hvalue : (accumulate (outputEntry id key) existing).value.references
          = Reference.ofModule id key :: existing.value.references := by
        rw [accumulate, Entry.ofUse, Value.references_expression, Value.references_callOf,
          List.flatMap_singleton, Value.references_list, List.flatMap_cons, List.flatMap_singleton]
        rfl
      simp [hvalue, hreferences]
    · refine SortedMap.mem_sortedNames.trans ?_
      have hnew : (outputEntry id key).fromUse = [id] := rfl
      rw [hnew, List.mem_append, List.mem_append, hmem]
      exact or_comm

theorem collected_foldl_offered {done ids : List String} {entry : Option Entry}
    (h : Collected key done entry) :
    Collected key (done ++ ids) (ids.foldl (offered true key) entry) := by
  induction ids generalizing done entry with
  | nil => rwa [List.append_nil]
  | cons id ids ih =>
    have hrest := ih (collected_offered h id)
    rwa [List.append_assoc] at hrest

theorem mem_contributors {uses : List String} :
    id ∈ contributors bp catalog key uses ↔ id ∈ uses ∧ 0 < bp.outputCount catalog key id := by
  unfold contributors
  rw [List.mem_flatMap]
  constructor
  · rintro ⟨used, hused, hmem⟩
    obtain ⟨hcount, rfl⟩ := List.mem_replicate.mp hmem
    exact ⟨hused, Nat.pos_of_ne_zero hcount⟩
  · rintro ⟨hused, hcount⟩
    exact ⟨id, hused, List.mem_replicate.mpr ⟨Nat.ne_of_gt hcount, rfl⟩⟩

theorem contributors_eq_cons {uses : List String} {first : String}
    (h : uses.find? (fun used => 0 < bp.outputCount catalog key used) = some first) :
    ∃ rest, contributors bp catalog key uses = first :: rest := by
  induction uses with
  | nil => exact absurd h nofun
  | cons used uses ih =>
    rw [List.find?_cons] at h
    rw [contributors, List.flatMap_cons]
    split at h
    · next hpos =>
      obtain rfl := Option.some.inj h
      obtain ⟨n, hn⟩ := Nat.exists_eq_succ_of_ne_zero (Nat.ne_of_gt (of_decide_eq_true hpos))
      rw [hn, List.replicate_succ]
      exact ⟨_, rfl⟩
    · next hzero =>
      rw [Nat.eq_zero_of_not_pos (of_decide_eq_false hzero)]
      exact ih h

/-- What the uses of a module make of its setting of a name. -/
structure Took (bp : Blueprint) (catalog : Catalog) (module : Module) (settings : Dict)
    (key : String) : Prop where
  /-- what was written stays -/
  written : module.settings.has key → settings.find? key = module.settings.find? key
  /-- what is no input, or no output of a used module, is not set -/
  unset : ¬ module.settings.has key →
    (∀ interface, catalog.interface module.source module.kind = .ok interface →
        interface.input? key = none)
      ∨ (∀ used ∈ module.uses, bp.outputCount catalog key used = 0) →
    settings.find? key = none
  /-- an input for one value takes the output of the first module that has one -/
  scalar : ∀ {interface input first}, ¬ module.settings.has key →
    catalog.interface module.source module.kind = .ok interface →
    interface.input? key = some input → ¬ input.isList →
    module.uses.find? (fun used => 0 < bp.outputCount catalog key used) = some first →
    settings.find? key = some ⟨.ofReference (.ofModule first key), [first]⟩
  /-- an input for lists takes all outputs, those of later uses first -/
  list : ∀ {interface input}, ¬ module.settings.has key →
    catalog.interface module.source module.kind = .ok interface →
    interface.input? key = some input → input.isList →
    (∃ used ∈ module.uses, 0 < bp.outputCount catalog key used) →
    ∃ entry, settings.find? key = some entry
      ∧ entry.value.references = module.uses.reverse.flatMap (fun used =>
          List.replicate (bp.outputCount catalog key used) (.ofModule used key))
      ∧ entry.fromUse.Pairwise (· < ·)
      ∧ ∀ id, id ∈ entry.fromUse ↔ id ∈ module.uses ∧ 0 < bp.outputCount catalog key id

theorem references_contributors (uses : List String) :
    (contributors bp catalog key uses).reverse.map (Reference.ofModule · key)
      = uses.reverse.flatMap fun used =>
          List.replicate (bp.outputCount catalog key used) (.ofModule used key) := by
  unfold contributors
  rw [List.reverse_flatMap, List.map_flatMap]
  refine congrArg (List.flatMap · uses.reverse) (funext fun used => ?_)
  simp

theorem took_of_applyModule {place : Location} {module image : Module}
    (hids : bp.moduleIds.Nodup) (h : applyModule bp catalog place module = .ok image) :
    ∃ settings, image = { module with settings }
      ∧ ∀ key, Took bp catalog module settings key := by
  obtain ⟨settings, himage, hsettings⟩ := find?_of_applyModule hids h
  refine ⟨settings, himage, fun key => ?_⟩
  -- A name that was written is no input to fill, and neither is any if there are no uses.
  have hnone : ¬ module.settings.has key → module.settings.find? key = none :=
    SortedMap.find?_eq_none
  have hunwritten : ¬ module.settings.has key → ∀ interface,
      unwritten? interface module.settings.keys key = interface.input? key := by
    intro hnot interface
    rw [Dict.has_iff_mem_keys, ← List.contains_iff_mem] at hnot
    exact if_neg hnot
  rcases hsettings with ⟨huses, rfl⟩ | ⟨interface, hinterface, hentry⟩
  · refine ⟨fun _ => rfl, fun hnot _ => hnone hnot, fun _ _ _ _ hfirst => ?_,
      fun _ _ _ _ hsome => ?_⟩
    · rw [huses] at hfirst
      exact absurd hfirst nofun
    · obtain ⟨used, hused, -⟩ := hsome
      rw [huses] at hused
      exact absurd hused List.not_mem_nil
  · refine ⟨fun hhas => ?_, fun hnot hor => ?_, fun hnot hinterface' hinput hscalar hfirst => ?_,
      fun hnot hinterface' hinput hlist hsome => ?_⟩
    · have hwritten : unwritten? interface module.settings.keys key = none :=
        if_pos (List.contains_iff_mem.mpr (Dict.has_iff_mem_keys.mp hhas))
      rw [hentry, hwritten]
      rfl
    · rw [hentry, hnone hnot, hunwritten hnot]
      rcases hor with hinput | hzero
      · rw [hinput interface hinterface]
        rfl
      · have hempty : contributors bp catalog key module.uses = [] := by
          refine List.eq_nil_iff_forall_not_mem.mpr fun id hmem => ?_
          obtain ⟨hused, hpos⟩ := mem_contributors.mp hmem
          exact Nat.ne_of_gt hpos (hzero id hused)
        rw [hempty, merged_nil]
    · obtain rfl := Except.ok.inj (hinterface.symm.trans hinterface')
      obtain ⟨rest, hrest⟩ := contributors_eq_cons hfirst
      rw [hentry, hnone hnot, hunwritten hnot, hinput, hrest, merged, Bool.eq_false_iff.mpr hscalar]
      exact foldl_offered_scalar _ _
    · obtain rfl := Except.ok.inj (hinterface.symm.trans hinterface')
      have hcollected : Collected key (contributors bp catalog key module.uses)
          (settings.find? key) := by
        rw [hentry, hnone hnot, hunwritten hnot, hinput, merged, hlist]
        have hstart : Collected key [] none := rfl
        exact collected_foldl_offered hstart
      cases hsettings : settings.find? key with
      | none =>
        obtain ⟨used, hused, hpos⟩ := hsome
        rw [hsettings] at hcollected
        have hmem := mem_contributors.mpr ⟨hused, hpos⟩
        rw [show contributors bp catalog key module.uses = [] from hcollected] at hmem
        exact absurd hmem List.not_mem_nil
      | some entry =>
        rw [hsettings] at hcollected
        obtain ⟨-, hreferences, hsorted, hmem⟩ := hcollected
        exact ⟨entry, rfl, hreferences.trans (references_contributors _), hsorted,
          fun id => (hmem id).trans mem_contributors⟩

/-- Uses write settings, name by name as described, and may be applied to the modules in any
order. -/
theorem took_of_apply (hids : bp.moduleIds.Nodup) (h : apply bp catalog = .ok out) :
    out.withoutSettings = bp.withoutSettings
      ∧ (∀ position module, bp.moduleAt? position = some module →
        ∃ settings, out.moduleAt? position = some { module with settings }
          ∧ ∀ key, Took bp catalog module settings key)
      ∧ ∀ order : List (Nat × Nat), order.Perm bp.positions →
        order.foldlM (Blueprint.mapModuleAt (applyModule bp catalog)) bp = .ok out := by
  have hwrites := writesSettings_applyModule bp catalog
  refine ⟨Blueprint.withoutSettings_of_mapModules hwrites h, fun position module hmodule => ?_,
    fun _ horder => Blueprint.foldlM_mapModuleAt hwrites h horder⟩
  have hat := Blueprint.moduleAt?_of_mapModules h position.1 position.2
  rw [hmodule] at hat
  obtain ⟨image, himage, hread⟩ := Option.map_eq_some_iff.mp hat.symm
  obtain ⟨settings, rfl, htook⟩ := took_of_applyModule hids hread.symm
  exact ⟨settings, himage, htook⟩

def rackCatalog : Catalog := ⟨.ofList [
  ("modules/network/vpc", { interface := { outputs := [{ name := "network" }] } }),
  ("modules/storage/disk", { interface := { outputs := [{ name := "disks" }] } }),
  ("modules/compute/vm", { interface := { inputs := [
    { name := "network", type := "string" }, { name := "disks", type := "list(string)" }] } })]⟩

def rack : Blueprint where
  name := "rack"
  groups := [{ name := "main", modules := [
    { source := "modules/network/vpc", kind := .terraform, id := "front" },
    { source := "modules/network/vpc", kind := .terraform, id := "back" },
    { source := "modules/storage/disk", kind := .terraform, id := "small" },
    { source := "modules/storage/disk", kind := .terraform, id := "large" },
    { source := "modules/compute/vm", kind := .terraform, id := "vm",
      uses := ["front", "small", "back", "large", "small"] }] }]

theorem took_of_apply_of_rack : ∃ out, rack.moduleIds.Nodup ∧ apply rack rackCatalog = .ok out
    ∧ out.withoutSettings = rack.withoutSettings
    ∧ (∀ position module, rack.moduleAt? position = some module →
      ∃ settings, out.moduleAt? position = some { module with settings }
        ∧ ∀ key, Took rack rackCatalog module settings key)
    ∧ ∀ order : List (Nat × Nat), order.Perm rack.positions →
      order.foldlM (Blueprint.mapModuleAt (applyModule rack rackCatalog)) rack = .ok out := by
  have hids : rack.moduleIds.Nodup := by decide
  obtain ⟨out, h⟩ : ∃ out, apply rack rackCatalog = .ok out := ⟨_, rfl⟩
  exact ⟨out, hids, h, took_of_apply hids h⟩

end Use

end ClusterBlueprint
