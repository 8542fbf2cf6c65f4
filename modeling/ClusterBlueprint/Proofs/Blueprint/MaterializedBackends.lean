import ClusterBlueprint.Proofs.Blueprint.Prepared
import ClusterBlueprint.Proofs.Blueprint.StagedSettings
import ClusterBlueprint.Proofs.Evaluation.Mapped

/-!
Backends that are expanded and materialized.

As a program, materialization writes to the blueprint after all that it evaluates, so that a fault
leaves the blueprint as it was.  The prefixes that expansion writes end in the names of their
groups, and keep the states of these apart.
-/

namespace ClusterBlueprint

namespace Backends

/-! ## Materialization as a program -/

/-- The backend of the group at a position with its configuration evaluated, if there is one. -/
def evaluateOwn (bp : Blueprint) (placed : Group × Nat) : Checked (Option Backend) :=
  match placed.1.backend with
  | none => return none
  | some backend => return some (← evaluate bp ((Location.group placed.2).field .backend) backend)

def withBackend (group : Group) (backend : Option Backend) : Group := { group with backend }

/-- Materialization as a program on a blueprint: it evaluates every backend before it writes one. -/
def materializing : EStateM Fault Blueprint Unit := do
  let bp ← get
  let backendDefaults ←
    ofExcept (evaluate bp (Location.root.field .backendDefaults) bp.backendDefaults)
  let backends ← bp.groups.zipIdx.mapM fun placed => ofExcept (evaluateOwn bp placed)
  modify fun bp => { bp with backendDefaults }
  modify fun bp => { bp with groups := bp.groups.zipWith withBackend backends }

theorem mapM_ofExcept {α β : Type} (read : α → Checked β) (xs : List α) :
    xs.mapM (fun x => (ofExcept (read x) : EStateM Fault Blueprint β))
      = ofExcept (xs.mapM read) := by
  induction xs with
  | nil => rfl
  | cons x xs ih =>
    rw [List.mapM_cons, List.mapM_cons, ih]
    cases read x with
    | error fault => rfl
    | ok y => cases xs.mapM read <;> rfl

theorem mapM_zipIdx_eq {α β γ : Type} {read : α × Nat → Checked γ} {image : α → γ → β}
    (xs : List α) (n : Nat) :
    (xs.zipIdx n).mapM (fun placed => read placed >>= fun y => pure (image placed.1 y))
      = (xs.zipIdx n).mapM read >>= fun ys => (pure (xs.zipWith image ys) : Checked (List β)) := by
  induction xs generalizing n with
  | nil => rfl
  | cons x xs ih =>
    simp only [List.zipIdx_cons, List.mapM_cons, ih, bind_assoc, pure_bind, List.zipWith_cons_cons]

theorem materialize_eq (bp : Blueprint) : materialize bp = do
    let backendDefaults ← evaluate bp (Location.root.field .backendDefaults) bp.backendDefaults
    let backends ← bp.groups.zipIdx.mapM (evaluateOwn bp)
    return { bp with backendDefaults, groups := bp.groups.zipWith withBackend backends } := by
  unfold materialize
  refine bind_congr fun backendDefaults => ?_
  calc
    _ = bp.groups.zipIdx.mapM (fun placed => do
          let backend ← evaluateOwn bp placed
          return withBackend placed.1 backend) >>= fun groups =>
        pure { bp with backendDefaults, groups } := by
      congr 2
      funext ⟨⟨name, backend, modules⟩, i⟩
      cases backend with
      | none => rfl
      | some backend =>
        simp only [evaluateOwn, bind_assoc, pure_bind]
        rfl
    _ = _ := by
      rw [mapM_zipIdx_eq]
      simp only [bind_assoc, pure_bind]

theorem run_ofExcept {α : Type} (read : Checked α) (bp : Blueprint) :
    (ofExcept read : EStateM Fault Blueprint α).run bp = match read with
      | .ok a => .ok a bp
      | .error fault => .error fault bp := by
  cases read <;> rfl

/-- A fault leaves the blueprint as it was. -/
theorem run_materializing (bp : Blueprint) : materializing.run bp = match materialize bp with
    | .ok out => .ok () out
    | .error fault => .error fault bp := by
  rw [materialize_eq]
  unfold materializing
  simp only [mapM_ofExcept, EStateM.run_bind, EStateM.run_get, EStateM.run_modify, run_ofExcept]
  cases evaluate bp (Location.root.field .backendDefaults) bp.backendDefaults with
  | error fault => rfl
  | ok backendDefaults => cases bp.groups.zipIdx.mapM (evaluateOwn bp) <;> rfl

/-! ## The backends of groups -/

section Backend

variable {bp : Blueprint} {vars : Dict} {group : Group} {backend image : Backend} {place : Location}
  {name : String}

/-- Whether a backend keeps state in a bucket and has no prefix of its own. -/
def LacksPrefix (backend : Backend) : Prop :=
  backend.type = bucketType ∧ ¬ backend.configuration.has prefixName

def prefixed (bp : Blueprint) (name : String) (backend : Backend) : Backend :=
  let configuration := backend.configuration.set prefixName (groupPrefix bp name)
  { backend with configuration }

theorem withPrefix_of_lacksPrefix (h : LacksPrefix backend) :
    withPrefix bp name backend = prefixed bp name backend := by
  have hcondition : (backend.type = bucketType && !backend.configuration.has prefixName)
      = true := by
    simp [h.1, h.2]
  exact if_pos hcondition

theorem withPrefix_of_not_lacksPrefix (h : ¬ LacksPrefix backend) :
    withPrefix bp name backend = backend := by
  unfold withPrefix
  refine if_neg fun hcondition => h ?_
  simpa [LacksPrefix] using hcondition

/-- A backend whose entries have the values that another's come to. -/
structure Evaluates (bindings : SortedMap Value) (backend image : Backend) : Prop where
  type : image.type = backend.type
  has : ∀ {name}, image.configuration.has name ↔ backend.configuration.has name
  entry : ∀ {name entry}, backend.configuration.find? name = some entry →
    ∃ value, (entry.value.eval bindings).result = .ok value
      ∧ image.configuration.find? name = some { entry with value := value }

theorem evaluates_of_evaluate (h : evaluate bp place backend = .ok image) :
    Evaluates bp.vars.values backend image := by
  obtain ⟨configuration, hlocated, hreturn⟩ := Checked.bind_eq_ok.mp h
  obtain rfl : { backend with configuration } = image := Except.ok.inj hreturn
  have heval := Checked.located_eq_ok.mp hlocated
  unfold Blueprint.evalDict Dict.eval at heval
  rw [Dict.result_mapValues] at heval
  refine ⟨rfl, fun {name} => ⟨Dict.has_of_mapValues heval, fun hhas => ?_⟩,
    Dict.exists_entry_of_mapValues heval⟩
  obtain ⟨entry, hentry⟩ := SortedMap.contains_iff_exists.mp hhas
  obtain ⟨_, -, himage⟩ := Dict.exists_entry_of_mapValues heval hentry
  exact SortedMap.contains_iff_exists.mpr ⟨_, himage⟩

theorem get_of_globalValue {value : Value}
    (h : (globalValue vars.values name).result = .ok value) : vars.get name = value := by
  unfold globalValue at h
  split at h
  · cases h
  · next found hfind =>
    rw [Dict.find?_values] at hfind
    obtain ⟨entry, hentry, rfl⟩ := Option.map_eq_some_iff.mp hfind
    rw [Dict.get, hentry]
    split at h
    · cases h
    · exact Except.ok.inj h

theorem templateText_eq_pure {value : Value} {text : String}
    (h : value.templateText.result = .ok text) : value.templateText = pure text := by
  cases value with
  | bool | number | string => exact congrArg (Evaluation.mk []) h
  | _ => exact absurd h nofun

/-- The prefix of a group comes to the names of the blueprint, the deployment and the group. -/
theorem eval_groupPrefix {value : Value}
    (h : ((groupPrefix bp name).eval vars.values).result = .ok value) :
    ∃ deployment, (vars.get Blueprint.deploymentVariable).templateText = pure deployment
      ∧ value = .string (bp.name ++ "/" ++ deployment ++ "/" ++ name) := by
  -- The template is a literal, the name of the deployment, and a literal.
  obtain ⟨text, htext, hreturn⟩ := Evaluation.result_bind_eq_ok.mp h
  obtain rfl := Except.ok.inj hreturn
  obtain ⟨rest, hrest, hreturn⟩ := Evaluation.result_bind_eq_ok.mp htext
  obtain rfl := Except.ok.inj hreturn
  obtain ⟨value, hvalue, hrest⟩ := Evaluation.result_bind_eq_ok.mp hrest
  obtain ⟨deployment, hdeployment, hrest⟩ := Evaluation.result_bind_eq_ok.mp hrest
  obtain ⟨last, hlast, hreturn⟩ := Evaluation.result_bind_eq_ok.mp hrest
  obtain rfl := Except.ok.inj hreturn
  obtain rfl := Except.ok.inj hlast
  obtain ⟨found, hfound, hreturn⟩ := Evaluation.result_bind_eq_ok.mp hvalue
  obtain rfl := Except.ok.inj hreturn
  obtain rfl := get_of_globalValue hfound
  refine ⟨deployment, templateText_eq_pure hdeployment, ?_⟩
  simp only [String.append_assoc, String.append_empty]

/-- What the backend that a group writes or inherits becomes. -/
structure Materializes (bp : Blueprint) (vars : Dict) (group : Group) (backend image : Backend) :
    Prop where
  type : image.type = backend.type
  /-- a prefix is added to the names where one is needed -/
  has : ∀ {name}, image.configuration.has name
    ↔ backend.configuration.has name ∨ LacksPrefix backend ∧ name = prefixName
  entry : ∀ {name entry}, backend.configuration.find? name = some entry →
    ∃ value, (entry.value.eval vars.values).result = .ok value
      ∧ image.configuration.find? name = some { entry with value := value }
  literal : ∀ {name entry}, image.configuration.find? name = some entry → entry.value.IsLiteral
  groupPrefix : LacksPrefix backend → ∃ deployment,
    (vars.get Blueprint.deploymentVariable).templateText = pure deployment
      ∧ image.configuration.find? prefixName
        = some ⟨.string (bp.name ++ "/" ++ deployment ++ "/" ++ group.name), []⟩

theorem Evaluates.literal {bindings : SortedMap Value} (h : Evaluates bindings backend image)
    {entry : Entry} (hentry : image.configuration.find? name = some entry) :
    entry.value.IsLiteral := by
  have hhas := h.has.mp (SortedMap.contains_iff_exists.mpr ⟨entry, hentry⟩)
  obtain ⟨original, horiginal⟩ := SortedMap.contains_iff_exists.mp hhas
  obtain ⟨value, hvalue, himage⟩ := h.entry horiginal
  obtain rfl := Option.some.inj (hentry.symm.trans himage)
  exact Value.isLiteral_of_eval hvalue

theorem materializes_of_evaluates
    (h : Evaluates vars.values (withPrefix bp group.name backend) image) :
    Materializes bp vars group backend image := by
  by_cases hlacks : LacksPrefix backend
  · rw [withPrefix_of_lacksPrefix hlacks] at h
    refine ⟨h.type, ?_, fun {name entry} hentry => h.entry ?_, h.literal, fun _ => ?_⟩
    · intro name
      have hset : (prefixed bp group.name backend).configuration.has name
          ↔ name = prefixName ∨ backend.configuration.has name := Dict.has_setEntry
      rw [h.has, hset, or_comm]
      simp only [hlacks, true_and]
    · have hne : name ≠ prefixName := by
        rintro rfl
        exact hlacks.2 (SortedMap.contains_iff_exists.mpr ⟨entry, hentry⟩)
      exact (Dict.find?_setEntry_of_ne hne _).trans hentry
    · obtain ⟨value, hvalue, himage⟩ := h.entry (Dict.find?_setEntry_self _ prefixName _)
      obtain ⟨deployment, hdeployment, rfl⟩ := eval_groupPrefix hvalue
      exact ⟨deployment, hdeployment, himage⟩
  · rw [withPrefix_of_not_lacksPrefix hlacks] at h
    refine ⟨h.type, ?_, h.entry, h.literal, fun hlacks' => absurd hlacks' hlacks⟩
    intro name
    rw [h.has]
    simp only [hlacks, false_and, or_false]

end Backend

/-! ## All groups -/

section Blueprint

variable {bp out : Blueprint} {vars : Dict} {group : Group} {backend : Backend}

/-- Whether a group writes a backend, or has none and inherits one. -/
def TakesBackend (bp : Blueprint) (group : Group) (backend : Backend) : Prop :=
  group.backend = some backend
    ∨ group.backend = none ∧ ¬ bp.backendDefaults.isEmpty ∧ backend = bp.backendDefaults

theorem inherited_of_takesBackend (h : TakesBackend bp group backend) :
    inherited bp group = some backend := by
  unfold inherited
  rcases h with hown | ⟨hnone, hdefaults, rfl⟩
  · rw [hown]
  · rw [hnone]
    exact if_neg hdefaults

theorem inherited_eq_none :
    inherited bp group = none ↔ group.backend = none ∧ bp.backendDefaults.isEmpty := by
  unfold inherited
  cases group.backend with
  | some own => exact ⟨fun h => absurd h nofun, fun h => absurd h.1 nofun⟩
  | none => simp

theorem takesBackend_or (bp : Blueprint) (group : Group) :
    (∃ backend, TakesBackend bp group backend)
      ∨ group.backend = none ∧ bp.backendDefaults.isEmpty := by
  cases hbackend : group.backend with
  | some own => exact .inl ⟨own, .inl hbackend⟩
  | none =>
    by_cases hempty : bp.backendDefaults.isEmpty
    · exact .inr ⟨rfl, hempty⟩
    · exact .inl ⟨_, .inr ⟨hbackend, hempty, rfl⟩⟩

/-- The prefix of the group at a position. -/
def prefixAt? (bp : Blueprint) (i : Nat) : Option Value := do
  let group ← bp.groups[i]?
  let backend ← group.backend
  Option.map Entry.value (backend.configuration.find? prefixName)

/-- What a blueprint becomes where its backends are expanded and then materialized. -/
structure MaterializesAll (bp : Blueprint) (vars : Dict) (out : Blueprint) : Prop where
  rest : out = { bp with vars, groups := out.groups, backendDefaults := out.backendDefaults }
  groups : out.groups.map (fun group => (group.name, group.modules))
    = bp.groups.map fun group => (group.name, group.modules)
  defaults : Evaluates vars.values bp.backendDefaults out.backendDefaults
  backend : ∀ {i : Nat} {group backend}, bp.groups[i]? = some group →
    TakesBackend bp group backend →
      ∃ image, out.groups[i]? = some { group with backend := some image }
        ∧ Materializes bp vars group backend image
  noBackend : ∀ {i : Nat} {group : Group}, bp.groups[i]? = some group → group.backend = none →
    bp.backendDefaults.isEmpty → out.groups[i]? = some group
  /-- groups that share a bucket keep their states apart -/
  distinct : ∀ {i j : Nat} {first second backend other}, i ≠ j →
    bp.groups[i]? = some first → TakesBackend bp first backend → LacksPrefix backend →
      bp.groups[j]? = some second → TakesBackend bp second other → LacksPrefix other →
        prefixAt? out i ≠ prefixAt? out j

theorem getElem?_of_materialize {i : Nat} (h : materialize bp = .ok out)
    (hgroup : bp.groups[i]? = some group) :
    (group.backend = none → out.groups[i]? = some group)
      ∧ ∀ {backend}, group.backend = some backend → ∃ image,
        Evaluates bp.vars.values backend image
          ∧ out.groups[i]? = some { group with backend := some image } := by
  obtain ⟨backendDefaults, -, hrest⟩ := Checked.bind_eq_ok.mp h
  obtain ⟨groups, hgroups, hreturn⟩ := Checked.bind_eq_ok.mp hrest
  obtain rfl : { bp with backendDefaults, groups } = out := Except.ok.inj hreturn
  have hi := Checked.getElem?_of_mapM_zipIdx hgroups i
  rw [hgroup] at hi
  obtain ⟨image, himage, hread⟩ := Option.map_eq_some_iff.mp hi.symm
  dsimp only at hread
  refine ⟨fun hnone => ?_, fun {backend} hsome => ?_⟩
  · rw [hnone] at hread
    rw [himage]
    exact congrArg some (Except.ok.inj hread)
  · rw [hsome] at hread
    obtain ⟨result, hresult, hreturn⟩ := Checked.bind_eq_ok.mp hread.symm
    obtain rfl := Except.ok.inj hreturn
    exact ⟨result, evaluates_of_evaluate hresult, himage⟩

theorem getElem?_expand {i : Nat} (hgroup : bp.groups[i]? = some group) : (expand bp).groups[i]?
    = some { group with backend := (inherited bp group).map (withPrefix bp group.name) } := by
  unfold expand
  rw [List.getElem?_map, hgroup]
  rfl

theorem exists_of_materialize {i : Nat} (h : materialize { expand bp with vars } = .ok out)
    (hgroup : bp.groups[i]? = some group) (hbackend : TakesBackend bp group backend) :
    ∃ image, out.groups[i]? = some { group with backend := some image }
      ∧ Materializes bp vars group backend image := by
  have hexpanded := getElem?_expand hgroup
  rw [inherited_of_takesBackend hbackend] at hexpanded
  obtain ⟨image, himage, hout⟩ := (getElem?_of_materialize h hexpanded).2 rfl
  exact ⟨image, hout, materializes_of_evaluates himage⟩

theorem prefixAt?_of_materialize {i : Nat} (h : materialize { expand bp with vars } = .ok out)
    (hgroup : bp.groups[i]? = some group) (hbackend : TakesBackend bp group backend)
    (hlacks : LacksPrefix backend) : ∃ deployment,
    (vars.get Blueprint.deploymentVariable).templateText = pure deployment
      ∧ prefixAt? out i = some (.string (bp.name ++ "/" ++ deployment ++ "/" ++ group.name)) := by
  obtain ⟨image, hout, himage⟩ := exists_of_materialize h hgroup hbackend
  obtain ⟨deployment, hdeployment, hentry⟩ := himage.groupPrefix hlacks
  refine ⟨deployment, hdeployment, ?_⟩
  rw [prefixAt?, hout]
  exact congrArg (Option.map Entry.value) hentry

theorem materializesAll_of_materialize (hnames : bp.groupNames.Nodup)
    (h : materialize { expand bp with vars } = .ok out) : MaterializesAll bp vars out := by
  have hgroups := (Blueprint.materialize_eq_ok h).2
  obtain ⟨backendDefaults, hdefaults, hrest⟩ := Checked.bind_eq_ok.mp h
  obtain ⟨groups, -, hreturn⟩ := Checked.bind_eq_ok.mp hrest
  have hout : { expand bp with vars, backendDefaults, groups } = out := Except.ok.inj hreturn
  refine ⟨hout ▸ rfl, ?_, hout ▸ evaluates_of_evaluate hdefaults, exists_of_materialize h, ?_, ?_⟩
  · rw [hgroups, expand, List.map_map]
    rfl
  · intro i group hgroup hnone hempty
    have hexpanded := getElem?_expand hgroup
    rw [inherited_eq_none.mpr ⟨hnone, hempty⟩, Option.map_none, ← hnone] at hexpanded
    exact (getElem?_of_materialize h hexpanded).1 hnone
  · intro i j first second backend other hne hfirst hbackend hlacks hsecond hother hlacks' heq
    obtain ⟨deployment, hdeployment, hi⟩ := prefixAt?_of_materialize h hfirst hbackend hlacks
    obtain ⟨same, hsame, hj⟩ := prefixAt?_of_materialize h hsecond hother hlacks'
    obtain rfl : deployment = same :=
      Except.ok.inj (congrArg Evaluation.result (hdeployment.symm.trans hsame))
    have htext := Value.string.inj (Option.some.inj (hi.symm.trans (heq.trans hj)))
    have hname : first.name = second.name := (String.append_right_inj _).mp htext
    have hfirst := Blueprint.groupNames_getElem?_eq_some.mpr ⟨first, hfirst, rfl⟩
    have hsecond := Blueprint.groupNames_getElem?_eq_some.mpr ⟨second, hsecond, hname.symm⟩
    have hlt := (List.getElem?_eq_some_iff.mp hfirst).1
    exact hne ((List.getElem?_inj hlt hnames).mp (hfirst.trans hsecond.symm))

/-! ## Another expansion -/

theorem not_lacksPrefix_withPrefix (bp : Blueprint) (name : String) (backend : Backend) :
    ¬ LacksPrefix (withPrefix bp name backend) := by
  by_cases h : LacksPrefix backend
  · rw [withPrefix_of_lacksPrefix h]
    exact fun hlacks => hlacks.2 (Dict.has_setEntry.mpr (.inl rfl))
  · rwa [withPrefix_of_not_lacksPrefix h]

/-- Expansion does nothing where every group has the backend it takes, and the prefix it needs. -/
theorem expand_eq_self (h : ∀ group ∈ bp.groups,
    (group.backend = none → bp.backendDefaults.isEmpty)
      ∧ ∀ backend, group.backend = some backend → ¬ LacksPrefix backend) : expand bp = bp := by
  refine congrArg (fun groups => { bp with groups }) ?_
  refine (List.map_congr_left fun group hgroup => ?_).trans (List.map_id _)
  obtain ⟨hnone, hsome⟩ := h group hgroup
  obtain ⟨name, backend, modules⟩ := group
  cases backend with
  | none =>
    rw [inherited_eq_none.mpr ⟨rfl, hnone rfl⟩]
    rfl
  | some backend =>
    rw [inherited_of_takesBackend (.inl rfl), Option.map_some,
      withPrefix_of_not_lacksPrefix (hsome backend rfl)]
    rfl

theorem expand_expand (bp : Blueprint) : expand (expand bp) = expand bp := by
  refine expand_eq_self fun group hgroup => ?_
  obtain ⟨original, -, rfl⟩ := List.mem_map.mp hgroup
  refine ⟨fun hnone => (inherited_eq_none.mp (Option.map_eq_none_iff.mp hnone)).2, ?_⟩
  intro backend hbackend
  obtain ⟨_, -, rfl⟩ := Option.map_eq_some_iff.mp hbackend
  exact not_lacksPrefix_withPrefix bp original.name _

theorem Evaluates.isEmpty {bindings : SortedMap Value} {image : Backend}
    (h : Evaluates bindings backend image) (hempty : backend.isEmpty) : image.isEmpty := by
  unfold Backend.isEmpty at hempty ⊢
  obtain ⟨htype, hconfiguration⟩ := Bool.and_eq_true_iff.mp hempty
  have hkeys : backend.configuration.keys = [] :=
    congrArg Fields.names (List.isEmpty_iff.mp hconfiguration)
  refine Bool.and_eq_true_iff.mpr ⟨h.type ▸ htype, List.isEmpty_iff.mpr ?_⟩
  refine List.eq_nil_iff_forall_not_mem.mpr fun field hfield => ?_
  have hhas := h.has.mp (Dict.has_iff_mem_keys.mpr (List.mem_map_of_mem hfield))
  rw [Dict.has_iff_mem_keys, hkeys] at hhas
  exact absurd hhas List.not_mem_nil

theorem Materializes.not_lacksPrefix {image : Backend}
    (h : Materializes bp vars group backend image) : ¬ LacksPrefix image := by
  rintro ⟨htype, hnot⟩
  have hown : ¬ backend.configuration.has prefixName := fun hhas => hnot (h.has.mpr (.inl hhas))
  exact hnot (h.has.mpr (.inr ⟨⟨h.type ▸ htype, hown⟩, rfl⟩))

theorem expand_of_materializesAll (h : MaterializesAll bp vars out) : expand out = out := by
  refine expand_eq_self fun image himage => ?_
  obtain ⟨i, hi⟩ := List.getElem?_of_mem himage
  have hat := congrArg (·[i]?) h.groups
  rw [List.getElem?_map, List.getElem?_map, hi] at hat
  obtain ⟨group, hgroup, -⟩ := Option.map_eq_some_iff.mp hat.symm
  rcases takesBackend_or bp group with ⟨backend, hbackend⟩ | ⟨hnone, hempty⟩
  · obtain ⟨result, hout, hresult⟩ := h.backend hgroup hbackend
    obtain rfl := Option.some.inj (hi.symm.trans hout)
    exact ⟨nofun, fun _ hsome => Option.some.inj hsome ▸ hresult.not_lacksPrefix⟩
  · obtain rfl := Option.some.inj (hi.symm.trans (h.noBackend hgroup hnone hempty))
    exact ⟨fun _ => h.defaults.isEmpty hempty, fun _ hsome => absurd (hnone.symm.trans hsome) nofun⟩

/-- Backends are materialized all or nothing.  A fault leaves the blueprint as it was.  Else each
group has the backend that it writes or inherits, with the values that its settings come to, and
with a prefix of its own if it needs one; and another expansion changes nothing. -/
theorem materialize_all_or_nothing (hnames : bp.groupNames.Nodup) (vars : Dict) :
    let start : Blueprint := { expand bp with vars }
    expand (expand bp) = expand bp ∧ match materialize start with
      | .error fault => materializing.run start = .error fault start
      | .ok out => materializing.run start = .ok () out ∧ MaterializesAll bp vars out
        ∧ expand out = out := by
  intro start
  refine ⟨expand_expand bp, ?_⟩
  rw [run_materializing]
  cases hread : materialize start with
  | error fault => rfl
  | ok out =>
    have hall := materializesAll_of_materialize hnames hread
    exact ⟨rfl, hall, expand_of_materializesAll hall⟩

/-- Two groups that keep their states in one bucket, and one that keeps it elsewhere. -/
def shared : Blueprint where
  name := "shared"
  groups := [
    { name := "first" }, { name := "second" },
    { name := "third", backend := some { type := "local" } }]
  backendDefaults := {
    type := bucketType, configuration := .ofValues (.ofList [("bucket", .string "states")]) }

/-- The prefixes need the name of the deployment. -/
theorem materialize_all_or_nothing_of_shared :
    let vars : Dict := .ofValues (.ofList [(Blueprint.deploymentVariable, .string "blue")])
    let started (vars : Dict) : Blueprint := { expand shared with vars }
    shared.groupNames.Nodup ∧ expand (expand shared) = expand shared
      ∧ (∃ out, materializing.run (started vars) = .ok () out ∧ MaterializesAll shared vars out
        ∧ expand out = out)
      ∧ ∃ fault, materializing.run (started ∅) = .error fault (started ∅) := by
  intro vars started
  have hnames : shared.groupNames.Nodup := by decide
  have hok : (materialize (started vars)).isOk := rfl
  have hnot : (materialize (started ∅)).isOk = false := rfl
  obtain ⟨hexpand, hread⟩ := materialize_all_or_nothing hnames vars
  obtain ⟨-, hfail⟩ := materialize_all_or_nothing hnames ∅
  obtain ⟨out, hout⟩ := Checked.exists_of_isOk hok
  rw [hout] at hread
  refine ⟨hnames, hexpand, ⟨out, hread⟩, ?_⟩
  cases hfault : materialize (started ∅) with
  | error fault =>
    rw [hfault] at hfail
    exact ⟨fault, hfail⟩
  | ok out =>
    rw [hfault] at hnot
    exact absurd hnot.symm Bool.false_ne_true

end Blueprint

end Backends

end ClusterBlueprint
