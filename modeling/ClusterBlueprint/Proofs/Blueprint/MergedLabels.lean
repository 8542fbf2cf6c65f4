import ClusterBlueprint.Proofs.Blueprint.Passes
import ClusterBlueprint.Proofs.Blueprint.Positions
import ClusterBlueprint.Proofs.Evaluation.Ordered

/-!
Merged labels.

The call that is written for the labels of a module depends on how these are written: as an object,
as an expression, or not at all.  What it comes to depends on what they come to.
-/

namespace ClusterBlueprint

namespace Fields

variable {α : Type} {fields more : Fields α} {key : String}

def putAll (fields more : Fields α) : Fields α :=
  more.foldl (fun fields field => fields.put field.1 field.2) fields

theorem find?_putAll (h : more.Ordered) :
    (fields.putAll more).find? key = (more.find? key).or (fields.find? key) := by
  induction more generalizing fields with
  | nil => rfl
  | cons field more ih =>
    obtain ⟨other, value⟩ := field
    obtain ⟨hother, hmore⟩ := List.pairwise_cons.mp h
    have hput : fields.putAll ((other, value) :: more) = (fields.put other value).putAll more := rfl
    rw [hput, ih hmore, find?]
    split
    · next heq =>
      rw [heq, find?_eq_none_of_lt hother, find?_put_self]
      rfl
    · next hne => rw [find?_put_of_ne hne]

theorem Ordered.putAll (h : fields.Ordered) (more : Fields α) : (fields.putAll more).Ordered := by
  induction more generalizing fields with
  | nil => exact h
  | cons field more ih => exact ih (h.put field.1 field.2)

theorem ordered_foldl_putAll (objects : List (Fields α)) (h : fields.Ordered) :
    (objects.foldl Fields.putAll fields).Ordered := by
  induction objects generalizing fields with
  | nil => exact h
  | cons more objects ih => exact ih (h.putAll more)

end Fields

namespace Function

theorem mergeFields_objects (fields : Fields Value) (objects : List (Fields Value)) :
    mergeFields fields (objects.map Value.object) = pure (objects.foldl Fields.putAll fields) := by
  induction objects generalizing fields with
  | nil => rfl
  | cons more objects ih => exact ih (fields.putAll more)

end Function

namespace Labels

open Value

/-! ## Missing labels -/

section Missing

variable {labels others : Fields Value} {key : String}

theorem find?_withMissing :
    (withMissing labels others).find? key = (labels.find? key).or (others.find? key) := by
  induction others generalizing labels with
  | nil => exact Option.or_none.symm
  | cons other others ih =>
    obtain ⟨name, value⟩ := other
    have hstep : withMissing labels ((name, value) :: others) = withMissing
        (if (labels.find? name).isSome then labels else labels.put name value) others := rfl
    rw [hstep, ih, Fields.find?]
    by_cases hkey : key = name
    · subst hkey
      split
      · next hsome =>
        obtain ⟨found, hfound⟩ := Option.isSome_iff_exists.mp hsome
        rw [hfound]
        rfl
      · next hnone =>
        rw [Fields.find?_put_self, Option.not_isSome_iff_eq_none.mp hnone]
        simp
    · rw [if_neg hkey]
      split
      · rfl
      · rw [Fields.find?_put_of_ne hkey]

theorem ordered_withMissing (h : labels.Ordered) (others : Fields Value) :
    (withMissing labels others).Ordered := by
  induction others generalizing labels with
  | nil => exact h
  | cons other others ih =>
    refine ih ?_
    dsimp only
    split
    · exact h
    · exact h.put other.1 other.2

end Missing

/-! ## The value of merged labels -/

section Merged

variable {bindings : SortedMap Value} {g o own roles : Fields Value} {source : String}

/-- A literal label may be added to labels before they are evaluated, or after. -/
theorem mapFields_withMissing {f : Expression → Evaluation Value} {name : String} {value : Value}
    (hvalue : value.IsLiteral) : mapFields f (withMissing own [(name, value)]) = do
      let images ← mapFields f own
      return withMissing images [(name, value)] := by
  -- Evaluation keeps the names, so the label is missing before if it is missing after.
  have hnames : ∀ images : Fields Value, (mapFields f own).result = .ok images →
      ((images.find? name).isSome ↔ (own.find? name).isSome) := by
    intro images himages
    rw [Fields.find?_isSome, Fields.find?_isSome, names_of_mapFields himages]
  have hone : ∀ labels : Fields Value, withMissing labels [(name, value)]
      = if (labels.find? name).isSome then labels else labels.put name value := fun _ => rfl
  by_cases hsome : (own.find? name).isSome
  · rw [hone, if_pos hsome]
    refine (bind_pure _).symm.trans (Evaluation.bind_congr_ok fun images himages => ?_)
    rw [hone, if_pos ((hnames images himages).mpr hsome)]
  · rw [hone, if_neg hsome, mapFields_put hvalue (Option.not_isSome_iff_eq_none.mp hsome)]
    refine Evaluation.bind_congr_ok fun images himages => ?_
    rw [hone, if_neg (mt (hnames images himages).mp hsome)]

theorem eval_globalLabels (h : (globalLabels.eval bindings).result = .ok (.object g)) :
    globalLabels.eval bindings = pure (.object g) := by
  have heval : globalLabels.eval bindings = globalValue bindings labelsName := bind_pure _
  have hstaged : (globalValue bindings labelsName).staged = [] := by
    unfold globalValue
    split
    · rfl
    · split <;> rfl
  rw [heval] at h ⊢
  exact congrArg₂ Evaluation.mk hstaged h

/-- What a call of `merge` comes to where its arguments come to objects. -/
theorem eval_merge {args : List Value} {staged : List String} {objects : List (Fields Value)}
    (hordered : ∀ arg ∈ args, arg.IsOrdered)
    (h : mapList (Expression.eval bindings) args = ⟨staged, .ok (objects.map .object)⟩) :
    (Value.expression (callOf "merge" args)).eval bindings
      = ⟨staged, .ok (.object (objects.foldl Fields.putAll []))⟩ := by
  have heval : (Value.expression (callOf "merge" args)).eval bindings
      = Term.evalList bindings (listTerms args) >>= Function.apply "merge" := rfl
  have happly : Function.apply "merge" (objects.map .object)
      = pure (.object (objects.foldl Fields.putAll [])) := by
    have hmerge : Function.apply "merge" (objects.map .object) = do
        let fields ← Function.mergeFields [] (objects.map .object)
        return .object fields := rfl
    rw [hmerge, Function.mergeFields_objects, pure_bind]
  rw [heval, evalList_listTerms args (areOrdered_listNodes.mpr hordered), h, Evaluation.bind_ok,
    happly]
  exact congrArg (Evaluation.mk · _) (List.append_nil staged)

/-- The label that tells the role of the module at a source. -/
def roleOf (source : String) : Fields Value := Fields.put roleLabel (.string (role source)) []

theorem isLiteral_roleOf (source : String) : (Value.object (roleOf source)).IsLiteral := rfl

theorem ordered_roleOf (source : String) : (roleOf source).Ordered := List.pairwise_singleton _ _

theorem isOrdered_roleOf (source : String) : (Value.object (roleOf source)).IsOrdered :=
  isOrdered_object.mpr
    ⟨ordered_roleOf source, List.forall_mem_singleton.mpr (isOrdered_leaf rfl nofun)⟩

theorem isOrdered_withMissing {roles : Fields Value} (hown : (Value.object own).IsOrdered)
    (hroles : (Value.object roles).IsOrdered) :
    (Value.object (withMissing own roles)).IsOrdered := by
  obtain ⟨hordered, hvalues⟩ := isOrdered_object.mp hown
  refine isOrdered_object.mpr ⟨ordered_withMissing hordered roles, fun field hfield => ?_⟩
  rcases mem_withMissing hfield with hmem | hmem
  · exact hvalues field hmem
  · exact (isOrdered_object.mp hroles).2 field hmem

theorem isOrdered_mergeArgs {labels : Value} {args : List Value} (hlabels : labels.IsOrdered)
    (h : mergeArgs (roleOf source) labels = .ok args) : ∀ arg ∈ args, arg.IsOrdered := by
  have hglobal : globalLabels.IsOrdered := isOrdered_leaf rfl nofun
  have hrole := isOrdered_roleOf source
  unfold mergeArgs at h
  split at h
  · obtain rfl := Except.ok.inj h
    simpa using ⟨hglobal, hrole⟩
  · obtain rfl := Except.ok.inj h
    simpa using ⟨hglobal, isOrdered_withMissing hlabels hrole⟩
  · obtain rfl := Except.ok.inj h
    simpa using ⟨hglobal, hrole, hlabels⟩
  · exact absurd h nofun

/-- What the labels that a module sets of its own come to; they come to none where it sets none. -/
def ComesTo (bindings : SortedMap Value) (own : Value) (o : Fields Value) : Prop :=
  own = .null ∧ o = [] ∨ (own.eval bindings).result = .ok (.object o)

theorem ComesTo.ordered {labels : Value} (h : ComesTo bindings labels o)
    (hlabels : labels.IsOrdered) (hbindings : BindsOrdered bindings) : o.Ordered := by
  rcases h with ⟨-, rfl⟩ | h
  · exact .nil
  · cases labels with
    | object own =>
      obtain ⟨images, himages, hreturn⟩ := Evaluation.result_bind_eq_ok.mp h
      obtain rfl := Value.object.inj (Except.ok.inj hreturn)
      exact ordered_of_mapFields (isOrdered_object.mp hlabels).1 himages
    | expression e =>
      have hgood := Term.good_of_eval (isStable_isOrdered hbindings) h
      exact (isOrdered_object.mp hgood).1
    | list items =>
      obtain ⟨_, -, hreturn⟩ := Evaluation.result_bind_eq_ok.mp h
      exact absurd hreturn nofun
    | _ => exact absurd h nofun

/-- The objects that labels are merged from: the role is added to the own labels, or goes before
them. -/
def AreMerged (source : String) (g o : Fields Value) (objects : List (Fields Value)) : Prop :=
  objects = [g, withMissing o (roleOf source)] ∨ objects = [g, roleOf source, o]

theorem exists_merged_objects {labels : Value} {args : List Value}
    (hglobal : globalLabels.eval bindings = pure (.object g)) (ho : ComesTo bindings labels o)
    (h : mergeArgs (roleOf source) labels = .ok args) :
    ∃ objects, AreMerged source g o objects
      ∧ mapList (Expression.eval bindings) args
        = ⟨(labels.eval bindings).staged, .ok (objects.map .object)⟩ := by
  have hrole := eval_of_isLiteral (isLiteral_roleOf source) bindings
  unfold Value.eval at hglobal hrole
  unfold mergeArgs at h
  split at h
  -- Without labels of its own a module has its role, which is the role added to none.
  · obtain rfl := Except.ok.inj h
    obtain ⟨-, rfl⟩ := ho.resolve_right nofun
    refine ⟨[g, roleOf source], .inl rfl, ?_⟩
    simp only [mapList, hglobal, hrole, pure_bind]
    rfl
  · next own =>
    obtain rfl := Except.ok.inj h
    obtain ⟨images, himages, hreturn⟩ :=
      Evaluation.result_bind_eq_ok.mp (ho.resolve_left fun hnull => absurd hnull.1 nofun)
    obtain rfl := Value.object.inj (Except.ok.inj hreturn)
    refine ⟨[g, withMissing images (roleOf source)], .inl rfl, ?_⟩
    have hmissing : mapFields (Expression.eval bindings) (withMissing own (roleOf source)) = do
        let images ← mapFields (Expression.eval bindings) own
        return withMissing images (roleOf source) := mapFields_withMissing rfl
    simp only [Value.eval, mapList, mapExpressions, hglobal, hmissing, pure_bind, bind_assoc]
    generalize mapFields (Expression.eval bindings) own = read at himages
    obtain ⟨staged, _⟩ := read
    obtain rfl := himages
    rfl
  · next e =>
    obtain rfl := Except.ok.inj h
    have hresult := ho.resolve_left fun hnull => absurd hnull.1 nofun
    refine ⟨[g, roleOf source, o], .inr rfl, ?_⟩
    unfold Value.eval at hresult ⊢
    simp only [mapList, hglobal, hrole, pure_bind, bind_assoc]
    generalize (Value.expression e).mapExpressions (Expression.eval bindings) = read at hresult ⊢
    obtain ⟨staged, _⟩ := read
    obtain rfl := hresult
    rw [Evaluation.bind_ok]
    exact congrArg (Evaluation.mk · _) (List.append_nil staged)
  · exact absurd h nofun

/-- The label under a key for the module at a source: its own, or its role, or a global one. -/
def merged? (source : String) (g o : Fields Value) (key : String) : Option Value :=
  (o.find? key).or (if key = roleLabel then some (.string (role source)) else g.find? key)

theorem find?_of_areMerged {objects : List (Fields Value)} {key : String} (hg : g.Ordered)
    (ho : o.Ordered) (h : AreMerged source g o objects) :
    Fields.find? key (objects.foldl Fields.putAll []) = merged? source g o key := by
  have hrole : (roleOf source).find? key
      = if key = roleLabel then some (.string (role source)) else none := rfl
  have hbase : Fields.find? key (Fields.putAll [] g) = g.find? key := by
    rw [Fields.find?_putAll hg]
    exact Option.or_none
  have hrest : Option.or ((roleOf source).find? key) (g.find? key)
      = if key = roleLabel then some (.string (role source)) else g.find? key := by
    rw [hrole]
    split <;> rfl
  rcases h with rfl | rfl
  · rw [List.foldl_cons, List.foldl_cons, List.foldl_nil,
      Fields.find?_putAll (ordered_withMissing ho _), find?_withMissing, hbase, Option.or_assoc,
      hrest]
    rfl
  · rw [List.foldl_cons, List.foldl_cons, List.foldl_cons, List.foldl_nil, Fields.find?_putAll ho,
      Fields.find?_putAll (ordered_roleOf source), hbase, hrest]
    rfl

/-- Whether a value comes to the labels of the module at a source wherever the global labels come to
labels and its own do.  What is staged on the way is what its own labels stage. -/
def MergesLabels (source : String) (own merged : Value) : Prop :=
  ∀ {context : Context} {g o : Fields Value}, BindsOrdered context.bindings →
    (globalLabels.evalIn context).1 = .ok (.object g) → ComesTo context.bindings own o →
      ∃ fields : Fields Value,
        merged.evalIn context = (.ok (.object fields), (own.evalIn context).2)
          ∧ fields.Ordered ∧ ∀ key, fields.find? key = merged? source g o key

theorem mergesLabels_of_mergeArgs {labels : Value} {args : List Value} (hlabels : labels.IsOrdered)
    (h : mergeArgs (roleOf source) labels = .ok args) :
    MergesLabels source labels (.expression (callOf "merge" args)) := by
  intro context g o hbindings hglobal ho
  have hg : (Value.object g).IsOrdered := Term.good_of_eval (isStable_isOrdered hbindings) hglobal
  obtain ⟨objects, hobjects, hmap⟩ := exists_merged_objects (eval_globalLabels hglobal) ho h
  refine ⟨objects.foldl Fields.putAll [], ?_, ?_, fun key => ?_⟩
  · rw [evalIn, eval_merge (isOrdered_mergeArgs hlabels h) hmap]
    rfl
  · exact Fields.ordered_foldl_putAll objects .nil
  · exact find?_of_areMerged (isOrdered_object.mp hg).1 (ho.ordered hlabels hbindings) hobjects

end Merged

/-! ## The pass -/

variable {bp : Blueprint} {catalog : Catalog} {module image : Module} {place : Location}

/-- Whether a value may stand for the labels of a module. -/
def MayBeLabels : Value → Prop
  | .null | .object _ | .expression _ => True
  | _ => False

theorem exists_mergeArgs_iff {roles : Fields Value} {labels : Value} :
    (∃ args, mergeArgs roles labels = .ok args) ↔ MayBeLabels labels := by
  cases labels with
  | null | object _ | expression _ => exact ⟨fun _ => trivial, fun _ => ⟨_, rfl⟩⟩
  | _ => exact ⟨fun ⟨_, h⟩ => absurd h nofun, False.elim⟩

/-- The module with merged labels. -/
def relabelled (module : Module) (args : List Value) : Module :=
  { module with settings :=
      module.settings.set labelsName (.expression (callOf "merge" args)) }

theorem mergeModule_eq_ok : mergeModule catalog place module = .ok image ↔ ∃ interface,
    catalog.interface module.source module.kind = .ok interface
      ∧ if (interface.input? labelsName).isSome then
          ∃ args, mergeArgs (roleOf module.source) (module.settings.get labelsName) = .ok args
            ∧ image = relabelled module args
        else image = module := by
  unfold mergeModule
  simp only [Checked.bind_eq_ok, Checked.located_eq_ok]
  refine exists_congr fun interface => and_congr_right fun _ => ?_
  cases hinput : interface.input? labelsName with
  | none => exact ⟨fun h => (Except.ok.inj h).symm, fun h => congrArg Except.ok h.symm⟩
  | some input =>
    simp only [Option.isNone_some, Option.isSome_some, Bool.false_eq_true, if_false, if_true,
      Checked.bind_eq_ok, Checked.located_eq_ok]
    refine exists_congr fun args => and_congr_right fun _ => ?_
    exact ⟨fun h => (Except.ok.inj h).symm, fun h => congrArg Except.ok h.symm⟩

/-- Whether the catalog knows a module, whose own labels are labels if it takes some. -/
def TakesLabels (catalog : Catalog) (module : Module) : Prop :=
  ∃ interface, catalog.interface module.source module.kind = .ok interface
    ∧ ((interface.input? labelsName).isSome → MayBeLabels (module.settings.get labelsName))

theorem exists_mergeModule_iff :
    (∃ image, mergeModule catalog place module = .ok image) ↔ TakesLabels catalog module := by
  simp only [mergeModule_eq_ok, TakesLabels]
  rw [exists_comm]
  refine exists_congr fun interface => ?_
  rw [exists_and_left]
  refine and_congr_right fun _ => ?_
  split
  · next hsome =>
    rw [exists_comm]
    simp only [exists_and_left, exists_eq, and_true, exists_mergeArgs_iff, hsome, true_imp_iff]
  · next hnone => simp [hnone]

theorem writesSettings_mergeModule (catalog : Catalog) :
    Blueprint.WritesSettings (mergeModule catalog) := by
  intro place module image h
  obtain ⟨interface, -, hcases⟩ := mergeModule_eq_ok.mp h
  split at hcases
  · obtain ⟨args, -, rfl⟩ := hcases
    exact ⟨_, rfl⟩
  · exact ⟨module.settings, hcases⟩

/-- Whether some variables hold these labels, or no labels. -/
def HoldsLabels (vars : Dict) (labels : Fields Value) : Prop :=
  vars.get labelsName = .object labels ∨ ¬ vars.has labelsName ∧ labels = []

theorem ordered_defaults (bp : Blueprint) : (defaults bp).Ordered := by
  have hnamed : Fields.Ordered (Fields.put blueprintLabel (Value.string bp.name) []) :=
    List.pairwise_singleton _ _
  unfold defaults
  dsimp only
  split
  · exact hnamed.put deploymentLabel _
  · exact hnamed

theorem withMissing_nil (bp : Blueprint) : withMissing [] (defaults bp) = defaults bp := by
  refine (ordered_withMissing .nil _).ext (ordered_defaults bp) fun key => ?_
  rw [find?_withMissing]
  rfl

def labelled (bp : Blueprint) (labels : Fields Value) : Blueprint :=
  { bp with vars := bp.vars.set labelsName (.object labels) }

theorem completeGlobal_eq_ok {out : Blueprint} : completeGlobal bp = .ok out ↔ ∃ labels,
    HoldsLabels bp.vars labels ∧ out = labelled bp (withMissing labels (defaults bp)) := by
  unfold completeGlobal
  cases hentry : bp.vars.find? labelsName with
  | none =>
    have hhas : ¬ bp.vars.has labelsName := by
      rw [Dict.has, SortedMap.contains_iff_exists]
      rintro ⟨entry, hsome⟩
      exact absurd (hentry.symm.trans hsome) nofun
    constructor
    · intro h
      exact ⟨[], .inr ⟨hhas, rfl⟩, by rw [withMissing_nil, ← Except.ok.inj h]; rfl⟩
    · rintro ⟨labels, hheld | ⟨-, rfl⟩, rfl⟩
      · rw [Dict.get_of_not_has hhas] at hheld
        exact absurd hheld nofun
      · rw [withMissing_nil]
        rfl
  | some entry =>
    have hhas : bp.vars.has labelsName := SortedMap.contains_iff_exists.mpr ⟨entry, hentry⟩
    have hget : bp.vars.get labelsName = entry.value := by rw [Dict.get, hentry]
    unfold HoldsLabels
    rw [hget]
    simp only [hhas, not_true, false_and, or_false, Option.map_some]
    cases entry.value with
    | object labels =>
      constructor
      · exact fun h => ⟨labels, rfl, (Except.ok.inj h).symm⟩
      · rintro ⟨_, ⟨⟩, rfl⟩
        rfl
    | _ => simp

/-- What a blueprint becomes where its labels are combined. -/
structure CombinesLabels (bp : Blueprint) (catalog : Catalog) : Prop where
  succeeds : (∃ out, combine bp catalog = .ok out)
    ↔ (∃ labels, HoldsLabels bp.vars labels) ∧ ∀ module ∈ bp.modules, TakesLabels catalog module
  /-- the global labels stay, and the default ones that are missing are added; settings apart,
  nothing else changes -/
  completes : ∀ {out}, combine bp catalog = .ok out → ∃ written labels : Fields Value,
    HoldsLabels bp.vars written ∧ out.withoutSettings = (labelled bp labels).withoutSettings
      ∧ (written.Ordered → labels.Ordered)
      ∧ ∀ key, labels.find? key = (written.find? key).or ((defaults bp).find? key)
  /-- a module that takes labels has a value for the merged ones, however it writes its own -/
  merges : ∀ {out}, combine bp catalog = .ok out → ∀ {position module},
    bp.moduleAt? position = some module → ∃ interface,
      catalog.interface module.source module.kind = .ok interface
        ∧ if (interface.input? labelsName).isSome then
            ∃ merged : Value, out.moduleAt? position
                = some { module with settings := module.settings.set labelsName merged }
              ∧ ((module.settings.get labelsName).IsOrdered →
                  MergesLabels module.source (module.settings.get labelsName) merged)
          else out.moduleAt? position = some module

theorem combine_eq_ok {out : Blueprint} : combine bp catalog = .ok out ↔ ∃ labels,
    HoldsLabels bp.vars labels ∧ (labelled bp (withMissing labels (defaults bp))).mapModules
      (mergeModule catalog) = .ok out := by
  rw [combine, Checked.bind_eq_ok]
  simp only [completeGlobal_eq_ok]
  constructor
  · rintro ⟨_, ⟨labels, hheld, rfl⟩, hmap⟩
    exact ⟨labels, hheld, hmap⟩
  · rintro ⟨labels, hheld, hmap⟩
    exact ⟨_, ⟨labels, hheld, rfl⟩, hmap⟩

/-- The labels of modules mean the same however they are written: a module's own before its role,
and its role before the global ones.  The global labels are those written and the default ones that
are missing. -/
theorem combinesLabels (bp : Blueprint) (catalog : Catalog) : CombinesLabels bp catalog := by
  refine ⟨?_, fun {out} hout => ?_, fun {out} hout {position module} hmodule => ?_⟩
  · have hmodules : ∀ labels,
        (∃ out, (labelled bp labels).mapModules (mergeModule catalog) = .ok out)
          ↔ ∀ module ∈ bp.modules, TakesLabels catalog module := by
      intro labels
      rw [Blueprint.exists_mapModules_iff, ← Blueprint.map_placedModules, List.forall_mem_map]
      exact forall₂_congr fun _ _ => exists_mergeModule_iff
    simp only [combine_eq_ok]
    rw [exists_comm]
    simp only [exists_and_left, hmodules, exists_and_right]
  · obtain ⟨written, hheld, hmap⟩ := combine_eq_ok.mp hout
    have hrest :=
      Blueprint.withoutSettings_of_mapModules (writesSettings_mergeModule catalog) hmap
    exact ⟨written, _, hheld, hrest, fun h => ordered_withMissing h _, fun _ => find?_withMissing⟩
  · obtain ⟨written, -, hmap⟩ := combine_eq_ok.mp hout
    have hat := Blueprint.moduleAt?_of_mapModules hmap position.1 position.2
    have hlabelled : (labelled bp (withMissing written (defaults bp))).moduleAt? position
        = some module := hmodule
    rw [hlabelled] at hat
    obtain ⟨image, himage, hread⟩ := Option.map_eq_some_iff.mp hat.symm
    obtain ⟨interface, hinterface, hcases⟩ := mergeModule_eq_ok.mp hread.symm
    refine ⟨interface, hinterface, ?_⟩
    split
    · next hsome =>
      rw [if_pos hsome] at hcases
      obtain ⟨args, hargs, rfl⟩ := hcases
      exact ⟨_, himage, fun hordered => mergesLabels_of_mergeArgs hordered hargs⟩
    · next hnone =>
      rw [if_neg hnone] at hcases
      rw [himage, hcases]

/-- A machine whose labels are those of a variable, where the role is null. -/
def login : Blueprint where
  name := "login"
  vars := .ofValues (.ofList [
    ("extra", .object [(roleLabel, .null)]), (labelsName, .object [("team", .string "hpc")])])
  groups := [{ name := "main", modules := [
    { source := "modules/compute/vm", id := "vm",
      settings := .ofValues (.ofList [(labelsName, .ofReference (.global "extra"))]) }] }]

def labelCatalog : Catalog := ⟨.ofList [
  ("modules/compute/vm", { interface := { inputs := [{ name := labelsName }] } })]⟩

def loginBindings : SortedMap Value := .ofList [
  ("extra", .object [(roleLabel, .null)]),
  (labelsName, .object [(blueprintLabel, .string "login"), ("team", .string "hpc")])]

theorem bindsOrdered_login : BindsOrdered loginBindings := by
  intro name value h
  have hmem : (name, value) ∈ [_, _] := Fields.mem_of_find? h
  rcases List.mem_pair.mp hmem with heq | heq
  · obtain ⟨-, rfl⟩ := Prod.mk.inj heq
    exact isOrdered_object.mpr
      ⟨List.pairwise_singleton _ _, List.forall_mem_singleton.mpr (isOrdered_leaf rfl nofun)⟩
  · obtain ⟨-, rfl⟩ := Prod.mk.inj heq
    refine isOrdered_object.mpr ⟨List.pairwise_pair.mpr (by decide), ?_⟩
    exact List.forall_mem_cons.mpr ⟨isOrdered_leaf rfl nofun,
      List.forall_mem_singleton.mpr (isOrdered_leaf rfl nofun)⟩

/-- A null of its own replaces the role of a module. -/
theorem combinesLabels_of_login :
    let context : Context := { bindings := loginBindings }
    ∃ out merged, combine login labelCatalog = .ok out
      ∧ (out.moduleAt? (0, 0)).map (fun module => module.settings.get labelsName) = some merged
      ∧ ∃ fields : Fields Value, merged.evalIn context = (.ok (.object fields), context)
        ∧ fields.find? roleLabel = some .null ∧ fields.find? "team" = some (.string "hpc") := by
  intro context
  have hcombines := combinesLabels login labelCatalog
  have hheld : HoldsLabels login.vars [("team", .string "hpc")] := .inl rfl
  have htakes : ∀ module ∈ login.modules, TakesLabels labelCatalog module := by
    intro module (hmem : module ∈ [_])
    obtain rfl := List.mem_singleton.mp hmem
    exact ⟨_, rfl, fun _ => trivial⟩
  obtain ⟨out, hout⟩ := hcombines.succeeds.mpr ⟨⟨_, hheld⟩, htakes⟩
  have hmodule : login.moduleAt? (0, 0) = some _ := rfl
  obtain ⟨interface, hinterface, hcases⟩ := hcombines.merges hout hmodule
  obtain rfl := Except.ok.inj hinterface
  obtain ⟨merged, hmerged, hmeans⟩ := hcases
  have hbindings : BindsOrdered context.bindings := bindsOrdered_login
  obtain ⟨fields, heval, -, hfind⟩ :=
    hmeans (isOrdered_leaf rfl nofun) hbindings rfl (.inr rfl)
  refine ⟨out, merged, hout, ?_, fields, heval, hfind roleLabel, hfind "team"⟩
  rw [hmerged, Option.map_some, Dict.set, Dict.get_setEntry_self]

end Labels

end ClusterBlueprint
