import ClusterBlueprint.Proofs.Staging.Staged

/-!
Staging before an evaluation.

An expression whose staging calls were replaced by their destinations evaluates to what the
expression itself evaluates to.  Staging evaluates all of its outermost calls and the evaluation
only those that it comes to, so it records no source that staging does not.
-/

namespace ClusterBlueprint

namespace Evaluation

variable {α β : Type} {sources : List String} {x y : Evaluation α} {f g : α → Evaluation β}

theorem staged_bind {a : α} (h : x.result = .ok a) :
    (x >>= f).staged = x.staged ++ (f a).staged := by
  obtain ⟨staged, result⟩ := x
  obtain rfl : result = .ok a := h
  rfl

/-- Whether one evaluation comes to what the other comes to, if that is a value, and the other
stages some of the sources only. -/
structure Follows (sources : List String) (x y : Evaluation α) : Prop where
  result : ∀ a, x.result = .ok a → y.result = .ok a
  staged : x.staged ⊆ sources

namespace Follows

/-- A step that stages nothing. -/
theorem refl (h : x.staged = []) : Follows sources x x :=
  ⟨fun _ => id, h ▸ List.nil_subset sources⟩

theorem pure (a : α) : Follows sources (Pure.pure a) (Pure.pure a) := .refl rfl

theorem fail (cause : Cause) (y : Evaluation α) : Follows sources (Evaluation.fail cause) y :=
  ⟨nofun, List.nil_subset sources⟩

theorem bind (h : Follows sources x y) (hnext : ∀ a, Follows sources (f a) (g a)) :
    Follows sources (x >>= f) (y >>= g) := by
  obtain ⟨staged, result⟩ := x
  cases result with
  | error fault => exact ⟨nofun, h.staged⟩
  | ok a =>
    refine ⟨fun b hb => ?_, ?_⟩
    · exact result_bind_eq_ok.mpr ⟨a, h.result a rfl, (hnext a).result b hb⟩
    · exact List.append_subset.mpr ⟨h.staged, (hnext a).staged⟩

end Follows

end Evaluation

open Evaluation

/-! ## Steps that stage nothing -/

theorem Evaluation.staged_bind_eq_nil {α β : Type} {x : Evaluation α} {f : α → Evaluation β}
    (h : x.staged = []) (hnext : ∀ a, (f a).staged = []) : (x >>= f).staged = [] := by
  obtain ⟨staged, result⟩ := x
  cases result with
  | error fault => exact h
  | ok a => exact List.append_eq_nil_iff.mpr ⟨h, hnext a⟩

theorem Value.staged_member (name : String) (value : Value) : (value.member name).staged = [] := by
  unfold member
  split
  · split <;> rfl
  · rfl

theorem Value.staged_item (position : Number) (value : Value) :
    (value.item position).staged = [] := by
  unfold item
  split
  · dsimp only
    split <;> rfl
  · exact staged_member position.source _
  · rfl

theorem Value.staged_templateText (value : Value) : value.templateText.staged = [] := by
  cases value <;> rfl

theorem Value.staged_keyText (value : Value) : value.keyText.staged = [] := by
  cases value <;> rfl

theorem UnaryOperator.staged_apply (op : UnaryOperator) (value : Value) :
    (op.apply value).staged = [] := by
  cases op <;> cases value <;> rfl

theorem BinaryOperator.staged_onNumbers {f : Number → Number → Evaluation Value}
    (h : ∀ a b, (f a b).staged = []) (left right : Value) :
    (onNumbers f left right).staged = [] := by
  unfold onNumbers
  split
  · exact h _ _
  · rfl

theorem BinaryOperator.staged_onBools (f : Bool → Bool → Bool) (left right : Value) :
    (onBools f left right).staged = [] := by
  unfold onBools
  split <;> rfl

theorem BinaryOperator.staged_dividing (f : Number → Number → Number) (a b : Number) :
    (dividing f a b).staged = [] := by
  unfold dividing
  split <;> rfl

theorem BinaryOperator.staged_apply (op : BinaryOperator) (left right : Value) :
    (op.apply left right).staged = [] := by
  cases op with
  | equal | notEqual => rfl
  | and | or => exact staged_onBools _ left right
  | div | mod => exact staged_onNumbers (staged_dividing _) left right
  | _ => exact staged_onNumbers (fun _ _ => rfl) left right

theorem Function.staged_flatten (args : List Value) : (flatten args).staged = [] := by
  unfold flatten
  split <;> rfl

theorem Function.staged_mergeFields (fields : Fields Value) (args : List Value) :
    (mergeFields fields args).staged = [] := by
  induction args generalizing fields with
  | nil => rfl
  | cons arg args ih =>
    cases arg with
    | null => exact ih fields
    | object more => exact ih _
    | _ => rfl

/-- Only the staging function stages. -/
theorem Function.staged_apply {name : String} (h : name ≠ stageName) (args : List Value) :
    (apply name args).staged = [] := by
  unfold apply
  split
  · exact staged_flatten args
  · split
    · exact staged_bind_eq_nil (staged_mergeFields [] args) fun _ => rfl
    · rfl

theorem staged_globalValue (bindings : SortedMap Value) (name : String) :
    (globalValue bindings name).staged = [] := by
  unfold globalValue
  split
  · rfl
  · split <;> rfl

/-! ## Trees with destinations in them -/

namespace Term

variable {bindings : SortedMap Value} {sources : List String} {f : Term → String}

/-- Whether a text is what each of some calls comes to, and their sources are among some. -/
def AreStaged (bindings : SortedMap Value) (sources : List String) (f : Term → String)
    (calls : List Term) : Prop :=
  ∀ call ∈ calls, (call.eval bindings).result = .ok (.string (f call))
    ∧ (call.eval bindings).staged ⊆ sources

/-- A traversal whose first step is no name has no value. -/
theorem follows_of_nameless {root : String} {steps : List Step} {y : Evaluation Value}
    (h : ∀ name rest, steps ≠ .attribute name :: rest) :
    Follows sources ((traversal root steps).eval bindings) y := by
  rw [eval]
  · split
    · exact .fail _ _
    · split
      · exact .fail _ _
      · exact .fail _ _
  · exact h

mutual

theorem follows_splice : ∀ t : Term, AreStaged bindings sources f t.stagingCalls →
    Follows sources (t.eval bindings) ((t.splice f).eval bindings)
  | .null, _ | .bool _, _ | .number _, _ => .pure _
  | .template parts, h => (followsParts_splice parts h).bind fun _ => .pure _
  | .traversal _ [], _ | .traversal _ (.index _ :: _), _ => follows_of_nameless fun _ _ => nofun
  | .traversal root (.attribute name :: steps), h => by
    rw [splice, spliceSteps, eval, eval]
    by_cases hroot : root = Reference.globalRoot
    · rw [if_pos hroot, if_pos hroot]
      exact (Follows.refl (staged_globalValue bindings name)).bind (followsSteps_splice steps h)
    · rw [if_neg hroot, if_neg hroot]
      split
      · exact .fail _ _
      · exact .fail _ _
  | .relative source steps, h => by
    obtain ⟨hsource, hsteps⟩ := List.forall_mem_append.mp h
    exact (follows_splice source hsource).bind fun value => followsSteps_splice steps hsteps value
  | .call name args, h => by
    rw [stagingCalls] at h
    rw [splice]
    split
    · next hname =>
      rw [if_pos hname] at h
      obtain ⟨hresult, hstaged⟩ := h _ List.mem_cons_self
      exact ⟨fun value hvalue => by rw [eval_ofString, ← hresult, hvalue], hstaged⟩
    · next hname =>
      rw [if_neg hname] at h
      exact (followsList_splice args h).bind fun values =>
        .refl (Function.staged_apply hname values)
  | .tuple items, h => (followsList_splice items h).bind fun _ => .pure _
  | .object items, h => (followsItems_splice items h []).bind fun _ => .pure _
  | .unary op operand, h =>
    (follows_splice operand h).bind fun value => .refl (op.staged_apply value)
  | .binary op left right, h => by
    obtain ⟨hleft, hright⟩ := List.forall_mem_append.mp h
    exact (follows_splice left hleft).bind fun a =>
      (follows_splice right hright).bind fun b => .refl (op.staged_apply a b)
  | .conditional condition yes no, h => by
    obtain ⟨hcondition, hrest⟩ := List.forall_mem_append.mp h
    obtain ⟨hyes, hno⟩ := List.forall_mem_append.mp hrest
    refine (follows_splice condition hcondition).bind fun value => ?_
    split
    · exact follows_splice yes hyes
    · exact follows_splice no hno
    · exact .fail _ _
  | .parens inner, h => follows_splice inner h
termination_by structural t => t

theorem followsParts_splice : ∀ parts : List Part,
    AreStaged bindings sources f (partsCalls parts) →
      Follows sources (evalParts bindings parts) (evalParts bindings (spliceParts f parts))
  | [], _ => .pure _
  | .literal _ :: parts, h => (followsParts_splice parts h).bind fun _ => .pure _
  | .interpolation t :: parts, h => by
    obtain ⟨hterm, hparts⟩ := List.forall_mem_append.mp h
    exact (follows_splice t hterm).bind fun value =>
      (Follows.refl value.staged_templateText).bind fun _ =>
        (followsParts_splice parts hparts).bind fun _ => .pure _
termination_by structural t => t

theorem followsSteps_splice : ∀ steps : List Step,
    AreStaged bindings sources f (stepsCalls steps) → ∀ value,
      Follows sources (evalSteps bindings value steps)
        (evalSteps bindings value (spliceSteps f steps))
  | [], _, _ => .pure _
  | .attribute name :: steps, h, value =>
    (Follows.refl (value.staged_member name)).bind fun next => followsSteps_splice steps h next
  | .index t :: steps, h, value => by
    obtain ⟨hterm, hsteps⟩ := List.forall_mem_append.mp h
    refine (follows_splice t hterm).bind fun index => ?_
    split
    · next name =>
      exact (Follows.refl (value.staged_member name)).bind (followsSteps_splice steps hsteps)
    · next position =>
      exact (Follows.refl (value.staged_item position)).bind (followsSteps_splice steps hsteps)
    · exact .fail _ _
termination_by structural t => t

theorem followsList_splice : ∀ items : List Term, AreStaged bindings sources f (listCalls items) →
    Follows sources (evalList bindings items) (evalList bindings (spliceList f items))
  | [], _ => .pure _
  | t :: items, h => by
    obtain ⟨hterm, hitems⟩ := List.forall_mem_append.mp h
    exact (follows_splice t hterm).bind fun _ =>
      (followsList_splice items hitems).bind fun _ => .pure _
termination_by structural t => t

theorem followsItems_splice : ∀ items : List Item,
    AreStaged bindings sources f (itemsCalls items) → ∀ fields,
      Follows sources (evalItems bindings fields items)
        (evalItems bindings fields (spliceItems f items))
  | [], _, _ => .pure _
  | .named name value :: items, h, fields => by
    obtain ⟨hvalue, hitems⟩ := List.forall_mem_append.mp h
    exact (follows_splice value hvalue).bind fun _ => followsItems_splice items hitems _
  | .computed key value :: items, h, fields => by
    obtain ⟨hkey, hrest⟩ := List.forall_mem_append.mp h
    obtain ⟨hvalue, hitems⟩ := List.forall_mem_append.mp hrest
    exact (follows_splice key hkey).bind fun name =>
      (Follows.refl name.staged_keyText).bind fun _ =>
        (follows_splice value hvalue).bind fun _ => followsItems_splice items hitems _
termination_by structural t => t

end

end Term

/-! ## Staged expressions -/

namespace Staging

variable {bindings : SortedMap Value} {e : Expression} {call : Term} {destination : String}

theorem callDestination_eq (hcanonical : call.Canonical) (hreferences : AreReferences call.nodes)
    (h : HasDestination bindings call destination) :
    callDestination bindings call.tokens = ⟨(call.eval bindings).staged, .ok destination⟩ := by
  have hread : Expression.ofTokens call.tokens = .ok ⟨call⟩ :=
    Expression.ofTokens_eq_ok.mpr ⟨Term.ofTokens_tokens hcanonical, hreferences⟩
  have hglobal : ¬ (⟨call⟩ : Expression).references.any (!·.isGlobal) := by
    simpa using h.1
  have heval : (⟨call⟩ : Expression).eval bindings
      = ⟨(call.eval bindings).staged, .ok (.string destination)⟩ := by
    rw [← h.2]
    rfl
  rw [callDestination, hread]
  show (if (⟨call⟩ : Expression).references.any (!·.isGlobal) then _ else
    (⟨call⟩ : Expression).eval bindings >>= _) = _
  rw [if_neg hglobal, heval, bind_ok]
  exact congrArg (Evaluation.mk · _) (List.append_nil _)

/-- If all of some checks pass, they stage what each of them stages. -/
theorem staged_subset_of_forM {check : Term → Evaluation Unit} {calls : List Term}
    (h : (calls.forM check).result = .ok ()) (hmem : call ∈ calls) :
    (check call).staged ⊆ (calls.forM check).staged := by
  induction calls with
  | nil => exact absurd hmem List.not_mem_nil
  | cons first calls ih =>
    have hcons : (first :: calls).forM check = check first >>= fun _ => calls.forM check := rfl
    rw [hcons] at h ⊢
    obtain ⟨_, hfirst, hrest⟩ := result_bind_eq_ok.mp h
    rw [staged_bind hfirst]
    rcases List.mem_cons.mp hmem with rfl | hmem
    · exact List.subset_append_left _ _
    · exact List.subset_append_of_subset_right _ (ih hrest hmem)

/-- When staging succeeds, its outermost calls have come to their destinations, and it has staged
all that they stage. -/
theorem areStaged_of_stageExpression? {staged : Option Value}
    (hread : Expression.parse e.text = .ok e)
    (h : (stageExpression? bindings e).result = .ok staged) :
    Term.AreStaged bindings (stageExpression? bindings e).staged (destinationOf bindings)
      e.term.stagingCalls := by
  obtain ⟨hcanonical, hreferences⟩ := Expression.parse_text_eq_ok.mp hread
  have hcalls : (e.term.stagingCalls.forM (checkCall bindings)).result = .ok () := by
    rw [result_stageExpression? hread] at h
    obtain ⟨_, hok, -⟩ := Checked.bind_eq_ok.mp h
    exact hok
  intro call hmem
  obtain ⟨destination, hdestination⟩ :=
    (result_checkCalls hcanonical hreferences).mp hcalls call hmem
  refine ⟨hdestination.destinationOf_eq ▸ hdestination.2, ?_⟩
  have hsubset := (Term.areCalls_nodes e.term).subset call hmem
  have hcall := callDestination_eq
    (Term.Canonical.of_mem_nodes e.term hcanonical call (hsubset (Term.mem_nodes_self call)))
    (fun root steps hnode => hreferences root steps (hsubset hnode)) hdestination
  have hcheck : (checkCall bindings call).staged = (call.eval bindings).staged := by
    rw [checkCall, hcall]
    exact List.append_nil _
  have hall : (stageExpression? bindings e).staged
      = (e.term.stagingCalls.forM (checkCall bindings)).staged := by
    rw [stageExpression?_eq hread, staged_bind hcalls]
    exact List.append_nil _
  rw [← hcheck, hall]
  exact staged_subset_of_forM hcalls hmem

/-- If staging gives a value for an expression and the expression itself evaluates, then the value
evaluates to the same; and the files that the evaluation records are recorded by staging too. -/
theorem eval_of_stageExpression? {value result : Value} (hread : Expression.parse e.text = .ok e)
    (hstaged : (stageExpression? bindings e).result = .ok (some value))
    (heval : (e.eval bindings).result = .ok result) :
    (value.eval bindings).result = .ok result
      ∧ ∀ (table : StagedFiles) directory path,
        ((table.recordAll directory (e.eval bindings).staged).get? path).isSome →
          ((table.recordAll directory (stageExpression? bindings e).staged).get? path).isSome := by
  have hcalls := areStaged_of_stageExpression? hread hstaged
  have hfollows := Term.follows_splice e.term hcalls
  constructor
  · rw [result_stageExpression? hread] at hstaged
    obtain ⟨_, -, hvalue⟩ := Checked.bind_eq_ok.mp hstaged
    have hvalue := Except.ok.inj hvalue
    split at hvalue
    · exact absurd hvalue nofun
    next hempty =>
    obtain rfl := Option.some.inj hvalue
    rw [valueOf_spliced (by simpa using hempty)]
    split
    · next hcall =>
      have hsplice := Term.splice_of_isStaging (f := destinationOf bindings) hcall
      have hresult := hfollows.result result heval
      rwa [hsplice, Term.eval_ofString] at hresult
    · exact hfollows.result result heval
  · intro table directory path hrecorded
    refine StagedFiles.isSome_get?_recordAll.mpr
      ((StagedFiles.isSome_get?_recordAll.mp hrecorded).imp_right ?_)
    rintro ⟨source, hsource, hpath⟩
    exact ⟨source, hfollows.staged hsource, hpath⟩

/-- Of two calls in the branches of a conditional, the evaluation comes to one. -/
theorem eval_of_stageExpression?_of_branches :
    let bindings : SortedMap Value := .ofList [("flag", .bool true)]
    let branches (yes no : Term) : Expression := ⟨.conditional (.ofNames "var" ["flag"]) yes no⟩
    let e := branches (.stagingOf "a.sh") (.stagingOf "b.sh")
    let image := branches (.ofString (StagedFiles.destination "a.sh"))
      (.ofString (StagedFiles.destination "b.sh"))
    Expression.parse e.text = .ok e
      ∧ (stageExpression? bindings e).result = .ok (some (.expression image))
      ∧ (e.eval bindings).result = .ok (.string (StagedFiles.destination "a.sh"))
      ∧ ((Value.expression image).eval bindings).result
        = .ok (.string (StagedFiles.destination "a.sh"))
      ∧ ∀ (table : StagedFiles) directory path,
        ((table.recordAll directory (e.eval bindings).staged).get? path).isSome →
          ((table.recordAll directory (stageExpression? bindings e).staged).get? path).isSome := by
  intro bindings branches e image
  have hcall (source : String) :
      HasDestination bindings (.stagingOf source) (StagedFiles.destination source) :=
    ⟨List.forall_mem_nil _, by rw [Term.eval_stagingOf]⟩
  have hstaging (source : String) (hne : source ≠ "") : (Term.stagingOf source).Canonical :=
    ⟨by decide, ⟨hne, trivial, trivial⟩, trivial⟩
  have hcanonical : e.term.Canonical :=
    ⟨by decide, ⟨by decide, by decide, trivial⟩, hstaging "a.sh" (by decide),
      hstaging "b.sh" (by decide)⟩
  have hreferences : e.IsWellReferenced := by
    intro root steps hmem
    obtain ⟨rfl, rfl⟩ : root = "var" ∧ steps = [.attribute "flag"] := by
      simpa [e, branches, Term.stagingOf, Term.ofString, Term.ofNames, Term.nodes, Term.listNodes,
        Term.partsNodes, Term.stepsNodes] using hmem
    exact ⟨.global "flag", rfl⟩
  have hread := Expression.parse_text_eq_ok.mpr ⟨hcanonical, hreferences⟩
  have hcalls : ∀ call ∈ e.term.stagingCalls,
      ∃ destination, HasDestination bindings call destination := by
    intro call hmem
    rcases List.mem_pair.mp hmem with rfl | rfl
    · exact ⟨_, hcall "a.sh"⟩
    · exact ⟨_, hcall "b.sh"⟩
  have hstaged : (stageExpression? bindings e).result = .ok (some (.expression image)) := by
    have hsplice : spliced bindings e = image := by
      show branches (.ofString (destinationOf bindings (.stagingOf "a.sh")))
        (.ofString (destinationOf bindings (.stagingOf "b.sh"))) = image
      rw [(hcall "a.sh").destinationOf_eq, (hcall "b.sh").destinationOf_eq]
    rw [result_stageExpression?_of_calls hread (List.cons_ne_nil _ _) hcalls, hsplice]
    rfl
  have heval : (e.eval bindings).result = .ok (.string (StagedFiles.destination "a.sh")) := by
    have hflag : (Term.ofNames "var" ["flag"]).eval bindings = ⟨[], .ok (.bool true)⟩ := rfl
    show ((Term.ofNames "var" ["flag"]).eval bindings >>= _).result = _
    rw [hflag, bind_ok]
    exact congrArg Evaluation.result (Term.eval_stagingOf bindings "a.sh")
  exact ⟨hread, hstaged, heval, eval_of_stageExpression? hread hstaged heval⟩

end Staging

end ClusterBlueprint
