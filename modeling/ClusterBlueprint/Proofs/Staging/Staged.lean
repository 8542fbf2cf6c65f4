import ClusterBlueprint.Proofs.StagedFiles
import ClusterBlueprint.Proofs.Staging.Tokens

/-!
What staging makes of an expression.

The expression is read back with texts in place of its outermost staging calls.  A text does not
hold together less tightly than a call, so nothing around a call is read in another way.
-/

namespace ClusterBlueprint

namespace Staging

variable {bindings : SortedMap Value} {e : Expression}

theorem result_checkCall {call : Term} (hcanonical : call.Canonical) :
    (checkCall bindings call).result = .ok ()
      ↔ AreReferences call.nodes ∧ ∃ destination, HasDestination bindings call destination := by
  rw [checkCall, Evaluation.result_discard_eq_ok, ← exists_and_left]
  exact exists_congr fun _ => result_callDestination hcanonical

theorem canonical_of_mem_stagingCalls (hcanonical : e.term.Canonical) {call : Term}
    (h : call ∈ e.term.stagingCalls) : call.Canonical :=
  .of_mem_nodes e.term hcanonical call
    ((Term.areCalls_nodes e.term).subset call h (Term.mem_nodes_self call))

/-- Calls are checked before they are replaced, so each of them has a value in the end. -/
theorem hasDestination_of_checkCalls (hcanonical : e.term.Canonical)
    (h : (e.term.stagingCalls.forM (checkCall bindings)).result = .ok ()) :
    ∀ call ∈ e.term.stagingCalls, ∃ destination, HasDestination bindings call destination :=
  fun call hcall =>
    ((result_checkCall (canonical_of_mem_stagingCalls hcanonical hcall)).mp
      (Evaluation.result_forM_eq_ok.mp h call hcall)).2

theorem result_checkCalls (hcanonical : e.term.Canonical) (hreferences : e.IsWellReferenced) :
    (e.term.stagingCalls.forM (checkCall bindings)).result = .ok ()
      ↔ ∀ call ∈ e.term.stagingCalls, ∃ destination, HasDestination bindings call destination := by
  refine ⟨hasDestination_of_checkCalls hcanonical, fun h => Evaluation.result_forM_eq_ok.mpr ?_⟩
  intro call hcall
  refine (result_checkCall (canonical_of_mem_stagingCalls hcanonical hcall)).mpr ⟨?_, h call hcall⟩
  exact fun root steps hmem =>
    hreferences root steps ((Term.areCalls_nodes e.term).subset call hcall hmem)

/-- The expression with the destinations of its outermost staging calls in their place. -/
def spliced (bindings : SortedMap Value) (e : Expression) : Expression :=
  ⟨e.term.splice (destinationOf bindings)⟩

theorem isWellReferenced_spliced (h : e.IsWellReferenced) :
    (spliced bindings e).IsWellReferenced := by
  intro root steps hmem
  obtain ⟨original, horiginal, rfl⟩ := Term.exists_of_traversal_mem_splice hmem
  obtain ⟨reference, hread⟩ := h root original horiginal
  have hnames := Term.names_spliceSteps (destinationOf bindings) original
  exact ⟨reference, (Reference.ofTraversal_congr root hnames reference).mpr hread⟩

/-- What an expression refers to with its calls replaced, it referred to before. -/
theorem mem_references_of_spliced {reference : Reference}
    (h : reference ∈ (spliced bindings e).references) : reference ∈ e.references := by
  obtain ⟨root, steps, hmem, hread⟩ := Expression.mem_references.mp h
  obtain ⟨original, horiginal, rfl⟩ := Term.exists_of_traversal_mem_splice hmem
  have hnames := Term.names_spliceSteps (destinationOf bindings) original
  exact Expression.mem_references.mpr
    ⟨root, original, horiginal, (Reference.ofTraversal_congr root hnames reference).mp hread⟩

/-- The expression with its calls replaced is read back from its tokens if it is well referenced. -/
theorem ofTokens_spliced (hcanonical : e.term.Canonical)
    (h : ∀ call ∈ e.term.stagingCalls, ∃ destination, HasDestination bindings call destination)
    {image : Expression} :
    Expression.ofTokens (spliced bindings e).term.tokens = .ok image
      ↔ image = spliced bindings e ∧ (spliced bindings e).IsWellReferenced := by
  have hne : ∀ call ∈ e.term.stagingCalls, destinationOf bindings call ≠ "" := by
    intro call hcall
    obtain ⟨destination, hdestination⟩ := h call hcall
    rw [hdestination.destinationOf_eq]
    exact hdestination.ne_empty ((Term.areCalls_nodes e.term).isStaging call hcall)
  have hread := Term.ofTokens_tokens (Term.canonical_splice e.term hne hcanonical)
  rw [Expression.ofTokens_eq_ok]
  constructor
  · rintro ⟨himage, hreferences⟩
    obtain rfl : image = spliced bindings e :=
      congrArg Expression.mk (Except.ok.inj (himage.symm.trans hread))
    exact ⟨rfl, hreferences⟩
  · rintro ⟨rfl, hreferences⟩
    exact ⟨hread, hreferences⟩

/-- Staging an expression with a canonical tree evaluates its outermost staging calls, from left to
right, and reads the expression back with their values in their place. -/
theorem stageExpression?_of_canonical (hcanonical : e.term.Canonical)
    (bindings : SortedMap Value) :
    stageExpression? bindings e = e.term.stagingCalls.forM (checkCall bindings) >>= fun _ =>
      if e.term.stagingCalls.isEmpty then pure none
      else Evaluation.ofChecked (Expression.ofTokens (spliced bindings e).term.tokens)
        >>= fun image => pure (some (valueOf image)) := by
  have htokens : e.tokens = .ok e.term.tokens := Term.scan_text hcanonical
  have hreplaces : Replaces bindings e.term.tokens _ _ := Term.replaces_tokens e.term hcanonical
  have hreplace := hreplaces [] rfl
  have hend : replaceCalls bindings [] = pure ([], false) := by rw [replaceCalls]
  rw [List.append_nil, hend] at hreplace
  show (Evaluation.ofChecked e.tokens >>= fun tokens => _) = _
  rw [htokens]
  show replaceCalls bindings e.term.tokens >>= _ = _
  rw [hreplace]
  simp only [pure_bind, bind_assoc, List.append_nil, Bool.or_false]
  refine Evaluation.bind_congr_ok fun _ _ => ?_
  cases e.term.stagingCalls <;> rfl

/-- Staging evaluates the outermost staging calls of an expression, from left to right, and puts
their values in their place. -/
theorem stageExpression?_eq (hread : Expression.parse e.text = .ok e)
    (bindings : SortedMap Value) :
    stageExpression? bindings e = e.term.stagingCalls.forM (checkCall bindings) >>= fun _ =>
      pure (if e.term.stagingCalls.isEmpty then none else some (valueOf (spliced bindings e))) := by
  obtain ⟨hcanonical, hreferences⟩ := Expression.parse_text_eq_ok.mp hread
  rw [stageExpression?_of_canonical hcanonical]
  refine Evaluation.bind_congr_ok fun _ hcalls => ?_
  rw [(ofTokens_spliced hcanonical (hasDestination_of_checkCalls hcanonical hcalls)).mpr
    ⟨rfl, isWellReferenced_spliced hreferences⟩]
  cases e.term.stagingCalls <;> rfl

theorem result_stageExpression? (hread : Expression.parse e.text = .ok e)
    (bindings : SortedMap Value) :
    (stageExpression? bindings e).result
      = (e.term.stagingCalls.forM (checkCall bindings)).result >>= fun _ =>
        .ok (if e.term.stagingCalls.isEmpty then none
          else some (valueOf (spliced bindings e))) := by
  rw [stageExpression?_eq hread, Evaluation.result_bind]
  rfl

theorem result_stageExpression?_of_calls (hread : Expression.parse e.text = .ok e)
    (hne : e.term.stagingCalls ≠ [])
    (h : ∀ call ∈ e.term.stagingCalls, ∃ destination, HasDestination bindings call destination) :
    (stageExpression? bindings e).result = .ok (some (valueOf (spliced bindings e))) := by
  obtain ⟨hcanonical, hreferences⟩ := Expression.parse_text_eq_ok.mp hread
  have hempty : e.term.stagingCalls.isEmpty = false := by simpa using hne
  rw [result_stageExpression? hread, (result_checkCalls hcanonical hreferences).mpr h, hempty]
  rfl

theorem mem_references_of_valueOf {reference : Reference}
    (h : reference ∈ (valueOf e).references) : reference ∈ e.references := by
  unfold valueOf at h
  split at h
  · split at h
    · exact absurd h List.not_mem_nil
    · rwa [Value.references_expression] at h
  · rwa [Value.references_expression] at h

/-- What staging makes of an expression refers to nothing else than what the expression's text says,
if a canonical tree has that text. -/
theorem mem_references_of_stageExpression? {t : Term} {value : Value} {reference : Reference}
    (hcanonical : t.Canonical) (htext : t.text = e.text)
    (hstaged : (stageExpression? bindings e).result = .ok (some value))
    (h : reference ∈ value.references) : reference ∈ (⟨t⟩ : Expression).references := by
  have hsame : stageExpression? bindings e = stageExpression? bindings ⟨t⟩ := by
    unfold stageExpression? Expression.tokens Expression.text
    rw [htext, Expression.text]
  rw [hsame, stageExpression?_of_canonical hcanonical] at hstaged
  obtain ⟨_, hcalls, hstaged⟩ := Evaluation.result_bind_eq_ok.mp hstaged
  split at hstaged
  · exact absurd hstaged nofun
  · obtain ⟨image, himage, hreturn⟩ := Evaluation.result_bind_eq_ok.mp hstaged
    obtain rfl := Option.some.inj (Except.ok.inj hreturn)
    have hdestinations := hasDestination_of_checkCalls (e := ⟨t⟩) hcanonical hcalls
    obtain ⟨rfl, -⟩ := (ofTokens_spliced hcanonical hdestinations).mp himage
    exact mem_references_of_spliced (mem_references_of_valueOf h)

theorem plainText?_spliceParts {f : Term → String} :
    ∀ {parts : List Part}, Term.partsCalls parts ≠ [] →
      plainText? (Term.spliceParts f parts) = none
  | [], h => absurd rfl h
  | .literal _ :: parts, h => by
    have hparts : plainText? (Term.spliceParts f parts) = none := plainText?_spliceParts h
    rw [Term.spliceParts, plainText?, hparts]
    rfl
  | .interpolation _ :: _, _ => rfl

/-- With its calls replaced, an expression is a plain text only if it was a call as a whole. -/
theorem valueOf_spliced (h : e.term.stagingCalls ≠ []) :
    valueOf (spliced bindings e) = if e.term.isStaging then .string (destinationOf bindings e.term)
      else .expression (spliced bindings e) := by
  obtain ⟨t⟩ := e
  unfold spliced
  split
  · next hcall =>
    rw [Term.splice_of_isStaging hcall]
    show Value.string (destinationOf bindings t ++ "") = _
    rw [String.append_empty]
  · next hcall =>
    cases t with
    | template parts =>
      simp only [Term.splice, valueOf, plainText?_spliceParts h]
    | call name args =>
      have hname : name ≠ Function.stageName := fun heq => hcall (decide_eq_true heq)
      rw [Term.splice, if_neg hname]
      rfl
    | _ => rfl

/-- Staging an expression that is read back from its text leaves it alone if no staging call stands
in it.  Otherwise it puts the values of the outermost staging calls in their place, provided that
each of them refers to global variables only and evaluates to a text, and fails if one does not.
No staging call is left. -/
theorem stageExpression?_splices (bindings : SortedMap Value) {e : Expression}
    (hread : Expression.parse e.text = .ok e) :
    let staged := (stageExpression? bindings e).result
    ((∀ node ∈ e.term.nodes, node.isStaging = false) → staged = .ok none)
      ∧ ((∃ node ∈ e.term.nodes, node.isStaging) →
        (∀ call ∈ e.term.stagingCalls, ∃ destination, HasDestination bindings call destination) →
          staged = .ok (some (if e.term.isStaging then .string (destinationOf bindings e.term)
            else .expression ⟨e.term.splice (destinationOf bindings)⟩)))
      ∧ ((∃ call ∈ e.term.stagingCalls, ∀ destination, ¬ HasDestination bindings call destination) →
        ∃ fault, staged = .error fault)
      ∧ ∀ image, staged = .ok (some (.expression image)) →
        ∀ node ∈ image.term.nodes, node.isStaging = false := by
  obtain ⟨hcanonical, hreferences⟩ := Expression.parse_text_eq_ok.mp hread
  have hresult := result_stageExpression? hread bindings
  have hchecked : (e.term.stagingCalls.forM (checkCall bindings)).result = .ok () ↔ _ :=
    result_checkCalls hcanonical hreferences
  intro staged
  refine ⟨fun hnone => ?_, fun ⟨node, hnode, hcall⟩ hall => ?_, fun ⟨call, hcall, hnot⟩ => ?_,
    fun image himage => ?_⟩
  · show (stageExpression? bindings e).result = _
    rw [hresult, Term.stagingCalls_eq_nil.mpr hnone]
    rfl
  · have hne := (Term.areCalls_nodes e.term).complete node hnode hcall
    show (stageExpression? bindings e).result = _
    rw [result_stageExpression?_of_calls hread hne hall, valueOf_spliced hne]
    rfl
  · show ∃ fault, (stageExpression? bindings e).result = _
    rw [hresult]
    cases hcalls : (e.term.stagingCalls.forM (checkCall bindings)).result with
    | error fault => exact ⟨fault, rfl⟩
    | ok _ =>
      obtain ⟨destination, hdestination⟩ := hchecked.mp hcalls call hcall
      exact absurd hdestination (hnot destination)
  · have himage : (stageExpression? bindings e).result = _ := himage
    rw [hresult] at himage
    obtain ⟨_, -, heq⟩ := Checked.bind_eq_ok.mp himage
    have heq := Except.ok.inj heq
    split at heq
    · exact absurd heq nofun
    · next hempty =>
      have hne : e.term.stagingCalls ≠ [] := by simpa using hempty
      rw [valueOf_spliced hne] at heq
      split at heq
      · exact absurd heq nofun
      · obtain rfl := Value.expression.inj (Option.some.inj heq)
        exact fun node hnode => Term.isStaging_of_mem_splice hnode

/-- In `ghpc_stage("run.sh") == var.script` only the call is replaced. -/
theorem stageExpression?_splices_of_comparison :
    let script := Term.ofNames "var" ["script"]
    let e : Expression := ⟨.binary .equal (.stagingOf "run.sh") script⟩
    Expression.parse e.text = .ok e ∧ (stageExpression? ∅ e).result
      = .ok (some (.expression
        ⟨.binary .equal (.ofString (StagedFiles.destination "run.sh")) script⟩)) := by
  intro script e
  have hcall : HasDestination ∅ (.stagingOf "run.sh") (StagedFiles.destination "run.sh") := by
    refine ⟨List.forall_mem_nil _, ?_⟩
    rw [Term.eval_stagingOf]
  have hcanonical : e.term.Canonical :=
    ⟨by decide, by decide, ⟨by decide, ⟨by decide, trivial, trivial⟩, trivial⟩, by decide,
      by decide, trivial⟩
  have hreferences : e.IsWellReferenced := by
    intro root steps hmem
    obtain ⟨rfl, rfl⟩ : root = "var" ∧ steps = [.attribute "script"] := by
      simpa [e, script, Term.stagingOf, Term.ofString, Term.ofNames, Term.nodes, Term.listNodes,
        Term.partsNodes, Term.stepsNodes] using hmem
    exact ⟨.global "script", rfl⟩
  have hread := Expression.parse_text_eq_ok.mpr ⟨hcanonical, hreferences⟩
  have hstaging : ∃ node ∈ e.term.nodes, node.isStaging :=
    ⟨.stagingOf "run.sh", by simp [e, Term.nodes, Term.mem_nodes_self], Term.isStaging_call _⟩
  have hcalls : ∀ call ∈ e.term.stagingCalls, ∃ destination, HasDestination ∅ call destination := by
    intro call hmem
    obtain rfl : call = .stagingOf "run.sh" := List.mem_singleton.mp hmem
    exact ⟨_, hcall⟩
  have hstaged := (stageExpression?_splices ∅ hread).2.1 hstaging hcalls
  have hdestination := hcall.destinationOf_eq
  refine ⟨hread, hstaged.trans ?_⟩
  rw [← hdestination]
  rfl

end Staging

end ClusterBlueprint
