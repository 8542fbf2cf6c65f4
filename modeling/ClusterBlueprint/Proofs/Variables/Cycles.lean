import ClusterBlueprint.Proofs.References
import ClusterBlueprint.Proofs.Variables.Solution

/-!
Cycles between the variables.

Resolved variables lie on no cycle, since each comes after those it refers to.  So an evaluation of
variables that do lie on one fails, and one that reports a cycle has found one.
-/

namespace ClusterBlueprint.Variables

open Evaluation Relation

variable {vars : Dict} {resolved : SortedMap Value} {name target : String}

/-! ## Cycles are found -/

namespace Resolves

theorem contains_of_refers (h : Resolves vars resolved) (hname : resolved.contains name)
    (hrefers : Refers vars name target) : resolved.contains target := by
  obtain ⟨found, heq, hfound⟩ := h.closed hname _ hrefers
  rwa [Reference.global.inj heq]

theorem contains_of_transGen (h : Resolves vars resolved) (hname : resolved.contains name)
    (hpath : TransGen (Refers vars) name target) : resolved.contains target := by
  induction hpath with
  | single hrefers => exact h.contains_of_refers hname hrefers
  | tail _ hrefers ih => exact h.contains_of_refers ih hrefers

/-- No resolved variable leads to itself. -/
theorem acyclic (h : Resolves vars resolved) (hname : resolved.contains name) :
    ¬ TransGen (Refers vars) name name := by
  induction h generalizing name with
  | empty => exact absurd hname Bool.false_ne_true
  | @insert resolved last _ hres _ hnot href _ ih =>
    rcases SortedMap.contains_insert.mp hname with rfl | hname
    · -- A path from the last one runs among those before it, and it is not one of them.
      intro hcycle
      obtain ⟨next, hrefers, hback⟩ := TransGen.head'_iff.mp hcycle
      obtain ⟨found, heq, hfound⟩ := href _ hrefers
      obtain rfl := Reference.global.inj heq
      rcases reflTransGen_iff_eq_or_transGen.mp hback with heq | hpath
      · exact hnot (heq ▸ hfound)
      · exact hnot (hres.contains_of_transGen hfound hpath)
    · exact ih hname

end Resolves

theorem has_of_transGen (h : TransGen (Refers vars) name target) : vars.has name := by
  obtain ⟨next, hrefers, -⟩ := TransGen.head'_iff.mp h
  exact Dict.has_of_mem_references hrefers

/-! ## What is reported is there -/

/-- The faults of an evaluation, within its hints. -/
theorem rootCause_of_isEvaluation {missing : String → Prop} : ∀ fault : Fault,
    fault.IsEvaluation missing → ∃ cause : Cause, fault.rootCause = .cause cause
      ∧ cause.IsEvaluation missing
  | .cause c, h => ⟨c, rfl, h⟩
  | .hinted fault _, h => rootCause_of_isEvaluation fault h
  | .located _ _, h | .several _, h => absurd h id

/-- What evaluating a variable's expressions reports is no cycle. -/
theorem rootCause_ne_cyclic {fault : Fault} {origin : String}
    (h : ((vars.get name).eval resolved).result = .error fault) :
    fault.rootCause ≠ .cause (.cyclicDependency origin target) := by
  have hknown : ∀ e, .expression e ∈ (vars.get name).nodes →
      Term.Known (fun _ => True) resolved e.term.nodes := fun _ _ _ _ _ _ => trivial
  obtain ⟨cause, hcause, heval⟩ := rootCause_of_isEvaluation fault
    ((Value.eval_yields hknown).error h)
  intro heq
  rw [hcause] at heq
  obtain rfl := Fault.cause.inj heq
  exact heval

theorem evaluate_yields (vars : Dict) :
    (evaluate vars).Yields (fun _ => ∀ name, vars.has name → ¬ TransGen (Refers vars) name name)
      (Failure vars) := by
  refine (resolveAll_yields vars).bind fun resolved hresolved => yields_pure ?_
  exact fun name hname => hresolved.1.acyclic ((hresolved.2 name).mpr hname)

theorem Failure.of_cyclic {fault : Fault} {origin : String} (h : Failure vars fault)
    (hcause : fault.rootCause = .cause (.cyclicDependency origin target)) :
    fault = .located (Location.vars.key origin) (Cause.cyclicDependency origin target)
      ∧ Refers vars origin target ∧ ReflTransGen (Refers vars) target origin := by
  cases h with
  | nonGlobal => exact absurd (Fault.cause.inj hcause) nofun
  | unknown => exact absurd (Fault.cause.inj hcause) nofun
  | cyclic _ hrefers hpath =>
    obtain ⟨rfl, rfl⟩ := Cause.cyclicDependency.inj (Fault.cause.inj hcause)
    exact ⟨rfl, hrefers, hpath⟩
  | @evaluation name _ inner _ _ _ heval =>
    have hinner : inner.rootCause = .cause (.cyclicDependency origin target) := hcause
    exact absurd hinner (rootCause_ne_cyclic heval)

/-! ## Without cycles -/

/-- Evaluating a reference asks in vain only for the variable that is meant. -/
theorem eq_global_of_unknown? {root : String} {steps : List Step} {reference : Reference}
    (hread : Reference.ofTraversal root steps = .ok reference)
    (h : (Term.traversal root steps).unknown? resolved = some name) :
    reference = .global name ∧ ¬ resolved.contains name := by
  by_cases hglobal : root = Reference.globalRoot
  · subst hglobal
    match steps with
    | [] | .index _ :: _ => exact absurd h (Option.some_ne_none _).symm
    | .attribute first :: _ =>
      obtain rfl : .global first = reference := Except.ok.inj hread
      have hunknown : (if resolved.contains first then none else some first) = some name := h
      split at hunknown
      · exact absurd hunknown (Option.some_ne_none _).symm
      · next hnot =>
        rw [← Option.some.inj hunknown]
        exact ⟨rfl, hnot⟩
  · have hmodule : root = Reference.moduleRoot := by
      refine Decidable.byContradiction fun hmodule => ?_
      simp [Reference.ofTraversal, hglobal, hmodule] at hread
    unfold Term.unknown? at h
    dsimp only at h
    rw [if_neg hglobal, if_pos hmodule] at h
    exact absurd h (Option.some_ne_none _).symm

/-- Evaluating a value asks for no variable in vain once those it refers to are resolved. -/
theorem known_of_isResolved {value : Value} (hwell : value.IsWellReferenced)
    (href : ∀ reference ∈ value.references, IsResolved resolved reference) :
    ∀ e, .expression e ∈ value.nodes → Term.Known (fun _ => False) resolved e.term.nodes := by
  intro e he node hnode name hunknown
  match node with
  | .traversal root steps =>
    obtain ⟨reference, hread⟩ := hwell e he root steps hnode
    obtain ⟨rfl, hnot⟩ := eq_global_of_unknown? hread hunknown
    have hmem : .global name ∈ value.references := Value.mem_references.mpr
      ⟨e, he, Expression.mem_references.mpr ⟨root, steps, hnode, hread⟩⟩
    obtain ⟨found, heq, hfound⟩ := href _ hmem
    exact hnot (Reference.global.inj heq ▸ hfound)

structure FailsAt (vars : Dict) (name : String) (fault : Fault) : Prop where
  has : vars.has name
  eval : ∃ bindings : SortedMap Value, ((vars.get name).eval bindings).result = .error fault
    ∧ ∀ target, Refers vars name target → ∃ value, bindings.find? target = some value
      ∧ ((vars.get target).eval bindings).result = .ok value

/-- Where all references are to variables and no variable leads to itself, only the evaluation of
an expression can fail. -/
theorem Failure.of_acyclic {fault : Fault} (h : Failure vars fault)
    (hwell : ∀ name ∈ vars.keys, (vars.get name).IsWellReferenced)
    (hdefined : ∀ name ∈ vars.keys, ∀ reference ∈ (vars.get name).references,
      ∃ target ∈ vars.keys, reference = .global target)
    (hacyclic : ∀ name, ¬ TransGen (Refers vars) name name) :
    ∃ name inner, fault = .located (Location.vars.key name) inner ∧ FailsAt vars name inner
      ∧ inner.IsEvaluation fun _ => False := by
  cases h with
  | nonGlobal hhas hmem =>
    obtain ⟨target, -, heq⟩ := hdefined _ (Dict.has_iff_mem_keys.mp hhas) _ hmem
    exact absurd heq nofun
  | cyclic _ hrefers hpath => exact absurd (TransGen.head' hrefers hpath) (hacyclic _)
  | unknown hhas hrefers hnot =>
    obtain ⟨target, htarget, heq⟩ := hdefined _ (Dict.has_iff_mem_keys.mp hhas) _ hrefers
    rw [Reference.global.inj heq] at hnot
    exact absurd (Dict.has_iff_mem_keys.mpr htarget) hnot
  | @evaluation name resolved inner hhas hres href heval =>
    refine ⟨name, inner, rfl, ⟨hhas, resolved, heval, fun target hrefers => ?_⟩, ?_⟩
    · obtain ⟨found, heq, hfound⟩ := href _ hrefers
      obtain rfl := Reference.global.inj heq
      obtain ⟨value, hvalue⟩ := SortedMap.contains_iff_exists.mp hfound
      exact ⟨value, hvalue, hres.solves hvalue⟩
    · have hknown := known_of_isResolved (hwell name (Dict.has_iff_mem_keys.mp hhas)) href
      exact (Value.eval_yields hknown).error heval

/-- A reported cycle is one, variables on a cycle are not evaluated, and without cycles and
references that lead nowhere only the evaluation of an expression can fail. -/
theorem evaluate_reports_cycles {vars : Dict}
    (hwell : ∀ name ∈ vars.keys, (vars.get name).IsWellReferenced) :
    (∀ fault origin target, (evaluate vars).result = .error fault →
        fault.rootCause = .cause (.cyclicDependency origin target) →
        fault = .located (Location.vars.key origin) (Cause.cyclicDependency origin target)
          ∧ Refers vars origin target ∧ ReflTransGen (Refers vars) target origin)
      ∧ (∀ name, TransGen (Refers vars) name name → ∃ fault, (evaluate vars).result = .error fault)
      ∧ ((∀ name ∈ vars.keys, ∀ reference ∈ (vars.get name).references,
            ∃ target ∈ vars.keys, reference = .global target) →
          (∀ name, ¬ TransGen (Refers vars) name name) →
          (∃ out, (evaluate vars).result = .ok out)
            ∨ ∃ name fault cause,
              (evaluate vars).result = .error (.located (Location.vars.key name) fault)
                ∧ FailsAt vars name fault ∧ fault.rootCause = .cause cause
                ∧ (∀ origin target, cause ≠ .cyclicDependency origin target)
                ∧ cause ≠ .nonGlobalReference ∧ ∀ other, cause ≠ .unknownVariable other) := by
  refine ⟨fun fault origin target h hcause => ?_, fun name hcycle => ?_,
    fun hdefined hacyclic => ?_⟩
  · exact ((evaluate_yields vars).error h).of_cyclic hcause
  · cases h : (evaluate vars).result with
    | error fault => exact ⟨fault, rfl⟩
    | ok out => exact absurd hcycle ((evaluate_yields vars).ok h name (has_of_transGen hcycle))
  · cases h : (evaluate vars).result with
    | ok out => exact .inl ⟨out, rfl⟩
    | error fault =>
      have hfailure := (evaluate_yields vars).error h
      obtain ⟨name, inner, rfl, hfails, heval⟩ := hfailure.of_acyclic hwell hdefined hacyclic
      obtain ⟨cause, hcause, hkind⟩ := rootCause_of_isEvaluation inner heval
      refine .inr ⟨name, inner, cause, rfl, hfails, hcause, ?_, ?_, ?_⟩
      · rintro origin target rfl
        exact hkind
      · rintro rfl
        exact hkind
      · rintro other rfl
        exact hkind

def ring : Dict :=
  Dict.ofValues (.ofList [("a", .ofReference (.global "b")), ("b", .ofReference (.global "a"))])

theorem evaluate_ring : (evaluate ring).result
    = .error (.located (Location.vars.key "b") (Cause.cyclicDependency "b" "a")) := by
  have hkeys : ring.keys.attach = [⟨"a", by decide⟩, ⟨"b", by decide⟩] := by rfl
  have hrefers : (ring.get "a").references = [.global "b"] := rfl
  have hfollow : follow ring ring.keys "a" ∅ (.global "b")
      = visit ring (ring.keys.erase "a") ∅ "b" (by decide) := rfl
  rw [evaluate, resolveAll_eq, hkeys]
  simp only [List.foldlM_cons, List.foldlM_nil, enter, visit_eq, hrefers, hfollow]
  rfl

theorem ring_isWellReferenced : ∀ name ∈ ring.keys, (ring.get name).IsWellReferenced := by
  have hkeys : ring.keys = ["a", "b"] := rfl
  rw [hkeys]
  rintro name (_ | ⟨_, _ | ⟨_, ⟨⟩⟩⟩)
  · exact Value.isWellReferenced_ofReference _
  · exact Value.isWellReferenced_ofReference _

theorem transGen_ring : TransGen (Refers ring) "a" "a" := by
  have hab : Refers ring "a" "b" := List.mem_singleton_self _
  have hba : Refers ring "b" "a" := List.mem_singleton_self _
  exact .tail (.single hab) hba

theorem evaluate_reports_cycles_of_ring :
    (∀ name ∈ ring.keys, (ring.get name).IsWellReferenced)
      ∧ Refers ring "b" "a" ∧ ReflTransGen (Refers ring) "a" "b"
      ∧ ∃ fault, (evaluate ring).result = .error fault :=
  have h := evaluate_reports_cycles ring_isWellReferenced
  ⟨ring_isWellReferenced, (h.1 _ "b" "a" evaluate_ring rfl).2.1,
    (h.1 _ "b" "a" evaluate_ring rfl).2.2, h.2.1 "a" transGen_ring⟩

end ClusterBlueprint.Variables
