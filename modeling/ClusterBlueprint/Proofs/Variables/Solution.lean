import ClusterBlueprint.Proofs.Evaluation.Agreement
import ClusterBlueprint.Proofs.Evaluation.Literal
import ClusterBlueprint.Proofs.Variables.Search

/-!
The evaluated variables are the one solution of the equations between them.

Each variable is evaluated against the variables resolved before it only.  What it refers to is
among those, so the ones resolved later make no difference.
-/

namespace ClusterBlueprint.Variables

open Evaluation

variable {vars : Dict} {resolved other : SortedMap Value} {name : String} {value : Value}

theorem eval_eq_of_isResolved
    (href : ∀ reference ∈ (vars.get name).references, IsResolved resolved reference)
    (hother : ∀ target, resolved.contains target → other.find? target = resolved.find? target) :
    (vars.get name).eval other = (vars.get name).eval resolved := by
  refine Value.eval_congr fun target htarget => ?_
  obtain ⟨found, heq, hcontains⟩ := href _ htarget
  obtain rfl := Reference.global.inj heq
  exact hother target hcontains

theorem find?_insert_of_contains (hname : ¬ resolved.contains name) {target : String}
    (h : resolved.contains target) :
    (resolved.insert name value).find? target = resolved.find? target := by
  refine SortedMap.find?_insert_of_ne resolved ?_ value
  rintro rfl
  exact hname h

namespace Resolves

theorem has (h : Resolves vars resolved) (hname : resolved.contains name) : vars.has name := by
  induction h with
  | empty => exact absurd hname Bool.false_ne_true
  | insert _ hhas _ _ _ ih =>
    rcases SortedMap.contains_insert.mp hname with rfl | hname
    · exact hhas
    · exact ih hname

/-- What a resolved variable refers to is resolved. -/
theorem closed (h : Resolves vars resolved) (hname : resolved.contains name) :
    ∀ reference ∈ (vars.get name).references, IsResolved resolved reference := by
  induction h with
  | empty => exact absurd hname Bool.false_ne_true
  | insert _ _ _ href _ ih =>
    rcases SortedMap.contains_insert.mp hname with rfl | hname
    · exact fun reference hmem => (href reference hmem).insert _
    · exact fun reference hmem => (ih hname reference hmem).insert _

/-- The value of a resolved variable is what its expressions come to. -/
theorem solves (h : Resolves vars resolved) (hvalue : resolved.find? name = some value) :
    ((vars.get name).eval resolved).result = .ok value := by
  induction h with
  | empty => exact absurd hvalue (by simp)
  | @insert resolved last found hres _ hnot href heval ih =>
    have hkeeps : ∀ target, resolved.contains target →
        (resolved.insert last found).find? target = resolved.find? target :=
      fun _ => find?_insert_of_contains hnot
    by_cases heq : name = last
    · subst heq
      rw [SortedMap.find?_insert_self] at hvalue
      rw [eval_eq_of_isResolved href hkeeps, heval, Option.some.inj hvalue]
    · rw [SortedMap.find?_insert_of_ne resolved heq] at hvalue
      have hname : resolved.contains name := SortedMap.contains_iff_exists.mpr ⟨value, hvalue⟩
      rw [eval_eq_of_isResolved (hres.closed hname) hkeeps]
      exact ih hvalue

/-- Any solution has the values that were resolved. -/
theorem unique (h : Resolves vars resolved)
    (hother : ∀ name, vars.has name → ∃ value, other.find? name = some value
      ∧ ((vars.get name).eval other).result = .ok value)
    (hvalue : resolved.find? name = some value) : other.find? name = some value := by
  induction h generalizing name value with
  | empty => exact absurd hvalue (by simp)
  | @insert resolved last found hres hhas hnot href heval ih =>
    by_cases heq : name = last
    · subst heq
      rw [SortedMap.find?_insert_self] at hvalue
      -- What the last one refers to came before it, and there the solutions agree already.
      have hagree : ∀ target, resolved.contains target →
          other.find? target = resolved.find? target := by
        intro target htarget
        obtain ⟨before, hbefore⟩ := SortedMap.contains_iff_exists.mp htarget
        rw [hbefore, ih hbefore]
      obtain ⟨result, hresult, hsolves⟩ := hother name hhas
      rw [eval_eq_of_isResolved href hagree, heval] at hsolves
      rw [hresult, ← Except.ok.inj hsolves, hvalue]
    · rw [SortedMap.find?_insert_of_ne resolved heq] at hvalue
      exact ih hvalue

theorem isLiteral (h : Resolves vars resolved) (hvalue : resolved.find? name = some value) :
    value.IsLiteral := Value.isLiteral_of_eval (h.solves hvalue)

end Resolves

/-- What the evaluation of the variables builds. -/
theorem resolves_of_evaluate {vars out : Dict} (h : (evaluate vars).result = .ok out) :
    ∃ resolved, out = Dict.ofValues resolved ∧ Resolves vars resolved
      ∧ ∀ name, resolved.contains name ↔ vars.has name := by
  obtain ⟨resolved, hresolved, hout⟩ := result_bind_eq_ok.mp h
  exact ⟨resolved, (Except.ok.inj hout).symm, (resolveAll_yields vars).ok hresolved⟩

theorem keys_of_evaluate {vars out : Dict} (h : (evaluate vars).result = .ok out) :
    out.keys = vars.keys := by
  obtain ⟨resolved, rfl, -, hcontains⟩ := resolves_of_evaluate h
  rw [Dict.keys_ofValues]
  exact SortedMap.keys_ext hcontains

/-- The evaluated variables are those there were, their values are literal, they solve the equations
between the variables, and nothing else does. -/
theorem evaluate_unique_solution {vars out : Dict} (h : (evaluate vars).result = .ok out) :
    out.keys = vars.keys
      ∧ (∀ name ∈ vars.keys, (out.get name).hasExpression = false)
      ∧ (∀ name ∈ vars.keys, ((vars.get name).eval out.values).result = .ok (out.get name))
      ∧ ∀ d : Dict, d.keys = vars.keys →
        (∀ name ∈ vars.keys, ((vars.get name).eval d.values).result = .ok (d.get name)) →
        d.values = out.values := by
  have hkeys := keys_of_evaluate h
  obtain ⟨resolved, rfl, hres, hcontains⟩ := resolves_of_evaluate h
  rw [Dict.values_ofValues]
  have hfind : ∀ name ∈ vars.keys, ∃ value, resolved.find? name = some value := fun name hname =>
    SortedMap.contains_iff_exists.mp ((hcontains name).mpr (Dict.has_iff_mem_keys.mpr hname))
  refine ⟨hkeys, fun name hname => ?_, fun name hname => ?_, fun d hkeys hd => ?_⟩
  · obtain ⟨value, hvalue⟩ := hfind name hname
    rw [Dict.get_ofValues hvalue]
    exact hres.isLiteral hvalue
  · obtain ⟨value, hvalue⟩ := hfind name hname
    rw [Dict.get_ofValues hvalue]
    exact hres.solves hvalue
  · have hsolution : ∀ name, vars.has name → ∃ value, d.values.find? name = some value
        ∧ ((vars.get name).eval d.values).result = .ok value := by
      intro name hname
      have hmem := Dict.has_iff_mem_keys.mp hname
      refine ⟨d.get name, Dict.find?_values_of_has ?_, hd name hmem⟩
      exact Dict.has_iff_mem_keys.mpr (hkeys ▸ hmem)
    refine SortedMap.ext_find? fun name => ?_
    by_cases hname : vars.has name
    · obtain ⟨value, hvalue⟩ := hfind name (Dict.has_iff_mem_keys.mp hname)
      rw [hvalue, hres.unique hsolution hvalue]
    · have hd : ¬ d.values.contains name := by
        rwa [Dict.contains_values, Dict.has_iff_mem_keys, hkeys, ← Dict.has_iff_mem_keys]
      have hnot : ¬ resolved.contains name := mt (hcontains name).mp hname
      rw [SortedMap.find?_eq_none hd, SortedMap.find?_eq_none hnot]

def linked : Dict :=
  Dict.ofValues (.ofList [("a", .string "x"), ("b", .ofReference (.global "a"))])

theorem evaluate_linked :
    (evaluate linked).result =
      .ok (.ofValues (.ofList [("a", .string "x"), ("b", .string "x")])) := by
  have hkeys : linked.keys.attach = [⟨"a", by decide⟩, ⟨"b", by decide⟩] := by rfl
  rw [evaluate, resolveAll_eq, hkeys]
  simp only [List.foldlM_cons, List.foldlM_nil, enter, visit_eq]
  rfl

theorem evaluate_unique_solution_of_linked :
    ∃ out : Dict, (evaluate linked).result = .ok out ∧ out.keys = linked.keys
      ∧ (∀ name ∈ linked.keys, (out.get name).hasExpression = false)
      ∧ (∀ name ∈ linked.keys, ((linked.get name).eval out.values).result = .ok (out.get name))
      ∧ ∀ d : Dict, d.keys = linked.keys →
        (∀ name ∈ linked.keys, ((linked.get name).eval d.values).result = .ok (d.get name)) →
        d.values = out.values :=
  ⟨_, evaluate_linked, evaluate_unique_solution evaluate_linked⟩

end ClusterBlueprint.Variables
