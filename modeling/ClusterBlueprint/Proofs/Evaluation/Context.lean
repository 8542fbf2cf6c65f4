import ClusterBlueprint.Proofs.Evaluation.Agreement
import ClusterBlueprint.Proofs.Evaluation.Yields

/-!
Evaluations in a context.

A context has the values of the global variables and the directory of the blueprint, and a table if
staged files are to be recorded.  An evaluation records the sources as it comes to them, so that the
table goes from each step to the next.  What comes out does not depend on the table, and of the
variables only on those that the expression refers to.
-/

namespace ClusterBlueprint

structure Context where
  bindings : SortedMap Value := ∅
  /-- where relative sources are looked up -/
  directory : String := ""
  /-- where staged files are recorded, if they are -/
  table : Option StagedFiles := none

namespace Context

def stage (context : Context) (source : String) : Context :=
  { context with table := context.table.map fun table =>
      table.record context.directory source (StagedFiles.destination source) }

def stageAll (context : Context) (sources : List String) : Context := sources.foldl stage context

end Context

namespace Evaluation

variable {α β : Type}

/-- What an evaluation comes to in a context, and the context after it. -/
def within (x : Evaluation α) (context : Context) : Checked α × Context :=
  (x.result, context.stageAll x.staged)

end Evaluation

def Expression.evalIn (context : Context) (e : Expression) : Checked Value × Context :=
  (e.eval context.bindings).within context

namespace Expression

/-- An expression comes to the same value, or to the same fault, in all contexts that agree on the
variables it refers to; and it stages the same sources in them. -/
theorem evalIn_of_agreeing {e : Expression} {a b : Context}
    (h : ∀ name, .global name ∈ e.references → a.bindings.find? name = b.bindings.find? name) :
    (e.evalIn a).1 = (e.evalIn b).1
      ∧ ∃ sources, (e.evalIn a).2 = a.stageAll sources ∧ (e.evalIn b).2 = b.stageAll sources := by
  have heval : e.eval a.bindings = e.eval b.bindings := eval_congr h
  refine ⟨congrArg Evaluation.result heval, (e.eval a.bindings).staged, rfl, ?_⟩
  rw [heval]
  rfl

/-- In `ghpc_stage(var.scripts[var.kind])` the index is a reference too. -/
theorem evalIn_of_agreeing_of_index :
    let e : Expression := ⟨.call Function.stageName [.traversal "var"
      [.attribute "scripts", .index (.ofNames "var" ["kind"])]]⟩
    let scripts : Value := .object [("login", .string "login.sh")]
    let bindings : SortedMap Value := .ofList [("kind", .string "login"), ("scripts", scripts)]
    let a : Context := { bindings }
    let b : Context := {
      bindings := bindings.insert "name" (.string "b"), directory := "/bp", table := some ∅ }
    (∀ name, .global name ∈ e.references → a.bindings.find? name = b.bindings.find? name)
      ∧ (e.evalIn a).1 = (e.evalIn b).1
      ∧ ∃ sources, (e.evalIn a).2 = a.stageAll sources ∧ (e.evalIn b).2 = b.stageAll sources := by
  intro e scripts bindings a b
  have h : ∀ name, .global name ∈ e.references →
      a.bindings.find? name = b.bindings.find? name := by
    intro name hname
    have hreferences : e.references = [.global "scripts", .global "kind"] := rfl
    rw [hreferences, List.mem_pair, Reference.global.injEq, Reference.global.injEq] at hname
    have hne : name ≠ "name" := by
      rintro rfl
      exact absurd hname (by decide)
    exact (SortedMap.find?_insert_of_ne bindings hne (.string "b")).symm
  exact ⟨h, evalIn_of_agreeing h⟩

end Expression

end ClusterBlueprint
