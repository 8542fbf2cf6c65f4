import ClusterBlueprint.Dict

/-!
The evaluation of global variables.

A variable is evaluated after the variables it refers to, by a depth-first search.  The search takes
a variable off the free ones when it starts on it; a variable that is neither free nor resolved is
one whose evaluation led here, so referring to it closes a cycle.  Each variable is evaluated
against what is resolved so far.
-/

namespace ClusterBlueprint.Variables

/-- The resolved variables after the search from `name` is done. -/
def visit (vars : Dict) (free : List String) (resolved : SortedMap Value) (name : String)
    (h : name ∈ free) : Evaluation (SortedMap Value) := do
  have := length_erase_lt h
  let place := Location.vars.key name
  let value := vars.get name
  let resolved ← value.references.foldlM (fun resolved reference =>
    match reference with
    | .output .. => .ofChecked (.error (.located place Cause.nonGlobalReference))
    | .global target =>
      if resolved.contains target then pure resolved
      else if htarget : target ∈ free.erase name then
        visit vars (free.erase name) resolved target htarget
      else if vars.has target then
        .ofChecked (.error (.located place (Cause.cyclicDependency name target)))
      else .ofChecked (.error (.located place (Cause.unknownVariable target)))) resolved
  let evaluated ← (value.eval resolved).located place
  return resolved.insert name evaluated
termination_by free.length

/-- The values of all variables, searched in the order of their names. -/
def resolveAll (vars : Dict) : Evaluation (SortedMap Value) :=
  vars.keys.attach.foldlM (fun resolved ⟨name, h⟩ =>
    if resolved.contains name then pure resolved
    else visit vars vars.keys resolved name h) ∅

/-- The variables with every value evaluated. -/
def evaluate (vars : Dict) : Evaluation Dict := do return Dict.ofValues (← resolveAll vars)

end ClusterBlueprint.Variables
