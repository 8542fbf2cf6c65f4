import ClusterBlueprint.Fault
import ClusterBlueprint.Fields

/-!
Graphs of groups, and the order to deploy them in.

An edge runs from a group to one that needs it.  The order is found by a depth-first search from
every group, in the order in which the groups were added: a group is put before everything that was
finished earlier.  Whether the order is right is checked afterwards, since the search passes over
groups that it is still busy with.
-/

namespace ClusterBlueprint

structure GroupGraph where
  /-- in the order in which they were added -/
  groups : List String := []
  /-- the edges, from the needed group to the one that needs it, oldest first -/
  edges : List (String × String) := []

namespace GroupGraph

instance : EmptyCollection GroupGraph := ⟨{}⟩

instance : Inhabited GroupGraph := ⟨∅⟩

def add (graph : GroupGraph) (group : String) : GroupGraph :=
  if graph.groups.contains group then graph
  else { graph with groups := graph.groups ++ [group] }

/-- The graph with the knowledge that `group` needs `needed`. -/
def depend (graph : GroupGraph) (group needed : String) : GroupGraph :=
  let graph := (graph.add needed).add group
  if graph.edges.contains (needed, group) then graph
  else { graph with edges := graph.edges ++ [(needed, group)] }

def successors (graph : GroupGraph) (group : String) : List String :=
  (graph.edges.filter (·.1 = group)).map Prod.snd

def predecessors (graph : GroupGraph) (group : String) : List String :=
  (graph.edges.filter (·.2 = group)).map Prod.fst

def dependencies (graph : GroupGraph) (group : String) : List String :=
  (graph.predecessors group).mergeSort fun a b => decide (a ≤ b)

/-- The fault of a group that needs itself in the end. -/
def cycleAt (group : String) : Fault := Cause.cyclicDependency group group

/-- The groups that are finished after the search from `group` is done, the last one first.  A group
that is neither free nor finished is one that the search is busy with. -/
def visit (graph : GroupGraph) (free finished : List String) (group : String) (h : group ∈ free) :
    Checked (List String) := do
  have := length_erase_lt h
  if group ∈ graph.successors group then throw (cycleAt group)
  let finished ← (graph.successors group).foldlM (fun finished next =>
    if next ∈ finished then pure finished
    else if hnext : next ∈ free.erase group then
      visit graph (free.erase group) finished next hnext
    else pure finished) finished
  return group :: finished
termination_by free.length

/-- The groups, each before the ones that were finished earlier. -/
def searchOrder (graph : GroupGraph) : Checked (List String) :=
  graph.groups.attach.foldlM (fun finished ⟨group, h⟩ =>
    if group ∈ finished then pure finished else visit graph graph.groups finished group h) []

/-- A fault unless every group stands after the groups that it needs.  The groups that were passed
are `seen`. -/
def checkOrder (graph : GroupGraph) (seen : List String) : List String → Checked Unit
  | [] => .ok ()
  | group :: rest =>
    match (graph.predecessors group).find? fun needed => !(group :: seen).contains needed with
    | some needed => .error (cycleAt needed)
    | none => checkOrder graph (group :: seen) rest

/-- The groups, each after the groups that it needs. -/
def order (graph : GroupGraph) : Checked (List String) := do
  let order ← graph.searchOrder
  graph.checkOrder [] order
  return order

end GroupGraph

end ClusterBlueprint
