import ClusterBlueprint.Blueprint.Intergroup
import ClusterBlueprint.GroupGraph

/-!
The order of a blueprint's groups.

Groups are deployed in the order in which they are declared, so a group may need earlier groups
only.
-/

namespace ClusterBlueprint.GroupGraph

def ofBlueprint (bp : Blueprint) : GroupGraph :=
  let graph : GroupGraph := bp.groups.foldl (fun graph group => graph.add group.name) ∅
  bp.groups.foldl (fun graph group =>
    (Intergroup.groupReferences bp group).foldl (fun graph reference =>
      match reference.module?.bind bp.groupOf? with
      | some producer => graph.depend group.name producer.name
      | none => graph) graph) graph

def lastPosition? (bp : Blueprint) (name : String) : Option Nat :=
  (bp.groups.zipIdx.reverse.find? fun (group, _) => group.name = name).map Prod.snd

/-- The module to name in the fault that the group of a name is declared too late. -/
def firstModule (bp : Blueprint) (name : String) : Checked String := do
  match (← bp.group name).modules with
  | first :: _ => return first.id
  | [] => return name

/-- A fault unless the group at a position comes after the groups that it needs. -/
def checkPosition (graph : GroupGraph) (bp : Blueprint) (position : Nat) (group : Group) :
    Checked Unit :=
  let late := (graph.dependencies group.name).find? fun needed =>
    (lastPosition? bp needed).any (position < ·)
  match late with
  | some needed => do throw (Fault.cause (.intergroupOrder (← firstModule bp needed)))
  | none => .ok ()

/-- A fault unless every group of a blueprint comes after the groups that it needs. -/
def checkDeclaredOrder (graph : GroupGraph) (bp : Blueprint) : Checked Unit :=
  bp.groups.zipIdx.forM fun (group, position) => checkPosition graph bp position group

end ClusterBlueprint.GroupGraph
