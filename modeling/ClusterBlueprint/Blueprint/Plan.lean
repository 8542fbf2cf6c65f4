import ClusterBlueprint.Blueprint.Document
import ClusterBlueprint.Blueprint.GroupOrder

/-!
The plan of a deployment: its groups, what they hand on to each other, and the files to stage.
-/

namespace ClusterBlueprint

structure GroupPlan where
  name : String
  kind : ModuleKind
  modules : List String
  /-- the names that earlier groups hand on to this one -/
  inputs : SortedMap (List String)

structure Plan where
  blueprint : String
  deployment : String
  groups : List GroupPlan
  staged : StagedFiles

namespace Plan

def ofGroup (bp : Blueprint) (group : Group) : Checked GroupPlan := do
  return {
    name := group.name
    kind := group.kind
    modules := group.modules.map Module.id
    inputs := ← Intergroup.inputsOfNamed bp group.name }

def ofBlueprint (bp : Blueprint) : Checked Plan := do
  let graph := GroupGraph.ofBlueprint bp
  let _ ← graph.order
  graph.checkDeclaredOrder bp
  let groups ← bp.groups.mapM (ofGroup bp)
  return {
    blueprint := bp.name
    deployment := ← bp.deploymentName
    groups
    staged := bp.staged }

/-- The names that a group takes from others, as data. -/
def inputsNode (inputs : SortedMap (List String)) : Option Node :=
  if inputs.isEmpty then none
  else some (.fields (inputs.map fun names => Node.sequence (names.map Node.text)).toList)

def groupNode (group : GroupPlan) : Node := .ofPresent [
  ("name", some (.text group.name)),
  ("kind", some (.text group.kind.text)),
  ("modules", some (.sequence (group.modules.map Node.text))),
  ("inputs", inputsNode group.inputs)]

def toNode (plan : Plan) : Node := .fields [
  ("blueprint", .text plan.blueprint),
  ("deployment", .text plan.deployment),
  ("groups", .sequence (plan.groups.map groupNode)),
  ("staged_files", plan.staged.toNode)]

def line (text : String) : String := text ++ "\n"

def groupText (group : GroupPlan) (position : Nat) : String :=
  let modules := group.modules.map fun id => line ("      + " ++ id)
  let inputs := group.inputs.toList.map fun (producer, names) =>
    line ("      <- " ++ producer ++ ": " ++ ", ".intercalate names)
  line "" ++ line ("  " ++ toString (position + 1) ++ ". " ++ group.name ++ " ["
    ++ group.kind.display ++ "]") ++ String.join modules ++ String.join inputs

def stagedText (staged : StagedFiles) : String :=
  if staged.isEmpty then ""
  else
    line "" ++ line "  Staged files:" ++ String.join (staged.toList.map fun (source, destination) =>
      line ("    " ++ source ++ " -> " ++ destination))

def ruleWidth : Nat := 35

/-- The plan as text to read. -/
def render (plan : Plan) : String :=
  line ("Deployment Plan for: " ++ plan.blueprint ++ " (" ++ plan.deployment ++ ")")
    ++ line (String.ofList (List.replicate ruleWidth '═'))
    ++ String.join (plan.groups.zipIdx.map fun (group, i) => groupText group i)
    ++ line "" ++ line ("  " ++ toString plan.groups.length ++ " group(s) will be deployed.")
    ++ stagedText plan.staged

end Plan

end ClusterBlueprint
