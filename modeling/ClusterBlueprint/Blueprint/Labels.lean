import ClusterBlueprint.Blueprint.Basic
import ClusterBlueprint.Catalog

/-!
Labels: those of all resources of a blueprint, and those that each module adds.

A module with an input for labels gets the global labels merged with its own, where its own win and
its role is among them.
-/

namespace ClusterBlueprint.Labels

def labelsName : String := "labels"

def blueprintLabel : String := "ghpc_blueprint"

def deploymentLabel : String := "ghpc_deployment"

def roleLabel : String := "ghpc_role"

/-- The role of modules whose sources lie in no named directory. -/
def otherRole : String := "other"

/-- The role of the module at a source: the name of the directory that the source lies in. -/
def role (source : String) : String := (Path.enclosingName? source).getD otherRole

def defaults (bp : Blueprint) : Fields Value :=
  let named : Fields Value := Fields.put blueprintLabel (.string bp.name) []
  if bp.vars.has Blueprint.deploymentVariable then
    named.put deploymentLabel (.ofReference (.global Blueprint.deploymentVariable))
  else named

/-- The labels with those of `others` that they lack. -/
def withMissing (labels others : Fields Value) : Fields Value :=
  others.foldl (fun labels (name, value) =>
    if (labels.find? name).isSome then labels else labels.put name value) labels

/-- The blueprint with all default labels among its global labels. -/
def completeGlobal (bp : Blueprint) : Checked Blueprint :=
  let withLabels (labels : Fields Value) : Blueprint :=
    { bp with vars := bp.vars.set labelsName (.object labels) }
  match Option.map Entry.value <| bp.vars.find? labelsName with
  | none => .ok (withLabels (defaults bp))
  | some (.object labels) => .ok (withLabels (withMissing labels (defaults bp)))
  | some _ =>
    .error (.located (Location.vars.key labelsName)
      (Cause.type ("vars." ++ labelsName ++ " must be a map")))

def globalLabels : Value := .ofReference (.global labelsName)

/-- The labels to merge for a module that has some of its own: later ones win. -/
def mergeArgs (roleLabels : Fields Value) : Value → Checked (List Value)
  | .null => .ok [globalLabels, .object roleLabels]
  | .object own => .ok [globalLabels, .object (withMissing own roleLabels)]
  | .expression own => .ok [globalLabels, .object roleLabels, .expression own]
  | other => .error (Cause.type ("module labels must be a map, got " ++ other.typeName))

def mergeModule (catalog : Catalog) (place : Location) (module : Module) : Checked Module := do
  let interface ← (catalog.interface module.source module.kind).located (place.field .source)
  if (interface.input? labelsName).isNone then return module
  let roleLabels : Fields Value := Fields.put roleLabel (.string (role module.source)) []
  let args ← (mergeArgs roleLabels (module.settings.get labelsName)).located
    (place.setting labelsName)
  let merged := Value.callOf "merge" args
  return { module with settings := module.settings.set labelsName (.expression merged) }

/-- The blueprint with its global labels completed and the labels of its modules merged. -/
def combine (bp : Blueprint) (catalog : Catalog) : Checked Blueprint := do
  (← completeGlobal bp).mapModules (mergeModule catalog)

end ClusterBlueprint.Labels
