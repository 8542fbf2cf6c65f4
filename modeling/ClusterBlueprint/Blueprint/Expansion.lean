import ClusterBlueprint.Blueprint.Backends
import ClusterBlueprint.Blueprint.Document
import ClusterBlueprint.Blueprint.GroupOrder
import ClusterBlueprint.Blueprint.Labels
import ClusterBlueprint.Blueprint.References
import ClusterBlueprint.Blueprint.Use
import ClusterBlueprint.Staging
import ClusterBlueprint.Variables
import ClusterBlueprint.Yaml.Schema

/-!
The expansion of a blueprint: everything that is left unsaid is filled in.

`Blueprint.expand` runs the passes in an order in which each finds what it needs: kinds and checks
first, then labels and backends, the values of the global variables, the settings that follow from
other parts, what groups hand on to each other, and last the files to stage.
-/

namespace ClusterBlueprint

/-- What the caller of an expansion may choose. -/
structure ExpandOptions where
  /-- the level to set in the blueprint -/
  level : Option ValidationLevel := none
  /-- global variables to set, as `name=value` -/
  overrides : List String := []

/-- The options that some data describe.  The variables have to be given, if only as an empty
list. -/
def ExpandOptions.read (node : Node) : Fitted ExpandOptions := do
  let record ← Record.read ["validation_level", "cli_variables"] node
  return {
    level := ← record.nullable "validation_level" ValidationLevel.read
    overrides := ← record.required "cli_variables" (Readable.list Readable.text) }

namespace Blueprint

/-- The blueprint with a global variable set by an item such as `name=value`, where the value is
YAML. -/
def setVariable (bp : Blueprint) (item : String) : Checked Blueprint := do
  match item.toList.dropWhile (· ≠ '=') with
  | [] => .error (Cause.cliVariableFormat item)
  | _ :: source =>
    let name := String.ofList (item.toList.takeWhile (· ≠ '='))
    let value ← Yaml.readValue (String.ofList source)
    return { bp with vars := bp.vars.set name value }

def setVariables (bp : Blueprint) (items : List String) : Checked Blueprint :=
  items.foldlM setVariable bp

/-- The blueprint with the choices of the caller. -/
def applyOptions (bp : Blueprint) (options : ExpandOptions) : Checked Blueprint :=
  setVariables { bp with level := options.level.getD bp.level } options.overrides

/-- The blueprint with Terraform as the kind of modules that have none. -/
def defaultKinds (bp : Blueprint) : Blueprint :=
  { bp with groups := bp.groups.map fun group =>
      { group with modules := group.modules.map fun module =>
          if module.kind = .unknown then { module with kind := .terraform } else module } }

def evaluateVars (bp : Blueprint) : Checked Blueprint := do
  let (vars, bp) ← bp.evaluating (Variables.evaluate bp.vars)
  return { bp with vars }

/-- The blueprint with every staging call in a setting replaced by the destination. -/
def stageSettings (bp : Blueprint) : Checked Blueprint := do
  let (staged, bp) ← bp.evaluating (bp.mapModules fun place module => do
    let settings ← module.settings.mapValues fun name value =>
      (Staging.stageValue bp.vars.values value).located (place.setting name)
    return { module with settings })
  return { bp with groups := staged.groups }

/-- The blueprint with everything filled in that it leaves unsaid. -/
def expand (bp : Blueprint) (catalog : Catalog) (options : ExpandOptions) : Checked Blueprint := do
  let bp := (← bp.applyOptions options).defaultKinds
  Structure.check bp catalog
  References.check bp catalog
  let bp := Backends.expand (← Labels.combine bp catalog)
  let bp ← bp.evaluateVars
  let _ ← bp.deploymentName
  let bp ← Use.apply bp catalog
  let bp ← Use.applyGlobals bp catalog
  let bp := Intergroup.populateOutputs bp
  (GroupGraph.ofBlueprint bp).checkDeclaredOrder bp
  let bp ← bp.stageSettings
  Backends.materialize bp

end Blueprint

end ClusterBlueprint
