import ClusterBlueprint.Dict
import ClusterBlueprint.Interface
import ClusterBlueprint.Path
import ClusterBlueprint.ValidationLevel

/-!
Blueprints: modules in groups, and the variables that they share.

The groups of a blueprint are deployed in their order.  Modules are named by ids, so a look-up by id
takes the first module of that id, in the order of the groups.
-/

namespace ClusterBlueprint

/-- Where the state of a group is kept. -/
structure Backend where
  type : String := ""
  configuration : Dict := ∅
deriving BEq

/-- Whether a backend says nothing. -/
def Backend.isEmpty (backend : Backend) : Bool :=
  backend.type.isEmpty && backend.configuration.isEmpty

structure Validator where
  name : String
  /-- whether the check is left out -/
  skip : Bool := false
  inputs : Dict := ∅

structure Module where
  source : String
  kind : ModuleKind := .unknown
  id : String
  /-- the ids of the modules whose outputs go into inputs that are not set -/
  uses : List String := []
  outputs : List Output := []
  settings : Dict := ∅
deriving BEq

instance : Inhabited Module := ⟨⟨"", .unknown, "", [], [], ∅⟩⟩

def Module.hasOutput (module : Module) (name : String) : Bool :=
  module.outputs.any (·.name = name)

structure Group where
  name : String
  /-- the group's own backend -/
  backend : Option Backend := none
  modules : List Module := []
deriving BEq

namespace Group

/-- The kind that the modules of a group share, unknown if they share none. -/
def kind (group : Group) : ModuleKind :=
  match group.modules with
  | [] => .unknown
  | first :: rest => if rest.all (·.kind = first.kind) then first.kind else .unknown

def module? (group : Group) (id : String) : Option Module := group.modules.find? (·.id = id)

def hasModule (group : Group) (id : String) : Bool := group.modules.any (·.id = id)

end Group

structure Blueprint where
  name : String
  /-- the file that the blueprint was read from -/
  path : String := ""
  validators : List Validator := []
  level : ValidationLevel := .error
  vars : Dict := ∅
  groups : List Group := []
  /-- the backend of groups that have none of their own -/
  backendDefaults : Backend := {}
  staged : StagedFiles := ∅

namespace Blueprint

/-- The directory of the blueprint's file, where sources are staged from. -/
def directory (bp : Blueprint) : String := Path.directory bp.path

def modules (bp : Blueprint) : List Module := bp.groups.flatMap Group.modules

def moduleIds (bp : Blueprint) : List String := bp.modules.map Module.id

def placedModules (bp : Blueprint) : List (Location × Module) :=
  bp.groups.zipIdx.flatMap fun (group, i) =>
    group.modules.zipIdx.map fun (module, j) => (Location.module i j, module)

def module? (bp : Blueprint) (id : String) : Option Module :=
  bp.groups.findSome? fun group => group.module? id

def module (bp : Blueprint) (id : String) : Checked Module :=
  match bp.module? id with
  | some module => .ok module
  | none => .error (Cause.unknownModule id)

def groupIndex? (bp : Blueprint) (id : String) : Option Nat :=
  bp.groups.findIdx? fun group => group.hasModule id

def groupIndex (bp : Blueprint) (id : String) : Checked Nat :=
  match bp.groupIndex? id with
  | some position => .ok position
  | none => .error (Cause.unknownModule id)

def groupOf? (bp : Blueprint) (id : String) : Option Group :=
  bp.groups.find? fun group => group.hasModule id

def groupOf (bp : Blueprint) (id : String) : Checked Group :=
  match bp.groupOf? id with
  | some group => .ok group
  | none => .error (Cause.unknownModule id)

def group (bp : Blueprint) (name : String) : Checked Group :=
  match bp.groups.find? (·.name = name) with
  | some group => .ok group
  | none => .error (Cause.unknownGroup name)

def modulesByGroup (bp : Blueprint) : SortedMap (List String) :=
  .ofList (bp.groups.map fun group => (group.name, group.modules.map Module.id))

def mapModules {m : Type → Type} [Monad m] (f : Location → Module → m Module) (bp : Blueprint) :
    m Blueprint := do
  let groups ← bp.groups.zipIdx.mapM fun (group, i) => do
    let modules ← group.modules.zipIdx.mapM fun (module, j) => f (.module i j) module
    return { group with modules }
  return { bp with groups }

/-- A value evaluated against the global variables, which are taken to be evaluated. -/
def eval (bp : Blueprint) (value : Value) : Checked Value := (value.eval bp.vars.values).result

/-- Every value of a dictionary evaluated against the global variables. -/
def evalDict (bp : Blueprint) (dict : Dict) : Checked Dict := (dict.eval bp.vars.values).result

/-- The outcome of an evaluation, and the blueprint with the sources that were staged on the way. -/
def evaluating {α : Type} (bp : Blueprint) (x : Evaluation α) : Checked (α × Blueprint) := do
  let result ← x.result
  return (result, { bp with staged := bp.staged.recordAll bp.directory x.staged })

def deploymentVariable : String := "deployment_name"

/-- The name of the deployment: a text that is not empty. -/
def deploymentName (bp : Blueprint) : Checked String :=
  let wrong (reason : String) : Checked String :=
    .error (.located (Location.vars.key deploymentVariable) (Cause.deploymentName reason))
  match bp.vars.find? deploymentVariable with
  | none => wrong "deployment_name variable not defined."
  | some entry =>
    match entry.value with
    | .string name =>
      if name.isEmpty then wrong "deployment_name was an empty string." else .ok name
    | _ => wrong "deployment_name was not of type string."

end Blueprint

end ClusterBlueprint
