import ClusterBlueprint.Blueprint.Basic
import ClusterBlueprint.Catalog
import ClusterBlueprint.Fault.Collection
import ClusterBlueprint.Literal
import ClusterBlueprint.Text.Distance

/-!
The structure of a blueprint: names, kinds, sources, settings and outputs.

Every rule yields the faults it finds, so that all of them can be reported at once.
`Structure.check` passes exactly when no rule finds any.
-/

namespace ClusterBlueprint

def Cause.suggesting (cause : Cause) (name : String) (candidates : List String) : Fault :=
  match Text.nearest? name candidates with
  | some near => .hinted cause ("did you mean " ++ Text.quoted near ++ "?")
  | none => cause

def Faults.checkAll (faults : List Fault) : Checked Unit := (faults.foldl Faults.add ∅).result

namespace Structure

/-! ## Names -/

/-- Whether a text consists of word characters and dashes, with a word character at either end. -/
def isGroupName (name : String) : Bool :=
  let word (c : Option Char) := c.any Text.isWordCharacter
  word name.toList.head? && word name.toList.getLast?
    && name.toList.all fun c => Text.isWordCharacter c || c = '-'

/-- A fault unless a text can name a group. -/
def checkGroupName (name : String) : Checked Unit :=
  if name.isEmpty then .error Cause.emptyGroupName
  else if isGroupName name then .ok ()
  else .error (Cause.invalidGroupName name)

/-- Whether a text consists of letters, digits, dashes and underscores and starts with no digit. -/
def isSettingName (name : String) : Bool :=
  let inside (c : Char) := c.isAlphanum || c = '-' || c = '_'
  match name.toList with
  | [] => false
  | first :: rest => inside first && !first.isDigit && rest.all inside

/-! ## Groups -/

/-- A fault unless a group has modules, all of one kind, and no more than one of Packer. -/
def checkGroupKind (group : Group) : Checked Unit :=
  match group.modules with
  | [] => .error (Cause.emptyGroup group.name)
  | first :: rest =>
    match rest.find? (·.kind ≠ first.kind) with
    | some other => .error (Cause.mixedModules group.name other.kind first.kind)
    | none =>
      if first.kind = .packer && !rest.isEmpty then
        .error (Cause.packerGroupSize group.name group.modules.length)
      else .ok ()

def faultAt (place : Location) : Checked Unit → List Fault
  | .ok _ => []
  | .error fault => [.located place fault]

/-- The faults of the groups from a position on.  Names seen so far are `seen`; a name that cannot
name a group is not compared with others. -/
def groupFaults (seen : List String) (position : Nat) : List Group → List Fault
  | [] => []
  | group :: rest =>
    let place := Location.group position
    let named := do
      checkGroupName group.name
      if seen.contains group.name then
        throw (Fault.cause (.duplicate "group names" group.name))
    faultAt (place.field .group) named ++ faultAt (place.field .modules) (checkGroupKind group)
      ++ groupFaults (group.name :: seen) (position + 1) rest

/-! ## Modules -/

/-- Sources that modules had before they moved, and those they have now. -/
def movedModules : List (String × String) := [
  ("community/modules/scheduler/cloud-batch-job", "modules/scheduler/batch-job-template"),
  ("community/modules/scheduler/cloud-batch-login-node", "modules/scheduler/batch-login-node"),
  ("community/modules/scheduler/htcondor-configure",
    "community/modules/scheduler/htcondor-setup")]

/-- A source without the steps at its start that stay in the directory. -/
def withoutHere : List Char → List Char
  | '.' :: '/' :: rest => withoutHere rest
  | source => source

def checkMoved (moved : List (String × String)) (source : String) : Checked Unit :=
  match moved.find? fun (old, _) => old.toList = withoutHere source.toList with
  | some (old, new) => .error (Cause.movedModule old new)
  | none => .ok ()

/-- A fault unless a text can name a module. -/
def checkId (id : String) : Checked Unit :=
  if id.isEmpty then .error Cause.emptyModuleId
  else if id = Reference.globalNamespace then .error (Cause.reservedModuleId id)
  else .ok ()

/-- A fault unless a text can be the source of a module. -/
def checkSource (source : String) : Checked Unit :=
  if source.isEmpty then .error Cause.emptyModuleSource else checkMoved movedModules source

def settingFault? (interface : Interface) (name : String) : Option Fault :=
  if name.toList.contains '.' then some Cause.settingWithPeriod
  else if !isSettingName name then some Cause.settingInvalidChar
  else if (interface.input? name).isNone then
    some (Cause.unknownSetting.suggesting name (interface.inputs.map Input.name))
  else none

def settingFaults (settings : Location) (module : Module) (interface : Interface) : List Fault :=
  module.settings.keys.filterMap fun name =>
    (settingFault? interface name).map (Fault.located (settings.key name))

def outputFaults (outputs : Location) (module : Module) (interface : Interface) : List Fault :=
  module.outputs.zipIdx.filterMap fun (output, i) =>
    if interface.hasOutput output.name then none
    else some (.located ((outputs.index i).field .name) (Cause.invalidOutput output.name))

def interfaceFaults (catalog : Catalog) (place : Location) (module : Module) : List Fault :=
  match catalog.interface module.source module.kind with
  | .ok interface =>
    settingFaults (place.field .settings) module interface
      ++ outputFaults (place.field .outputs) module interface
  | .error fault => if module.source.isEmpty then [] else [.located (place.field .source) fault]

def moduleFaults (catalog : Catalog) (seen : List String) :
    List (Location × Module) → List Fault
  | [] => []
  | (place, module) :: rest =>
    let repeated : Checked Unit :=
      if !module.id.isEmpty && seen.contains module.id then
        .error (Cause.duplicate "module IDs" module.id)
      else .ok ()
    faultAt (place.field .id) repeated ++ faultAt (place.field .id) (checkId module.id)
      ++ faultAt (place.field .source) (checkSource module.source)
      ++ interfaceFaults catalog place module
      ++ moduleFaults catalog (module.id :: seen) rest

/-! ## Blueprints -/

def faults (bp : Blueprint) (catalog : Catalog) : List Fault :=
  groupFaults [] 0 bp.groups ++ moduleFaults catalog [] bp.placedModules

/-- A fault unless the structure of a blueprint is right. -/
def check (bp : Blueprint) (catalog : Catalog) : Checked Unit := Faults.checkAll (faults bp catalog)

/-- Whether a text in a value looks like a variable, although it is plain text. -/
def hasEscapedVariable (value : Value) : Bool :=
  (value.nodes.filterMap Value.string?).any Literal.hasVariable

/-- The settings that pass, but hold plain text that looks like a variable: the ids of the modules
with the names of the settings. -/
def warnings (bp : Blueprint) (catalog : Catalog) : List (String × String) :=
  bp.modules.flatMap fun module =>
    match catalog.interface module.source module.kind with
    | .ok interface =>
      (module.settings.keys.filter fun name =>
        (settingFault? interface name).isNone && hasEscapedVariable (module.settings.get name)).map
        fun name => (module.id, name)
    | .error _ => []

end Structure

end ClusterBlueprint
