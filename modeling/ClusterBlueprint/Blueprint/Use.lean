import ClusterBlueprint.Blueprint.Basic
import ClusterBlueprint.Catalog

/-!
Settings that follow from other parts of a blueprint.

An input that its module does not set takes the output of the same name of a module that it uses; an
input for lists takes all such outputs.  What is then still not set takes the global variable of the
same name.
-/

namespace ClusterBlueprint.Use

def outputEntry (id name : String) : Entry := .ofUse (.ofReference (.ofModule id name)) [id]

/-- An entry put before another in one list. -/
def accumulate (new existing : Entry) : Entry :=
  .ofUse (.expression (Value.callOf "flatten" [.list [new.value, existing.value]]))
    (new.fromUse ++ existing.fromUse)

/-- The settings after one output of the module `id` was offered to an input. -/
def offer (id : String) (settings : Dict) (input : Input) : Dict :=
  let new := outputEntry id input.name
  match settings.find? input.name with
  | none => settings.setEntry input.name new
  | some existing =>
    if input.isList then settings.setEntry input.name (accumulate new existing) else settings

/-- The settings of a module with an interface after it took the outputs of the module `id`, which
has the interface `used`.  The settings that its author wrote are `written`. -/
def take (interface : Interface) (written : List String) (settings : Dict) (id : String)
    (used : Interface) : Dict :=
  used.outputs.foldl (fun settings output =>
    match interface.input? output.name with
    | some input => if written.contains input.name then settings else offer id settings input
    | none => settings) settings

def lastModule? (bp : Blueprint) (id : String) : Option Module :=
  bp.modules.reverse.find? (·.id = id)

def resolve (bp : Blueprint) (catalog : Catalog) (used : String) : Checked Interface := do
  match lastModule? bp used with
  | none => .error (Cause.unknownModule used)
  | some module => catalog.interface module.source module.kind

/-- A module of a blueprint after it took the outputs of all modules that it uses. -/
def applyModule (bp : Blueprint) (catalog : Catalog) (place : Location) (module : Module) :
    Checked Module := do
  if module.uses.isEmpty then return module
  let interface ← (catalog.interface module.source module.kind).located (place.field .source)
  let settings ← module.uses.zipIdx.foldlM (fun settings (used, i) => do
    let usedInterface ← (resolve bp catalog used).located ((place.field .uses).index i)
    return take interface module.settings.keys settings used usedInterface) module.settings
  return { module with settings }

/-- The blueprint after every module took the outputs of the modules that it uses. -/
def apply (bp : Blueprint) (catalog : Catalog) : Checked Blueprint :=
  bp.mapModules (applyModule bp catalog)

/-- The settings of the module `id` with the global variable of an input's name, if the input is not
set. -/
def setGlobal (vars : Dict) (id : String) (settings : Dict) (input : Input) : Checked Dict :=
  if settings.has input.name then .ok settings
  else if vars.has input.name then
    .ok (settings.set input.name (.ofReference (.global input.name)))
  else if input.required then .error (Cause.missingSetting id input.name)
  else .ok settings

def globalsModule (bp : Blueprint) (catalog : Catalog) (place : Location) (module : Module) :
    Checked Module := do
  let interface ← (catalog.interface module.source module.kind).located (place.field .source)
  let settings ← (interface.inputs.foldlM (setGlobal bp.vars module.id) module.settings
    : Checked Dict).located (place.field .settings)
  return { module with settings }

/-- The blueprint after every module took the global variables of its inputs' names. -/
def applyGlobals (bp : Blueprint) (catalog : Catalog) : Checked Blueprint :=
  bp.mapModules (globalsModule bp catalog)

end ClusterBlueprint.Use
