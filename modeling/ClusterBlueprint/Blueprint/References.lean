import ClusterBlueprint.Blueprint.Structure

/-!
The references of a blueprint: what modules use, and what their settings refer to.

A module may refer to modules of its own and of earlier groups, except to those of Packer.
-/

namespace ClusterBlueprint.References

def checkModule (bp : Blueprint) (id target : String) : Checked Unit :=
  match bp.module? target with
  | none =>
    .error ((Cause.unknownModule target).suggesting target
      (bp.moduleIds ++ [Reference.globalNamespace]))
  | some module =>
    if module.kind = .packer then .error (Cause.packerReference target)
    else do
      let targetIndex ← bp.groupIndex target
      let index ← bp.groupIndex id
      if index < targetIndex then .error (Cause.intergroupOrder target) else .ok ()

def checkReference (bp : Blueprint) (catalog : Catalog) (id : String) : Reference → Checked Unit
  | .global name =>
    if bp.vars.has name then .ok ()
    else .error ((Cause.unknownVariable name).suggesting name bp.vars.keys)
  | .output _ target name => do
    checkModule bp id target
    let module ← bp.module target
    let interface ← catalog.interface module.source module.kind
    if interface.hasOutput name then .ok ()
    else
      .error ((Cause.noOutput target name).suggesting name (interface.outputs.map Output.name))

def useFaults (bp : Blueprint) (uses : Location) (module : Module) : List Fault :=
  module.uses.zipIdx.flatMap fun (used, i) =>
    Structure.faultAt (uses.index i) (checkModule bp module.id used)

def settingFaults (bp : Blueprint) (catalog : Catalog) (settings : Location) (module : Module) :
    List Fault :=
  module.settings.keys.flatMap fun name =>
    (module.settings.get name).references.flatMap fun reference =>
      Structure.faultAt (settings.key name) (checkReference bp catalog module.id reference)

def faults (bp : Blueprint) (catalog : Catalog) : List Fault :=
  bp.placedModules.flatMap fun (place, module) =>
    useFaults bp (place.field .uses) module
      ++ settingFaults bp catalog (place.field .settings) module

def check (bp : Blueprint) (catalog : Catalog) : Checked Unit := Faults.checkAll (faults bp catalog)

end ClusterBlueprint.References
