import ClusterBlueprint.Blueprint.Basic

/-!
Outputs that cross the borders of groups.

A group knows of earlier groups what is handed on to it, so an output that a later group refers to
has to be declared, and it is handed on under a name that says which module it is of.
-/

namespace ClusterBlueprint

/-- The name under which an output of a module is handed on. -/
def Output.automaticName (name module : String) : String := name ++ "_" ++ module

namespace Intergroup

def valueReferences (bp : Blueprint) (value : Value) (id : String) : List Reference :=
  match bp.groupIndex? id with
  | none => []
  | some own =>
    value.references.filter fun reference =>
      match reference.module?.bind bp.groupIndex? with
      | some position => position ≠ own
      | none => false

/-- A reference put in its place among others, unless it is there. -/
def insertReference (reference : Reference) : List Reference → List Reference
  | [] => [reference]
  | other :: rest =>
    if reference = other then other :: rest
    else if reference.before other then reference :: other :: rest
    else other :: insertReference reference rest

/-- References in their order, each once. -/
def sortedReferences (references : List Reference) : List Reference :=
  references.foldl (fun sorted reference => insertReference reference sorted) []

def moduleReferences (bp : Blueprint) (module : Module) : List Reference :=
  valueReferences bp module.settings.toObject module.id

/-- The references of a group's modules to modules of other groups, in order, each once. -/
def groupReferences (bp : Blueprint) (group : Group) : List Reference :=
  sortedReferences (group.modules.flatMap (moduleReferences bp))

/-- The references of all modules to modules of other groups, in order, each once. -/
def references (bp : Blueprint) : List Reference :=
  sortedReferences (bp.modules.flatMap (moduleReferences bp))

/-- The output that is declared because another group refers to it. -/
def generatedOutput (module name : String) : Output where
  name := name
  description := some ("Generated output from module '" ++ module ++ "'")
  sensitive := true

/-- The module with the outputs that some references name and that it does not declare. -/
def declareOutputs (references : List Reference) (module : Module) : Module :=
  references.foldl (fun current reference =>
    if reference.module? = some module.id && !current.hasOutput reference.name then
      { current with outputs := current.outputs ++ [generatedOutput module.id reference.name] }
    else current) module

/-- The blueprint with every output declared that another group refers to. -/
def populateOutputs (bp : Blueprint) : Blueprint :=
  { bp with groups := bp.groups.map fun group =>
      { group with modules := group.modules.map (declareOutputs (references bp)) } }

def outputNames (group : Group) : List String :=
  group.modules.flatMap fun module =>
    module.outputs.map fun output => Output.automaticName output.name module.id

/-- The name under which the output of a reference is handed on. -/
def handedName (reference : Reference) : String :=
  Output.automaticName reference.name (reference.module?.getD "")

/-- What a group needs from each group that it refers to: the names that are handed on there, in
order, as far as the group refers to them. -/
def inputsOf (bp : Blueprint) (group : Group) : SortedMap (List String) :=
  let references := groupReferences bp group
  let needed := references.map handedName
  let producers := references.filterMap fun reference => reference.module?.bind bp.groupOf?
  .ofList (producers.reverse.map fun producer =>
    (producer.name, SortedMap.sortedNames ((outputNames producer).filter needed.contains)))

/-- What the group of a name needs from each group that it refers to. -/
def inputsOfNamed (bp : Blueprint) (name : String) : Checked (SortedMap (List String)) := do
  return inputsOf bp (← bp.group name)

end Intergroup

end ClusterBlueprint
