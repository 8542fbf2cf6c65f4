import ClusterBlueprint.Location
import ClusterBlueprint.ModuleKind
import ClusterBlueprint.Text.Quoted

/-!
What can be wrong with a blueprint.

A fault has a cause, and may be wrapped in places and hints, or stand for several faults at once.
`Fault.message` gives every wording; the causes carry only what the wording needs.
-/

namespace ClusterBlueprint

/-- The reason of a fault. -/
inductive Cause where
  /-- a reference that has none of the accepted shapes -/
  | referenceFormat (text reason : String)
  /-- an expression that cannot be read or evaluated -/
  | expression (message : String)
  | unsupportedFunction (name : String)
  | unknownModule (id : String)
  | unknownGroup (name : String)
  | unknownVariable (name : String)
  | noOutput (module output : String)
  | nonGlobalReference
  /-- the variable `origin` leads back to itself through `target` -/
  | cyclicDependency (origin target : String)
  | intergroupOrder (id : String)
  | packerReference (id : String)
  | duplicate (what name : String)
  | emptyGroupName
  | invalidGroupName (name : String)
  | emptyGroup (group : String)
  | mixedModules (group : String) (got wanted : ModuleKind)
  | packerGroupSize (group : String) (count : Nat)
  | emptyModuleId
  | emptyModuleSource
  | invalidModuleKind (text : String)
  | reservedModuleId (id : String)
  | movedModule (old new : String)
  | settingWithPeriod
  | settingInvalidChar
  | unknownSetting
  | invalidOutput (output : String)
  | missingSetting (id setting : String)
  /-- a value of the wrong type -/
  | type (message : String)
  | moduleInfoNotFound (source : String) (kind : ModuleKind)
  | invalidValidationLevel (text : String)
  | deploymentName (reason : String)
  | cliVariableFormat (item : String)
  /-- a document that is no YAML, or not the YAML that is wanted -/
  | malformedYaml
deriving DecidableEq

open Text in
def Cause.message : Cause → String
  | referenceFormat text reason =>
    "unexpected reference format " ++ quoted text ++ ": " ++ reason
  | expression message => message
  | unsupportedFunction name => "unsupported function " ++ quoted name
  | unknownModule id => "invalid module id: \"" ++ id ++ "\""
  | unknownGroup name => "invalid group name: \"" ++ name ++ "\""
  | unknownVariable name =>
    "could not find source of variable: " ++ quoted name ++ " is not a global variable"
  | noOutput module output =>
    "output not found for a variable: module " ++ module ++ " did not have output " ++ output
  | nonGlobalReference => "non-global variable referenced in expression"
  | cyclicDependency origin target =>
    "cyclic dependency detected: " ++ quoted origin ++ " -> " ++ quoted target
  | intergroupOrder id =>
    "references to outputs from other groups must be to earlier groups: " ++ id
      ++ " is in a later group"
  | packerReference id => "Packer modules cannot be used by other modules: " ++ id
  | duplicate what name => what ++ " must be unique: " ++ name ++ " used more than once"
  | emptyGroupName => "group name must be set for each deployment group"
  | invalidGroupName name => "invalid character(s) found in group name \"" ++ name ++ "\""
  | emptyGroup group => "deployment group " ++ group ++ " must contain at least one module"
  | mixedModules group got wanted =>
    "mixing modules of differing kinds in a deployment group is not supported: deployment group "
      ++ group ++ ", got: " ++ got.display ++ ", wanted: " ++ wanted.display
  | packerGroupSize group count =>
    "Packer groups must contain exactly one module: deployment group " ++ group ++ " has "
      ++ toString count
  | emptyModuleId => "a module id cannot be empty"
  | emptyModuleSource => "a module source cannot be empty"
  | invalidModuleKind text =>
    "a module kind is invalid: " ++ quoted text
      ++ ", kind must be \"packer\" or \"terraform\" or removed from YAML"
  | reservedModuleId id => "module id \"" ++ id ++ "\" is reserved for global variables"
  | movedModule old new =>
    "a module has moved. " ++ old ++ " has been replaced with " ++ new
      ++ ". Please update the source in your blueprint and try again"
  | settingWithPeriod =>
    "a setting name contains a period, which is not supported; variable subfields cannot be set "
      ++ "independently in a blueprint."
  | settingInvalidChar =>
    "a setting name must begin with a non-numeric character and all characters must be either "
      ++ "letters, numbers, dashes ('-') or underscores ('_')."
  | unknownSetting => "a setting was added that is not found in the module"
  | invalidOutput output => "requested output was not found in the module: " ++ output
  | missingSetting id setting =>
    "a required setting is missing from a module: Module.ID: " ++ id ++ " Setting: " ++ setting
  | type message => "type error: " ++ message
  | moduleInfoNotFound source kind =>
    "module info not found for source " ++ quoted source ++ " of kind " ++ kind.display
  | invalidValidationLevel text =>
    "invalid validation level " ++ quoted text ++ " (\"ERROR\", \"WARNING\", \"IGNORE\")"
  | deploymentName reason =>
    "deployment_name must be a string and cannot be empty, cause: " ++ reason
  | cliVariableFormat item =>
    "invalid format: '" ++ item ++ "' should follow the 'name=value' format"
  | malformedYaml => "malformed YAML document"

/-- A fault: a cause, where it was found, and what may help. -/
inductive Fault where
  | cause (cause : Cause)
  | hinted (fault : Fault) (hint : String)
  | located (place : Location) (fault : Fault)
  | several (faults : List Fault)

instance : Coe Cause Fault := ⟨Fault.cause⟩

namespace Fault

mutual

/-- The wording of a fault: places go before it and hints after it, and several faults are counted
and listed. -/
def message : Fault → String
  | cause c => c.message
  | hinted fault hint => fault.message ++ " - " ++ hint
  | located place fault => place.text ++ ": " ++ fault.message
  | several faults => toString faults.length ++ " errors encountered:" ++ messageLines faults

def messageLines : List Fault → String
  | [] => ""
  | fault :: rest => "\n" ++ fault.message ++ messageLines rest

end

/-- The fault within its places and hints. -/
def rootCause : Fault → Fault
  | hinted fault _ => fault.rootCause
  | located _ fault => fault.rootCause
  | fault => fault

/-- The outermost place, if that is the outermost wrapper. -/
def place? : Fault → Option Location
  | located place _ => some place
  | _ => none

/-- The outermost hint within the places. -/
def hint? : Fault → Option String
  | hinted _ hint => some hint
  | located _ fault => fault.hint?
  | _ => none

/-- The single faults that a fault stands for. -/
def parts : Fault → List Fault
  | several faults => faults
  | fault => [fault]

end Fault

abbrev Checked (α : Type) := Except Fault α

def Checked.located {α : Type} (place : Location) (result : Checked α) : Checked α :=
  result.mapError (Fault.located place)

def ModuleKind.parse (text : String) : Checked ModuleKind :=
  match ModuleKind.ofText? text with
  | some kind => .ok kind
  | none => .error (Cause.invalidModuleKind text)

end ClusterBlueprint
