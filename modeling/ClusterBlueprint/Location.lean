/-!
Places in a blueprint document.

A location is the list of steps from the root of the document down to the place.  It is written as
in `deployment_groups[1].modules[0].settings.zone`: a dot before every name but a leading one, and
brackets around a position.  `Location.Shape` says which steps lead where.
-/

namespace ClusterBlueprint

namespace Location

inductive Field where
  | blueprintName | validationLevel | vars | validators | deploymentGroups | backendDefaults
  /-- the place of values that the library itself supplies -/
  | internal
  | group | backend | modules
  | source | kind | id | uses | outputs | settings
  | name | description | sensitive
  | type | configuration
  | validator | skip | inputs
deriving DecidableEq

def Field.text : Field → String
  | blueprintName => "blueprint_name"
  | validationLevel => "validation_level"
  | vars => "vars"
  | validators => "validators"
  | deploymentGroups => "deployment_groups"
  | backendDefaults => "terraform_backend_defaults"
  | internal => "__internal_path__"
  | group => "group"
  | backend => "terraform_backend"
  | modules => "modules"
  | source => "source"
  | kind => "kind"
  | id => "id"
  | uses => "use"
  | outputs => "outputs"
  | settings => "settings"
  | name => "name"
  | description => "description"
  | sensitive => "sensitive"
  | type => "type"
  | configuration => "configuration"
  | validator => "validator"
  | skip => "skip"
  | inputs => "inputs"

inductive Step where
  /-- a field of the schema -/
  | field (field : Field)
  /-- a name that the author of the document chose -/
  | key (name : String)
  /-- a position in a list, counted from zero -/
  | index (position : Nat)
deriving DecidableEq

/-- A step as the first of a location. -/
def Step.head : Step → String
  | field f => f.text
  | key name => name
  | index position => "[" ++ toString position ++ "]"

/-- A step after others. -/
def Step.tail : Step → String
  | field f => "." ++ f.text
  | key name => "." ++ name
  | index position => "[" ++ toString position ++ "]"

end Location

/-- A place in a document, by the steps from the root. -/
structure Location where
  steps : List Location.Step
deriving DecidableEq

namespace Location

def root : Location := ⟨[]⟩

def child (place : Location) (step : Step) : Location := ⟨place.steps ++ [step]⟩

def field (place : Location) (f : Field) : Location := place.child (.field f)

def key (place : Location) (name : String) : Location := place.child (.key name)

def index (place : Location) (position : Nat) : Location := place.child (.index position)

/-- The enclosing place; the root has none. -/
def parent? (place : Location) : Option Location :=
  if place.steps.isEmpty then none else some ⟨place.steps.dropLast⟩

/-- The enclosing places of a location with `n` steps or fewer, nearest first. -/
def ancestorsWithin : Nat → Location → List Location
  | 0, _ => []
  | n + 1, place =>
    match place.parent? with
    | none => []
    | some above => above :: ancestorsWithin n above

/-- The enclosing places, nearest first. -/
def ancestors (place : Location) : List Location := ancestorsWithin place.steps.length place

def text (place : Location) : String :=
  match place.steps with
  | [] => ""
  | first :: rest => rest.foldl (fun text step => text ++ step.tail) first.head

def vars : Location := root.field .vars

def group (position : Nat) : Location := (root.field .deploymentGroups).index position

def module (groupPosition position : Nat) : Location :=
  ((group groupPosition).field .modules).index position

def setting (place : Location) (name : String) : Location := (place.field .settings).key name

/-- What stands at a place. -/
inductive Shape where
  | document | group | module | output | backend | validator
  /-- values under chosen names -/
  | entries
  /-- a list of texts -/
  | texts
  | groups | modules | outputs | validators
  /-- a value, which may hold names and positions of its own -/
  | value
deriving DecidableEq

/-- What stands one step below, if the step exists there. -/
def Shape.child? : Shape → Step → Option Shape
  | document, .field .blueprintName => some value
  | document, .field .validationLevel => some value
  | document, .field .vars => some entries
  | document, .field .validators => some validators
  | document, .field .deploymentGroups => some groups
  | document, .field .backendDefaults => some backend
  | document, .field .internal => some entries
  | group, .field .group => some value
  | group, .field .backend => some backend
  | group, .field .modules => some modules
  | module, .field .source => some value
  | module, .field .kind => some value
  | module, .field .id => some value
  | module, .field .uses => some texts
  | module, .field .outputs => some outputs
  | module, .field .settings => some entries
  | output, .field .name => some value
  | output, .field .description => some value
  | output, .field .sensitive => some value
  | backend, .field .type => some value
  | backend, .field .configuration => some entries
  | validator, .field .validator => some value
  | validator, .field .skip => some value
  | validator, .field .inputs => some entries
  | entries, .key _ => some value
  | texts, .index _ => some value
  | groups, .index _ => some group
  | modules, .index _ => some module
  | outputs, .index _ => some output
  | validators, .index _ => some validator
  | value, .key _ => some value
  | value, .index _ => some value
  | _, _ => none

end Location

end ClusterBlueprint
