import ClusterBlueprint.Blueprint.Basic
import ClusterBlueprint.Catalog
import ClusterBlueprint.Document.Schema

/-!
Blueprints and catalogs as documents.

A blueprint and its parts have no fields but the known ones.  Inputs and outputs are read strictly,
without taking other scalars for texts, and what a catalog says beyond the known fields is skipped.
-/

namespace ClusterBlueprint

variable {δ : Type} [Readable δ]

def ModuleKind.read (data : δ) : Fitted ModuleKind := do
  .ofChecked (ModuleKind.parse (← Readable.text data))

def ValidationLevel.read (data : δ) : Fitted ValidationLevel := do
  let text ← Readable.variant data
  match ValidationLevel.ofText? text with
  | some level => return level
  | none => .error (.unknownVariant text)

/-- An entry, unless it has no value. -/
def Node.present (entry : String × Option Node) : Option (String × Node) :=
  entry.2.map fun node => (entry.1, node)

/-- A mapping from texts, without the entries that have no value. -/
def Node.ofPresent (entries : List (String × Option Node)) : Node :=
  .fields (entries.filterMap Node.present)

/-- A sequence, unless it is empty. -/
def Node.nonempty {α : Type} (write : α → Node) (items : List α) : Option Node :=
  if items.isEmpty then none else some (.sequence (items.map write))

def Dict.toNode (dict : Dict) : Node := dict.toObject.toNode

def Dict.toNode? (dict : Dict) : Option Node := if dict.isEmpty then none else some dict.toNode

namespace Input

def read (node : Node) : Fitted Input := do
  let record ← Record.read ["name", "type", "description", "required"] node
  return {
    name := ← record.required "name" Readable.text
    type := ← record.optional "type" "" Readable.text
    description := ← record.optional "description" none (Readable.option Readable.text)
    required := ← record.optional "required" false Readable.bool }

def toNode (input : Input) : Node := .ofPresent [
  ("name", some (.text input.name)),
  ("type", some (.text input.type)),
  ("description", input.description.map Node.text),
  ("required", some (.bool input.required))]

end Input

namespace Output

def readRecord (node : Node) : Fitted Output := do
  let record ← Record.read ["name", "description", "sensitive"] node
  return {
    name := ← record.required "name" Readable.text
    description := ← record.optional "description" none (Readable.option Readable.text)
    sensitive := ← record.optional "sensitive" false Readable.bool }

/-- The output that some data describe: a name alone, or a record. -/
def read (node : Node) : Fitted Output :=
  match node.text? with
  | some name => .ok ⟨name, none, false⟩
  | none => (readRecord node).mapError fun _ => .noForm

def toNode (output : Output) : Node := .ofPresent [
  ("name", some (.text output.name)),
  ("description", output.description.map Node.text),
  ("sensitive", some (.bool output.sensitive))]

end Output

namespace Interface

def read (node : Node) : Fitted Interface := do
  let record ← Record.read ["inputs", "outputs"] node
  return {
    inputs := ← record.optional "inputs" [] (Readable.list Input.read)
    outputs := ← record.optional "outputs" [] (Readable.list Output.read) }

end Interface

namespace CatalogEntry

/-- The entry that some data describe.  All of it but the kind is taken strictly, unknown fields
too. -/
def read (data : δ) : Fitted CatalogEntry := do
  let entries ← Readable.entries data
  let kinds := entries.filter (·.1 = "kind")
  let others ← (entries.filter (·.1 ≠ "kind")).mapM fun (name, data) => do
    return (Node.text name, ← Readable.node data)
  let kind ← match kinds with
    | [] => pure .unknown
    | [(_, kind)] => ModuleKind.read kind
    | _ => .error (.repeatedField "kind")
  return { kind, interface := ← Interface.read (.mapping others) }

def toNode (entry : CatalogEntry) : Node := .fields [
  ("kind", .text entry.kind.text),
  ("inputs", .sequence (entry.interface.inputs.map Input.toNode)),
  ("outputs", .sequence (entry.interface.outputs.map Output.toNode))]

end CatalogEntry

namespace Catalog

def read (data : δ) : Fitted Catalog := do return ⟨← Readable.map CatalogEntry.read data⟩

def toNode (catalog : Catalog) : Node :=
  .fields (catalog.modules.map CatalogEntry.toNode).toList

end Catalog

namespace Backend

def read (data : δ) : Fitted Backend := do
  let record ← Record.readOnly ["type", "configuration"] data
  return {
    type := ← record.optional "type" "" Readable.text
    configuration := ← record.optional "configuration" ∅ Readable.dict }

def toNode (backend : Backend) : Node := .ofPresent [
  ("type", some (.text backend.type)),
  ("configuration", backend.configuration.toNode?)]

end Backend

namespace Validator

def read (data : δ) : Fitted Validator := do
  let record ← Record.readOnly ["validator", "skip", "inputs"] data
  return {
    name := ← record.required "validator" Readable.text
    skip := ← record.optional "skip" false Readable.bool
    inputs := ← record.optional "inputs" ∅ Readable.dict }

def toNode (validator : Validator) : Node := .ofPresent [
  ("validator", some (.text validator.name)),
  ("skip", if validator.skip then some (.bool true) else none),
  ("inputs", validator.inputs.toNode?)]

end Validator

namespace Module

def read (data : δ) : Fitted Module := do
  let record ← Record.readOnly ["source", "kind", "id", "use", "outputs", "settings"] data
  return {
    source := ← record.required "source" Readable.text
    kind := ← record.optional "kind" .unknown ModuleKind.read
    id := ← record.required "id" Readable.text
    uses := ← record.optional "use" [] (Readable.list Readable.text)
    outputs := ← record.optional "outputs" [] (Readable.list (Readable.strict Output.read))
    settings := ← record.optional "settings" ∅ Readable.dict }

def toNode (module : Module) : Node := .ofPresent [
  ("source", some (.text module.source)),
  ("kind", some (.text module.kind.text)),
  ("id", some (.text module.id)),
  ("use", Node.nonempty Node.text module.uses),
  ("outputs", Node.nonempty Output.toNode module.outputs),
  ("settings", module.settings.toNode?)]

end Module

namespace Group

def read (data : δ) : Fitted Group := do
  let record ← Record.readOnly ["group", "terraform_backend", "modules"] data
  return {
    name := ← record.required "group" Readable.text
    backend := ← record.optional "terraform_backend" none (Readable.option Backend.read)
    modules := ← record.optional "modules" [] (Readable.list Module.read) }

def toNode (group : Group) : Node := .ofPresent [
  ("group", some (.text group.name)),
  ("terraform_backend", group.backend.map Backend.toNode),
  ("modules", some (.sequence (group.modules.map Module.toNode)))]

end Group

def StagedFiles.toNode (staged : StagedFiles) : Node :=
  .fields (staged.toList.map fun (source, destination) => (source, .text destination))

namespace Blueprint

/-- The fields that a blueprint is read from. -/
def knownFields : List String := ["blueprint_name", "validators", "validation_level", "vars",
  "deployment_groups", "terraform_backend_defaults"]

def read (data : δ) : Fitted Blueprint := do
  let record ← Record.readOnly knownFields data
  return {
    name := ← record.required "blueprint_name" Readable.text
    validators := ← record.optional "validators" [] (Readable.list Validator.read)
    level := ← record.optional "validation_level" .error ValidationLevel.read
    vars := ← record.optional "vars" ∅ Readable.dict
    groups := ← record.optional "deployment_groups" [] (Readable.list Group.read)
    backendDefaults := ← record.optional "terraform_backend_defaults" {} Backend.read }

/-- The data that describe a blueprint.  The table of staged files is written and never read. -/
def toNode (bp : Blueprint) : Node := .ofPresent [
  ("blueprint_name", some (.text bp.name)),
  ("validators", Node.nonempty Validator.toNode bp.validators),
  ("validation_level", some (.text bp.level.text)),
  ("vars", some bp.vars.toNode),
  ("deployment_groups", some (.sequence (bp.groups.map Group.toNode))),
  ("terraform_backend_defaults",
    if bp.backendDefaults.isEmpty then none else some bp.backendDefaults.toNode),
  ("staged_files", if bp.staged.isEmpty then none else some bp.staged.toNode)]

end Blueprint

end ClusterBlueprint
