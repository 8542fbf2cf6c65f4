import ClusterBlueprint.Document.Schema
import ClusterBlueprint.Yaml.Reader

/-!
Reading YAML into what a schema wants.

A scalar is a text wherever a text is wanted, and one without characters is an empty sequence or
mapping.  Whatever is wrong with a text, it is malformed.
-/

namespace ClusterBlueprint.Yaml

def fitted {α : Type} (found : Option α) : Fitted α :=
  match found with
  | some x => .ok x
  | none => .error .wrongType

def Datum.sequence? : Datum → Option (List Datum)
  | sequence _ items => some items
  | data => if data.isBlank then some [] else none

def Datum.fields? : Datum → Option (List (String × Datum))
  | mapping _ entries => entries.mapM fun (key, value) => key.text?.map (·, value)
  | data => if data.isBlank then some [] else none

def Datum.value (data : Datum) : Checked Value :=
  match data.node? with
  | some node => if node.isSound then Value.ofNode node else .error Cause.malformedYaml
  | none => .error Cause.malformedYaml

/-- The data without their notation, where no tag of the document's own may stand. -/
def Datum.plainNode? (data : Datum) : Option Node := data.node?.filter (!·.hasTag)

instance : Readable Datum where
  text data := fitted data.text?
  bool data := fitted data.bool?
  items data := fitted data.sequence?
  entries data := fitted data.fields?
  present? data := fitted data.present?
  record _ data := return ⟨← fitted data.fields?, false⟩
  variant data := fitted data.variant?
  value data := .ofChecked data.value
  node data := fitted data.plainNode?

/-- The value that a text in YAML stands for. -/
def readValue (source : String) : Checked Value :=
  match read source with
  | some data => data.value
  | none => .error Cause.malformedYaml

/-- What a text in YAML says under a schema. -/
def readAs {α : Type} (schema : Datum → Fitted α) (source : String) : Checked α :=
  match read source with
  | some data => (schema data).mapError fun _ => Cause.malformedYaml
  | none => .error Cause.malformedYaml

end ClusterBlueprint.Yaml
