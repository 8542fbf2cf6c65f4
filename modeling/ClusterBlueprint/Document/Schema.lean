import ClusterBlueprint.Dict
import ClusterBlueprint.Value.Document

/-!
Reading data into what a schema wants.

A schema is stated once for every notation: `Readable` says what data of a notation can be taken as.
Data without notation are taken strictly, but a record may also be given as the list of its fields.
-/

namespace ClusterBlueprint

/-- Why data do not fit a schema. -/
inductive Misfit where
  | missingField (name : String)
  | unknownField (name : String)
  | repeatedField (name : String)
  | wrongType
  | unknownVariant (text : String)
  /-- none of the accepted forms -/
  | noForm
  /-- data of the right shape that say something wrong -/
  | fault (fault : Fault)

def Misfit.message : Misfit → String
  | missingField name => "missing field `" ++ name ++ "`"
  | unknownField name => "unknown field `" ++ name ++ "`"
  | repeatedField name => "duplicate field `" ++ name ++ "`"
  | wrongType => "invalid type"
  | unknownVariant text => "unknown variant `" ++ text ++ "`"
  | noForm => "data did not match"
  | fault cause => cause.message

/-- What may fail to fit. -/
abbrev Fitted (α : Type) := Except Misfit α

/-- A check as part of reading. -/
def Fitted.ofChecked {α : Type} (result : Checked α) : Fitted α := result.mapError .fault

structure Record (δ : Type) where
  fields : List (String × δ)
  /-- whether the fields are given by their places instead of by name -/
  placed : Bool

/-- Data of a notation, and what they can be taken as. -/
class Readable (δ : Type) where
  text : δ → Fitted String
  bool : δ → Fitted Bool
  /-- the items of a sequence -/
  items : δ → Fitted (List δ)
  /-- the entries of a mapping from texts -/
  entries : δ → Fitted (List (String × δ))
  /-- the data themselves, unless they say that there is nothing -/
  present? : δ → Fitted (Option δ)
  /-- a record that has fields of some names, and may have others -/
  record : List String → δ → Fitted (Record δ)
  /-- the name of one of some known cases -/
  variant : δ → Fitted String
  value : δ → Fitted Value
  /-- the data without their notation -/
  node : δ → Fitted Node

namespace Readable

variable {δ : Type} [Readable δ]

def list {α : Type} (read : δ → Fitted α) (data : δ) : Fitted (List α) := do
  (← items data).mapM read

/-- Values under chosen names; of two with one name the later wins. -/
def map {α : Type} (read : δ → Fitted α) (data : δ) : Fitted (SortedMap α) := do
  let entries ← (← entries data).mapM fun (name, value) => do return (name, ← read value)
  return .ofList entries

/-- Something that may be left out by writing null. -/
def option {α : Type} (read : δ → Fitted α) (data : δ) : Fitted (Option α) := do
  (← present? data).mapM read

/-- Values under chosen names, where null stands for none. -/
def dict (data : δ) : Fitted Dict := do
  return .ofValues ((← option (map value) data).getD ∅)

/-- What is read from data without their notation. -/
def strict {α : Type} (read : Node → Fitted α) (data : δ) : Fitted α := do read (← node data)

end Readable

namespace Node

/-- The name among some that a key of a record stands for: a name itself, or its place. -/
def fieldName (names : List String) : Node → Fitted String
  | scalar (.text name) => .ok name
  | scalar (.integer n) =>
    if 0 ≤ n then .ok (names[n.toNat]?.getD "") else .error .wrongType
  | _ => .error .wrongType

/-- A record that has fields of some names: a mapping, or a list of the fields in this order. -/
def toRecord (names : List String) : Node → Fitted (Record Node)
  | sequence items =>
    if names.length < items.length then .error .wrongType else .ok ⟨names.zip items, true⟩
  | mapping entries => do
    let fields ← entries.mapM fun (key, value) => do return (← key.fieldName names, value)
    return ⟨fields, false⟩
  | _ => .error .wrongType

instance : Readable Node where
  text node := match node with
    | scalar (.text text) => .ok text
    | _ => .error .wrongType
  bool node := match node with
    | scalar (.bool value) => .ok value
    | _ => .error .wrongType
  items node := match node with
    | sequence items => .ok items
    | _ => .error .wrongType
  entries node := match node with
    | mapping entries => entries.mapM fun (key, value) =>
      match key.text? with
      | some name => .ok (name, value)
      | none => .error .wrongType
    | _ => .error .wrongType
  present? node := match node with
    | scalar .null => .ok none
    | node => .ok (some node)
  record := toRecord
  variant node := match node with
    | scalar (.text name) => .ok name
    | mapping [(scalar (.text name), scalar .null)] => .ok name
    | _ => .error .wrongType
  value node := .ofChecked (Value.ofNode node)
  node := .ok

end Node

namespace Record

variable {δ : Type} [Readable δ]

/-- A record in which fields of some names are given at most once.  Other fields are skipped. -/
def read (names : List String) (data : δ) : Fitted (Record δ) := do
  let record ← Readable.record names data
  let given := record.fields.map Prod.fst
  match names.find? fun name => 1 < given.count name with
  | some name => .error (.repeatedField name)
  | none => .ok record

/-- A record that has no fields but those of some names. -/
def readOnly (names : List String) (data : δ) : Fitted (Record δ) := do
  let record ← read names data
  match record.fields.find? fun field => !names.contains field.1 with
  | some (name, _) => .error (.unknownField name)
  | none => .ok record

/-- What it means that a field is missing: a list that is too short is no such record. -/
def missing (record : Record δ) (name : String) : Misfit :=
  if record.placed then .wrongType else .missingField name

/-- A field that has to be there. -/
def required {α : Type} (record : Record δ) (name : String) (as : δ → Fitted α) : Fitted α :=
  match record.fields.lookup name with
  | some data => as data
  | none => .error (record.missing name)

/-- A field that stands for a known value where it is left out. -/
def optional {α : Type} (record : Record δ) (name : String) (default : α) (as : δ → Fitted α) :
    Fitted α :=
  match record.fields.lookup name with
  | some data => as data
  | none => .ok default

/-- A field that is null where it is left out, which only a record with names can do. -/
def nullable {α : Type} (record : Record δ) (name : String) (as : δ → Fitted α) :
    Fitted (Option α) :=
  if record.placed then record.required name (Readable.option as)
  else record.optional name none (Readable.option as)

end Record

end ClusterBlueprint
