import ClusterBlueprint.Evaluation

/-!
Settings under names, and where they come from.

An entry that was not written by the author of a blueprint, but follows from modules that another
module uses, carries the ids of those modules, in order and each once.
-/

namespace ClusterBlueprint

/-- A value and the modules whose outputs it was made of. -/
structure Entry where
  value : Value
  fromUse : List String := []

namespace Entry

def ofUse (value : Value) (modules : List String) : Entry :=
  ⟨value, SortedMap.sortedNames modules⟩

/-- Equality of the values and of where they come from. -/
instance : BEq Entry := ⟨fun a b => a.value == b.value && a.fromUse == b.fromUse⟩

end Entry

/-- Entries under names. -/
structure Dict where
  entries : SortedMap Entry

namespace Dict

instance : EmptyCollection Dict := ⟨⟨∅⟩⟩

instance : Inhabited Dict := ⟨∅⟩

/-- Equality name by name and entry by entry. -/
instance : BEq Dict := ⟨fun a b => a.entries.toList == b.entries.toList⟩

def find? (dict : Dict) (name : String) : Option Entry := dict.entries.find? name

/-- Another name of `find?`, for programs that read dictionaries. -/
abbrev entry? (dict : Dict) (name : String) : Option Entry := dict.find? name

/-- The value under a name; null if there is none. -/
def get (dict : Dict) (name : String) : Value :=
  match dict.find? name with
  | some entry => entry.value
  | none => .null

def has (dict : Dict) (name : String) : Bool := dict.entries.contains name

def setEntry (dict : Dict) (name : String) (entry : Entry) : Dict :=
  ⟨dict.entries.insert name entry⟩

def set (dict : Dict) (name : String) (value : Value) : Dict := dict.setEntry name ⟨value, []⟩

def erase (dict : Dict) (name : String) : Dict := ⟨dict.entries.erase name⟩

/-- The names, in order. -/
def keys (dict : Dict) : List String := dict.entries.keys

def values (dict : Dict) : SortedMap Value := dict.entries.map Entry.value

def size (dict : Dict) : Nat := dict.entries.size

def isEmpty (dict : Dict) : Bool := dict.entries.isEmpty

def toObject (dict : Dict) : Value := .object dict.values.toList

/-- Written values under names. -/
def ofValues (values : SortedMap Value) : Dict := ⟨values.map fun value => ⟨value, []⟩⟩

/-- The dictionary with every value replaced by its image, in the order of the names; where the
values come from stays. -/
def mapValues {m : Type → Type} [Monad m] (f : String → Value → m Value) (dict : Dict) : m Dict :=
  dict.entries.toList.foldlM (fun (result : Dict) (name, entry) => do
    let value ← f name entry.value
    return result.setEntry name { entry with value := value }) ∅

def eval (bindings : SortedMap Value) (dict : Dict) : Evaluation Dict :=
  dict.mapValues fun _ value => value.eval bindings

end Dict

end ClusterBlueprint
