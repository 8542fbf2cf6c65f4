import ClusterBlueprint.Fields

/-!
Maps from names, as fields with the proof that their names increase.

Two maps with the same entries are the same map, since a name has one place in the list; `ext_find?`
says so through look-ups.
-/

namespace ClusterBlueprint

universe u v

/-- Values under names, in the order of the names. -/
structure SortedMap (α : Type u) where
  toList : Fields α
  ordered : toList.Ordered

namespace SortedMap

variable {α : Type u} {β : Type v}

def empty : SortedMap α := ⟨[], List.Pairwise.nil⟩

instance : EmptyCollection (SortedMap α) := ⟨empty⟩

instance : Inhabited (SortedMap α) := ⟨∅⟩

def find? (map : SortedMap α) (name : String) : Option α := map.toList.find? name

def contains (map : SortedMap α) (name : String) : Bool := (map.find? name).isSome

/-- The map with `value` under `name`, whatever was there before. -/
def insert (map : SortedMap α) (name : String) (value : α) : SortedMap α :=
  ⟨map.toList.put name value, map.ordered.put name value⟩

def erase (map : SortedMap α) (name : String) : SortedMap α :=
  ⟨map.toList.drop name, map.ordered.drop name⟩

def keys (map : SortedMap α) : List String := map.toList.names

def values (map : SortedMap α) : List α := map.toList.map Prod.snd

def size (map : SortedMap α) : Nat := map.toList.length

def isEmpty (map : SortedMap α) : Bool := map.toList.isEmpty

/-- Entries given in any order; of two with one name the later wins. -/
def ofList (entries : List (String × α)) : SortedMap α :=
  ⟨Fields.ofList entries, Fields.ordered_ofList entries⟩

/-- The map with each value replaced by its image. -/
def map (f : α → β) (entries : SortedMap α) : SortedMap β :=
  ⟨entries.toList.map fun entry => (entry.1, f entry.2), by
    have h := entries.ordered
    unfold Fields.Ordered at h ⊢
    rw [List.pairwise_map]
    exact h⟩

/-- Names in order, each once. -/
def sortedNames (names : List String) : List String :=
  (ofList (names.map fun name => (name, ()))).keys

@[simp] theorem find?_insert_self (map : SortedMap α) (name : String) (value : α) :
    (map.insert name value).find? name = some value := Fields.find?_put_self name value map.toList

theorem find?_insert_of_ne (map : SortedMap α) {name other : String} (h : other ≠ name)
    (value : α) : (map.insert name value).find? other = map.find? other :=
  Fields.find?_put_of_ne h value map.toList

@[simp] theorem find?_empty (name : String) : (∅ : SortedMap α).find? name = none := rfl

end SortedMap

end ClusterBlueprint
