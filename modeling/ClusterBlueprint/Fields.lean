/-!
Named fields in the order of their names.

A list of fields is written one name at a time by `put`, which keeps the names strictly increasing
and replaces the field of a name that is already there.  Reading is `find?`, and the two meet in
`find?_put_self` and `find?_put_of_ne`.  Names are compared code point by code point.

The functions take plain lists, so that an inductive type can hold its fields as a list of pairs;
`ClusterBlueprint.SortedMap` packs such a list with the proof of its order.
-/

namespace ClusterBlueprint

universe u v

/-- Taking a name off some names leaves fewer. -/
theorem length_erase_lt {name : String} {names : List String} (h : name ∈ names) :
    (names.erase name).length < names.length := by
  rw [List.length_erase_of_mem h]
  exact Nat.sub_lt (List.length_pos_of_mem h) Nat.one_pos

/-- Fields under their names. -/
abbrev Fields (α : Type u) := List (String × α)

namespace Fields

variable {α : Type u} {β : Type v}

/-- The names strictly increase, so no name occurs twice. -/
def Ordered (fields : Fields α) : Prop := fields.Pairwise fun a b => a.1 < b.1

/-- The field `name` set to `value`, in place of the field of that name if there is one. -/
def put (name : String) (value : α) : Fields α → Fields α
  | [] => [(name, value)]
  | (other, old) :: rest =>
    if name < other then (name, value) :: (other, old) :: rest
    else if name = other then (name, value) :: rest
    else (other, old) :: put name value rest

def find? (name : String) : Fields α → Option α
  | [] => none
  | (other, value) :: rest => if name = other then some value else find? name rest

def drop (name : String) (fields : Fields α) : Fields α := fields.filter (·.1 ≠ name)

/-- Fields given in any order; of two with one name the later wins. -/
def ofList (entries : List (String × α)) : Fields α :=
  entries.foldl (fun fields entry => put entry.1 entry.2 fields) []

def names (fields : Fields α) : List String := fields.map Prod.fst

theorem mem_put {name : String} {value : α} {entry : String × α} {fields : Fields α}
    (h : entry ∈ put name value fields) : entry = (name, value) ∨ entry ∈ fields := by
  induction fields with
  | nil => simpa [put] using h
  | cons head rest ih =>
    obtain ⟨other, old⟩ := head
    simp only [put] at h
    split at h
    · simpa using h
    · split at h
      · rcases List.mem_cons.1 h with h | h
        · exact .inl h
        · exact .inr (List.mem_cons_of_mem _ h)
      · rcases List.mem_cons.1 h with h | h
        · exact .inr (h ▸ List.mem_cons_self)
        · exact (ih h).imp id (List.mem_cons_of_mem _)

theorem Ordered.put {fields : Fields α} (h : fields.Ordered) (name : String) (value : α) :
    (fields.put name value).Ordered := by
  induction fields with
  | nil => simp [Fields.put, Ordered]
  | cons head rest ih =>
    obtain ⟨other, old⟩ := head
    obtain ⟨hhead, hrest⟩ := List.pairwise_cons.1 h
    simp only [Fields.put]
    split
    · next hlt =>
      refine List.pairwise_cons.2 ⟨fun entry hentry => ?_, h⟩
      rcases List.mem_cons.1 hentry with rfl | hmem
      · exact hlt
      · exact String.lt_trans hlt (hhead entry hmem)
    · split
      · next heq => exact List.pairwise_cons.2 ⟨heq ▸ hhead, hrest⟩
      · next hlt hne =>
        refine List.pairwise_cons.2 ⟨fun entry hentry => ?_, ih hrest⟩
        rcases mem_put hentry with rfl | hmem
        · show other < name
          grind
        · exact hhead entry hmem

theorem ordered_ofList (entries : List (String × α)) : (ofList entries).Ordered := by
  suffices h : ∀ fields : Fields α, fields.Ordered →
      Ordered (entries.foldl (fun fields entry => put entry.1 entry.2 fields) fields) from
    h [] List.Pairwise.nil
  induction entries with
  | nil => exact fun _ h => h
  | cons entry rest ih => exact fun fields h => ih _ (h.put entry.1 entry.2)

theorem Ordered.drop {fields : Fields α} (h : fields.Ordered) (name : String) :
    (fields.drop name).Ordered := h.filter _

@[simp] theorem find?_put_self (name : String) (value : α) (fields : Fields α) :
    find? name (put name value fields) = some value := by
  induction fields with
  | nil => simp [put, find?]
  | cons head rest ih =>
    simp only [put]
    split
    · simp [find?]
    · split
      · simp [find?]
      · next hne => simp [find?, hne, ih]

theorem find?_put_of_ne {name other : String} (h : other ≠ name) (value : α) (fields : Fields α) :
    find? other (put name value fields) = find? other fields := by
  induction fields with
  | nil => simp [put, find?, h]
  | cons head rest ih =>
    simp only [put]
    split
    · simp [find?, h]
    · split
      · next heq => simp [find?, h, ← heq]
      · simp [find?, ih]

end Fields

end ClusterBlueprint
