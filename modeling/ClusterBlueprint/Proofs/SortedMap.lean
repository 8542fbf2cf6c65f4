import ClusterBlueprint.Dict

/-!
Look-ups in maps and dictionaries.
-/

namespace ClusterBlueprint

namespace Fields

variable {α β : Type} {name : String}

theorem find?_isSome {fields : Fields α} : (fields.find? name).isSome ↔ name ∈ names fields := by
  induction fields with
  | nil => simp [find?, names]
  | cons field fields ih =>
    obtain ⟨other, value⟩ := field
    have hnames : names ((other, value) :: fields) = other :: names fields := rfl
    rw [find?, hnames, List.mem_cons]
    by_cases h : name = other
    · simp [h]
    · rw [if_neg h, ih]
      exact (or_iff_right h).symm

theorem find?_map (f : α → β) (fields : Fields α) :
    find? name (fields.map fun field => (field.1, f field.2)) = (fields.find? name).map f := by
  induction fields with
  | nil => rfl
  | cons field fields ih =>
    obtain ⟨other, value⟩ := field
    rw [List.map_cons, find?, find?, ih]
    split <;> rfl

theorem find?_eq_none_of_lt {fields : Fields α} (h : ∀ field ∈ fields, name < field.1) :
    fields.find? name = none := by
  induction fields with
  | nil => rfl
  | cons field fields ih =>
    obtain ⟨hfirst, hrest⟩ := List.forall_mem_cons.mp h
    have hne : name ≠ field.1 := fun heq => String.lt_irrefl _ (heq ▸ hfirst)
    rw [find?, if_neg hne, ih hrest]

theorem Ordered.nodup_names {fields : Fields α} (h : fields.Ordered) : (names fields).Nodup := by
  unfold names List.Nodup
  rw [List.pairwise_map]
  exact h.imp String.ne_of_lt

theorem Ordered.head_eq {x y : String × α} {xs ys : Fields α} (hxs : Ordered (x :: xs))
    (hys : Ordered (y :: ys)) (h : ∀ name, find? name (x :: xs) = find? name (y :: ys)) :
    x.1 = y.1 := by
  obtain ⟨hxhead, -⟩ := List.pairwise_cons.mp hxs
  obtain ⟨hyhead, -⟩ := List.pairwise_cons.mp hys
  refine String.le_antisymm ?_ ?_
  · refine String.not_lt.mp fun hlt => ?_
    have hnone : find? y.1 (x :: xs) = none := find?_eq_none_of_lt
      (List.forall_mem_cons.mpr ⟨hlt, fun field hfield =>
        String.lt_trans hlt (hxhead field hfield)⟩)
    rw [h, find?, if_pos rfl] at hnone
    exact Option.some_ne_none _ hnone
  · refine String.not_lt.mp fun hlt => ?_
    have hnone : find? x.1 (y :: ys) = none := find?_eq_none_of_lt
      (List.forall_mem_cons.mpr ⟨hlt, fun field hfield =>
        String.lt_trans hlt (hyhead field hfield)⟩)
    rw [← h, find?, if_pos rfl] at hnone
    exact Option.some_ne_none _ hnone

/-- Fields in order are known by their look-ups. -/
theorem Ordered.ext {xs ys : Fields α} (hxs : xs.Ordered) (hys : ys.Ordered)
    (h : ∀ name, xs.find? name = ys.find? name) : xs = ys := by
  induction xs generalizing ys with
  | nil =>
    cases ys with
    | nil => rfl
    | cons y ys => exact absurd (h y.1) (by simp [find?])
  | cons x xs ih =>
    cases ys with
    | nil => exact absurd (h x.1) (by simp [find?])
    | cons y ys =>
      have hname := hxs.head_eq hys h
      obtain ⟨hxhead, hxtail⟩ := List.pairwise_cons.mp hxs
      obtain ⟨hyhead, hytail⟩ := List.pairwise_cons.mp hys
      obtain ⟨m, a⟩ := x
      obtain ⟨n, b⟩ := y
      obtain rfl : m = n := hname
      have hvalue : a = b := by simpa [find?] using h m
      have hrest : ∀ name, find? name xs = find? name ys := by
        intro name
        by_cases hname : name = m
        · rw [hname, find?_eq_none_of_lt hxhead, find?_eq_none_of_lt hyhead]
        · have heq := h name
          rwa [find?, find?, if_neg hname, if_neg hname] at heq
      rw [hvalue, ih hxtail hytail hrest]

/-- A name after all others is put at the end. -/
theorem put_of_after {before : Fields α} (h : ∀ field ∈ before, field.1 < name) (value : α) :
    before.put name value = before ++ [(name, value)] := by
  induction before with
  | nil => rfl
  | cons field before ih =>
    obtain ⟨hfirst, hbefore⟩ := List.forall_mem_cons.mp h
    rw [put, if_neg (String.lt_asymm hfirst), if_neg (String.ne_of_lt hfirst).symm,
      ih hbefore, List.cons_append]

theorem mem_of_find? {fields : Fields α} {value : α} (h : fields.find? name = some value) :
    (name, value) ∈ fields := by
  induction fields with
  | nil => exact absurd h (Option.some_ne_none _).symm
  | cons field fields ih =>
    obtain ⟨other, first⟩ := field
    rw [find?] at h
    split at h
    · next heq =>
      rw [heq, Option.some.inj h]
      exact List.mem_cons_self
    · exact List.mem_cons_of_mem _ (ih h)

theorem Ordered.find?_of_mem {fields : Fields α} {value : α} (h : fields.Ordered)
    (hmem : (name, value) ∈ fields) : fields.find? name = some value := by
  induction fields with
  | nil => exact absurd hmem List.not_mem_nil
  | cons field fields ih =>
    obtain ⟨hhead, htail⟩ := List.pairwise_cons.mp h
    rcases List.mem_cons.mp hmem with rfl | hmem
    · rw [find?, if_pos rfl]
    · rw [find?, if_neg (String.ne_of_lt (hhead _ hmem)).symm, ih htail hmem]

theorem mem_ofList {entry : String × α} {entries : List (String × α)}
    (h : entry ∈ ofList entries) : entry ∈ entries := by
  suffices hfold : ∀ fields : Fields α,
      entry ∈ entries.foldl (fun fields entry => put entry.1 entry.2 fields) fields →
        entry ∈ fields ∨ entry ∈ entries from (hfold [] h).resolve_left List.not_mem_nil
  clear h
  induction entries with
  | nil => exact fun _ => .inl
  | cons first entries ih =>
    intro fields h
    rcases ih _ h with hput | hrest
    · rcases mem_put hput with rfl | hfields
      · exact .inr List.mem_cons_self
      · exact .inl hfields
    · exact .inr (List.mem_cons_of_mem _ hrest)

theorem mem_names_put {other : String} {value : α} {fields : Fields α} :
    other ∈ names (put name value fields) ↔ other = name ∨ other ∈ names fields := by
  rw [← find?_isSome, ← find?_isSome]
  by_cases h : other = name
  · simp [h]
  · rw [find?_put_of_ne h]
    exact (or_iff_right h).symm

theorem mem_names_ofList {entries : List (String × α)} :
    name ∈ names (ofList entries) ↔ name ∈ entries.map Prod.fst := by
  suffices h : ∀ fields : Fields α,
      name ∈ names (entries.foldl (fun fields entry => put entry.1 entry.2 fields) fields)
        ↔ name ∈ entries.map Prod.fst ∨ name ∈ names fields from
    (h []).trans (or_iff_left List.not_mem_nil)
  induction entries with
  | nil => exact fun _ => (or_iff_right List.not_mem_nil).symm
  | cons first entries ih =>
    intro fields
    refine (ih _).trans ?_
    rw [mem_names_put, List.map_cons, List.mem_cons]
    exact or_left_comm.trans or_assoc.symm

end Fields

namespace SortedMap

variable {α β : Type} {map : SortedMap α} {name other : String}

theorem contains_iff_mem_keys : map.contains name ↔ name ∈ map.keys := Fields.find?_isSome

theorem contains_iff_exists : map.contains name ↔ ∃ value, map.find? name = some value :=
  Option.isSome_iff_exists

theorem find?_eq_none (h : ¬ map.contains name) : map.find? name = none :=
  Option.not_isSome_iff_eq_none.mp h

theorem contains_insert {value : α} :
    (map.insert name value).contains other ↔ other = name ∨ map.contains other := by
  unfold contains
  by_cases h : other = name
  · simp [h]
  · rw [find?_insert_of_ne map h]
    exact (or_iff_right h).symm

theorem find?_map (f : α → β) (map : SortedMap α) (name : String) :
    (map.map f).find? name = (map.find? name).map f := Fields.find?_map f map.toList

theorem ext_find? {a b : SortedMap α} (h : ∀ name, a.find? name = b.find? name) : a = b := by
  obtain ⟨xs, hxs⟩ := a
  obtain ⟨ys, hys⟩ := b
  obtain rfl : xs = ys := hxs.ext hys h
  rfl

theorem keys_map (f : α → β) (map : SortedMap α) : (map.map f).keys = map.keys := List.map_map

/-- Maps that have values under the same names list the same names. -/
theorem keys_ext {a : SortedMap α} {b : SortedMap β}
    (h : ∀ name, a.contains name ↔ b.contains name) : a.keys = b.keys := by
  have hmap : a.map (fun _ => ()) = b.map (fun _ => ()) := by
    refine ext_find? fun name => ?_
    rw [find?_map, find?_map]
    have hsome : (a.find? name).isSome = (b.find? name).isSome := Bool.eq_iff_iff.mpr (h name)
    cases hfirst : a.find? name <;> cases hsecond : b.find? name <;> simp_all
  rw [← keys_map (fun _ => ()) a, hmap, keys_map]

theorem mem_keys_ofList {entries : List (String × α)} :
    name ∈ (ofList entries).keys ↔ name ∈ entries.map Prod.fst := Fields.mem_names_ofList

theorem find?_ofList_eq_none {entries : List (String × α)} (h : name ∉ entries.map Prod.fst) :
    (ofList entries).find? name = none :=
  find?_eq_none fun hcontains => h (mem_keys_ofList.mp (contains_iff_mem_keys.mp hcontains))

/-- Entries that do not contradict each other. -/
theorem find?_ofList_of_mem {entries : List (String × α)} {value : α}
    (hmem : (name, value) ∈ entries) (hsame : ∀ other, (name, other) ∈ entries → other = value) :
    (ofList entries).find? name = some value := by
  have hkey : name ∈ (ofList entries).keys := mem_keys_ofList.mpr (List.mem_map_of_mem hmem)
  obtain ⟨other, hother⟩ := contains_iff_exists.mp (contains_iff_mem_keys.mpr hkey)
  rw [hother, hsame other (Fields.mem_ofList (Fields.mem_of_find? hother))]

theorem nodup_keys (map : SortedMap α) : map.keys.Nodup := map.ordered.nodup_names

/-- Names are sorted, each once. -/
theorem pairwise_sortedNames (names : List String) : (sortedNames names).Pairwise (· < ·) :=
  List.pairwise_map.mpr (ofList _).ordered

theorem mem_sortedNames {names : List String} : name ∈ sortedNames names ↔ name ∈ names := by
  have hnames : (names.map fun name => (name, ())).map Prod.fst = names := by
    rw [List.map_map]
    exact List.map_id names
  rw [sortedNames, mem_keys_ofList, hnames]

end SortedMap

namespace Dict

variable {dict : Dict} {name : String}

theorem has_iff_mem_keys : dict.has name ↔ name ∈ dict.keys := SortedMap.contains_iff_mem_keys

theorem find?_values (dict : Dict) (name : String) :
    dict.values.find? name = Option.map Entry.value (dict.find? name) :=
  SortedMap.find?_map Entry.value dict.entries name

theorem find?_values_of_has (h : dict.has name) :
    dict.values.find? name = some (dict.get name) := by
  obtain ⟨entry, hentry⟩ := SortedMap.contains_iff_exists.mp h
  have hfind : dict.find? name = some entry := hentry
  rw [find?_values, get, hfind]
  rfl

theorem get_of_not_has (h : ¬ dict.has name) : dict.get name = .null := by
  have hnone : dict.find? name = none := SortedMap.find?_eq_none h
  rw [get, hnone]

theorem has_of_mem_references {reference : Reference} (h : reference ∈ (dict.get name).references) :
    dict.has name := by
  refine Decidable.byContradiction fun hnot => ?_
  rw [get_of_not_has hnot] at h
  exact absurd h List.not_mem_nil

theorem find?_setEntry_self (dict : Dict) (name : String) (entry : Entry) :
    Dict.find? (dict.setEntry name entry) name = some entry :=
  SortedMap.find?_insert_self dict.entries name entry

theorem find?_setEntry_of_ne {other : String} (h : other ≠ name) (entry : Entry) :
    Dict.find? (dict.setEntry name entry) other = dict.find? other :=
  SortedMap.find?_insert_of_ne dict.entries h entry

theorem get_setEntry_self (dict : Dict) (name : String) (entry : Entry) :
    (dict.setEntry name entry).get name = entry.value := by
  rw [get, find?_setEntry_self]

theorem get_setEntry_of_ne {other : String} (h : other ≠ name) (entry : Entry) :
    (dict.setEntry name entry).get other = dict.get other := by
  rw [get, find?_setEntry_of_ne h]
  rfl

theorem has_setEntry {other : String} {entry : Entry} :
    (dict.setEntry name entry).has other ↔ other = name ∨ dict.has other :=
  SortedMap.contains_insert

theorem contains_values : dict.values.contains name ↔ dict.has name := by
  unfold SortedMap.contains has
  rw [find?_values, Option.isSome_map]
  rfl

theorem values_ofValues (values : SortedMap Value) : (ofValues values).values = values := by
  refine SortedMap.ext_find? fun name => ?_
  rw [find?_values, find?, ofValues, SortedMap.find?_map, Option.map_map]
  exact Option.map_id'

theorem keys_ofValues (values : SortedMap Value) : (ofValues values).keys = values.keys :=
  SortedMap.keys_map _ values

theorem get_ofValues {values : SortedMap Value} {value : Value}
    (h : values.find? name = some value) : (ofValues values).get name = value := by
  have hentry : Dict.find? (ofValues values) name = some ⟨value, []⟩ := by
    rw [ find?, ofValues, SortedMap.find?_map, h]
    rfl
  rw [get, hentry]

end Dict

end ClusterBlueprint
