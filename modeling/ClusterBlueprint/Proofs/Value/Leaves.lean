import ClusterBlueprint.Evaluation
import Mathlib.Data.List.Sort

/-!
The leaves of nested lists.

A path leads through nested lists, one position in each.  The leaves of a value are what stands at
the end of the paths that leave all lists; from left to right is the lexicographic order of paths.
-/

namespace ClusterBlueprint.Value

def isList : Value → Bool
  | list _ => true
  | _ => false

/-- What stands at the end of a path into nested lists. -/
def at? : Value → List Nat → Option Value
  | value, [] => some value
  | list items, position :: path => do (← items[position]?).at? path
  | _, _ :: _ => none
termination_by structural _ path => path

/-- Whether some values are what stands at the paths that leave all lists of a value, from left to
right and each path once. -/
def AreLeaves (value : Value) (leaves : List Value) : Prop :=
  ∃ paths : List (List Nat), paths.Pairwise (· < ·)
    ∧ (∀ path, path ∈ paths ↔ ∃ leaf, value.at? path = some leaf ∧ leaf.isList = false)
    ∧ paths.map value.at? = leaves.map some

/-! ## Paths -/

mutual

/-- The paths that leave all lists, from left to right. -/
def leafPaths : Value → List (List Nat)
  | list items => itemPaths 0 items
  | _ => [[]]
termination_by structural v => v

def itemPaths (position : Nat) : List Value → List (List Nat)
  | [] => []
  | item :: rest => item.leafPaths.map (position :: ·) ++ itemPaths (position + 1) rest
termination_by structural v => v

end

theorem mem_itemPaths {position : Nat} {path : List Nat} {items : List Value} :
    path ∈ itemPaths position items ↔ ∃ (i : Nat) (rest : List Nat) (item : Value),
      path = (position + i) :: rest ∧ items[i]? = some item ∧ rest ∈ item.leafPaths := by
  induction items generalizing position with
  | nil => simp [itemPaths]
  | cons first items ih =>
    rw [itemPaths, List.mem_append, List.mem_map, ih]
    constructor
    · rintro (⟨rest, hrest, rfl⟩ | ⟨i, rest, item, rfl, hitem, hrest⟩)
      · exact ⟨0, rest, first, rfl, rfl, hrest⟩
      · exact ⟨i + 1, rest, item, by rw [Nat.add_right_comm, Nat.add_assoc], hitem, hrest⟩
    · rintro ⟨_ | i, rest, item, rfl, hitem, hrest⟩
      · obtain rfl : first = item := Option.some.inj hitem
        exact .inl ⟨rest, hrest, rfl⟩
      · exact .inr ⟨i, rest, item, by rw [Nat.add_right_comm, Nat.add_assoc], hitem, hrest⟩

theorem mem_leafPaths {value : Value} {path : List Nat} :
    path ∈ value.leafPaths ↔ ∃ leaf, value.at? path = some leaf ∧ leaf.isList = false := by
  induction path generalizing value with
  | nil =>
    cases value with
    | list items => simp [leafPaths, at?, isList, mem_itemPaths]
    | _ => simp [leafPaths, at?, isList]
  | cons position path ih =>
    cases value with
    | list items =>
      rw [leafPaths, mem_itemPaths, at?]
      constructor
      · rintro ⟨i, rest, item, heq, hitem, hrest⟩
        obtain ⟨rfl, rfl⟩ := List.cons.inj heq
        rw [Nat.zero_add, hitem]
        exact ih.mp hrest
      · rintro ⟨leaf, hleaf, hnot⟩
        obtain ⟨item, hitem, hpath⟩ := Option.bind_eq_some_iff.mp hleaf
        exact ⟨position, path, item, by rw [Nat.zero_add], hitem, ih.mpr ⟨leaf, hpath, hnot⟩⟩
    | _ => simp [leafPaths, at?]

theorem cons_lt_cons_self {position : Nat} {a b : List Nat} (h : a < b) :
    position :: a < position :: b := List.cons_lt_cons_iff.mpr (.inr ⟨rfl, h⟩)

mutual

theorem pairwise_leafPaths : ∀ value : Value, value.leafPaths.Pairwise (· < ·)
  | .list items => pairwise_itemPaths 0 items
  | .null | .bool _ | .number _ | .string _ | .object _ | .expression _ =>
    List.pairwise_singleton _ _
termination_by structural v => v

theorem pairwise_itemPaths (position : Nat) : ∀ items : List Value,
    (itemPaths position items).Pairwise (· < ·)
  | [] => .nil
  | item :: items => by
    rw [itemPaths, List.pairwise_append]
    refine ⟨List.pairwise_map.mpr ((pairwise_leafPaths item).imp cons_lt_cons_self),
      pairwise_itemPaths (position + 1) items, fun first hfirst later hlater => ?_⟩
    obtain ⟨_, -, rfl⟩ := List.mem_map.mp hfirst
    obtain ⟨i, _, _, rfl, -, -⟩ := mem_itemPaths.mp hlater
    exact List.cons_lt_cons_iff.mpr (.inl (by omega))
termination_by structural v => v

end

mutual

theorem map_at?_leafPaths : ∀ value : Value, value.leafPaths.map value.at? = value.leaves.map some
  | .list items => map_at?_itemPaths items []
  | .null | .bool _ | .number _ | .string _ | .object _ | .expression _ => rfl
termination_by structural v => v

-- The items before the first one put it at its position.
theorem map_at?_itemPaths : ∀ items before : List Value,
    (itemPaths before.length items).map (list (before ++ items)).at? = (listLeaves items).map some
  | [], _ => rfl
  | item :: items, before => by
    have hitem : (fun path => (list (before ++ item :: items)).at? (before.length :: path))
        = item.at? := by
      funext path
      rw [at?, List.getElem?_append_right (Nat.le_refl _), Nat.sub_self]
      rfl
    have hitems := map_at?_itemPaths items (before ++ [item])
    rw [List.length_append, List.length_singleton, List.append_assoc, List.singleton_append]
      at hitems
    rw [itemPaths, List.map_append, List.map_map, hitems, listLeaves, List.map_append,
      ← map_at?_leafPaths item]
    congr 1
    exact congrArg (List.map · item.leafPaths) hitem
termination_by structural v => v

end

/-! ## Leaves -/

/-- A value has one list of leaves. -/
theorem areLeaves_iff {value : Value} {leaves : List Value} :
    value.AreLeaves leaves ↔ leaves = value.leaves := by
  constructor
  · rintro ⟨paths, hordered, hpaths, hmap⟩
    obtain rfl : paths = value.leafPaths := hordered.eq_of_mem_iff (pairwise_leafPaths value)
      fun path => (hpaths path).trans mem_leafPaths.symm
    rw [map_at?_leafPaths] at hmap
    exact (List.map_injective_iff.mpr (Option.some_injective Value) hmap).symm
  · rintro rfl
    exact ⟨value.leafPaths, pairwise_leafPaths value, fun _ => mem_leafPaths,
      map_at?_leafPaths value⟩

theorem AreLeaves.not_isList {value : Value} {leaves : List Value} (h : value.AreLeaves leaves) :
    ∀ leaf ∈ leaves, leaf.isList = false := by
  obtain ⟨paths, -, hpaths, hmap⟩ := h
  intro leaf hleaf
  have hmem : some leaf ∈ paths.map value.at? := hmap ▸ List.mem_map_of_mem hleaf
  obtain ⟨path, hpath, hat⟩ := List.mem_map.mp hmem
  obtain ⟨found, hfound, hnot⟩ := (hpaths path).mp hpath
  obtain rfl : found = leaf := Option.some.inj (hfound.symm.trans hat)
  exact hnot

/-- Items that are no lists are the leaves of their list. -/
theorem listLeaves_eq_self {items : List Value} (h : ∀ item ∈ items, item.isList = false) :
    listLeaves items = items := by
  induction items with
  | nil => rfl
  | cons item items ih =>
    obtain ⟨hitem, hitems⟩ := List.forall_mem_cons.mp h
    have hleaf : item.leaves = [item] := by
      cases item with
      | list => exact absurd hitem nofun
      | _ => rfl
    rw [listLeaves, hleaf, ih hitems]
    rfl

end ClusterBlueprint.Value
