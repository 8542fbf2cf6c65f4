import ClusterBlueprint.Proofs.Evaluation.Expressed

/-!
The fields of objects stay in order.

Evaluation builds objects one field at a time, so what it makes of values in order is in order.
-/

namespace ClusterBlueprint

namespace Value

theorem areOrdered_listNodes {items : List Value} :
    AreOrdered (listNodes items) ↔ ∀ item ∈ items, item.IsOrdered := by
  induction items with
  | nil => exact ⟨fun _ => List.forall_mem_nil _, fun _ _ h => absurd h List.not_mem_nil⟩
  | cons item items ih => rw [listNodes, areOrdered_append, ih, List.forall_mem_cons, IsOrdered]

theorem areOrdered_fieldsNodes {fields : List (String × Value)} :
    AreOrdered (fieldsNodes fields) ↔ ∀ field ∈ fields, field.2.IsOrdered := by
  induction fields with
  | nil => exact ⟨fun _ => List.forall_mem_nil _, fun _ _ h => absurd h List.not_mem_nil⟩
  | cons field fields ih =>
    obtain ⟨name, value⟩ := field
    rw [fieldsNodes, areOrdered_append, ih, List.forall_mem_cons, IsOrdered]

theorem isOrdered_list {items : List Value} :
    (list items).IsOrdered ↔ ∀ item ∈ items, item.IsOrdered := by
  rw [← areOrdered_listNodes]
  constructor
  · exact AreOrdered.tail
  · intro h fields hmem
    exact h fields ((List.mem_cons.mp hmem).resolve_left nofun)

theorem isOrdered_object {fields : List (String × Value)} :
    (object fields).IsOrdered ↔ Fields.Ordered fields ∧ ∀ field ∈ fields, field.2.IsOrdered := by
  rw [← areOrdered_fieldsNodes]
  constructor
  · exact fun h => ⟨h fields List.mem_cons_self, AreOrdered.tail h⟩
  · rintro ⟨hfields, hnodes⟩ others hmem
    rcases List.mem_cons.mp hmem with heq | hmem
    · exact Value.object.inj heq ▸ hfields
    · exact hnodes others hmem

/-- A value that is no object, list or expression. -/
theorem isOrdered_leaf {value : Value} (h : value.nodes = [value])
    (hobject : ∀ fields, value ≠ object fields) : value.IsOrdered := by
  intro fields hmem
  rw [h] at hmem
  exact absurd (List.mem_singleton.mp hmem).symm (hobject fields)

theorem isOrdered_put {name : String} {value : Value} {fields : Fields Value}
    (hvalue : value.IsOrdered) (h : (object fields).IsOrdered) :
    (object (fields.put name value)).IsOrdered := by
  obtain ⟨hfields, hvalues⟩ := isOrdered_object.mp h
  refine isOrdered_object.mpr ⟨hfields.put name value, fun field hfield => ?_⟩
  rcases Fields.mem_put hfield with rfl | hmem
  · exact hvalue
  · exact hvalues field hmem

/-- The fields of every object among some variables are in order. -/
def BindsOrdered (bindings : SortedMap Value) : Prop :=
  ∀ name value, bindings.find? name = some value → value.IsOrdered

theorem isStable_isOrdered {bindings : SortedMap Value} (h : BindsOrdered bindings) :
    IsStable bindings IsOrdered where
  null := isOrdered_leaf rfl nofun
  bool _ := isOrdered_leaf rfl nofun
  number _ := isOrdered_leaf rfl nofun
  string _ := isOrdered_leaf rfl nofun
  list := isOrdered_list
  field h := (isOrdered_object.mp h).2
  noFields := isOrdered_object.mpr ⟨.nil, List.forall_mem_nil _⟩
  put hfields hvalue := isOrdered_put hvalue hfields
  binding hfind _ := h _ _ hfind

/-! ## Fields that are evaluated -/

section MapFields

variable {f : Expression → Evaluation Value} {name : String} {value : Value}

theorem names_of_mapFields {fields images : List (String × Value)}
    (h : (mapFields f fields).result = .ok images) : Fields.names images = Fields.names fields := by
  induction fields generalizing images with
  | nil => rw [← Except.ok.inj h]
  | cons field fields ih =>
    obtain ⟨name, value⟩ := field
    obtain ⟨image, -, hrest⟩ := Evaluation.result_bind_eq_ok.mp h
    obtain ⟨rest, hmap, hreturn⟩ := Evaluation.result_bind_eq_ok.mp hrest
    obtain rfl := Except.ok.inj hreturn
    exact congrArg (name :: ·) (ih hmap)

theorem ordered_of_mapFields {fields images : List (String × Value)}
    (hordered : Fields.Ordered fields) (h : (mapFields f fields).result = .ok images) :
    Fields.Ordered images := by
  have hnames : (Fields.names images).Pairwise (· < ·) :=
    names_of_mapFields h ▸ List.pairwise_map.mpr hordered
  exact List.pairwise_map.mp hnames

/-- A new literal field may be put before its object is evaluated, or after. -/
theorem mapFields_put (hvalue : value.IsLiteral) {fields : Fields Value}
    (h : fields.find? name = none) :
    mapFields f (fields.put name value) = do
      let images ← mapFields f fields
      return Fields.put name value images := by
  induction fields with
  | nil => simp only [Fields.put, mapFields, mapExpressions_of_isLiteral value hvalue, pure_bind]
  | cons field fields ih =>
    obtain ⟨other, old⟩ := field
    rw [Fields.find?] at h
    split at h
    · exact absurd h (Option.some_ne_none _)
    · next hne =>
      rw [Fields.put]
      -- The image of a field keeps its name, so both are put at the same place.
      split
      · next hlt =>
        simp only [mapFields, mapExpressions_of_isLiteral value hvalue, pure_bind, bind_assoc,
          Fields.put, if_pos hlt]
      · next hnot =>
        simp only [if_neg hne, mapFields, ih h, pure_bind, bind_assoc, Fields.put, if_neg hnot]

end MapFields

end Value

end ClusterBlueprint
