import ClusterBlueprint.Expression.Term
import Mathlib.Data.List.Basic
import Mathlib.Logic.Relation

/-!
What stands inside a tree.

The nodes of a tree are the trees that it is made of, by whatever way they are part of it.
-/

namespace ClusterBlueprint

/-- The trees of an entry of an object: its value, after its key if that is computed. -/
def Item.trees : Item → List Term
  | named _ value => [value]
  | computed key value => [key, value]

namespace Term

/-- Whether a tree stands directly below another. -/
inductive Below : Term → Term → Prop where
  | interpolation {t : Term} {parts : List Part} (h : .interpolation t ∈ parts) :
    Below t (template parts)
  | index {t : Term} {root : String} {steps : List Step} (h : .index t ∈ steps) :
    Below t (traversal root steps)
  | source {t : Term} {steps : List Step} : Below t (relative t steps)
  | indexOf {t source : Term} {steps : List Step} (h : .index t ∈ steps) :
    Below t (relative source steps)
  | argument {t : Term} {name : String} {args : List Term} (h : t ∈ args) : Below t (call name args)
  | item {t : Term} {items : List Term} (h : t ∈ items) : Below t (tuple items)
  | entry {t : Term} {item : Item} {items : List Item} (h : item ∈ items) (ht : t ∈ item.trees) :
    Below t (object items)
  | operand {t : Term} {op : UnaryOperator} : Below t (unary op t)
  | left {t right : Term} {op : BinaryOperator} : Below t (binary op t right)
  | right {left t : Term} {op : BinaryOperator} : Below t (binary op left t)
  | condition {t yes no : Term} : Below t (conditional t yes no)
  | yes {condition t no : Term} : Below t (conditional condition t no)
  | no {condition yes t : Term} : Below t (conditional condition yes t)
  | inner {t : Term} : Below t (parens t)

/-- Whether a tree stands anywhere inside another, or is that tree. -/
def Inside : Term → Term → Prop := Relation.ReflTransGen Below

variable {t u : Term}

theorem Below.sizeOf_lt (h : Below u t) : sizeOf u < sizeOf t := by
  cases h with
  | interpolation h | index h | indexOf h | argument h | item h =>
    have hlt := List.sizeOf_lt_of_mem h
    simp at hlt ⊢
    omega
  | entry h ht =>
    have hlt := List.sizeOf_lt_of_mem h
    rename_i item items
    cases item with
    | named name value =>
      obtain rfl := List.mem_singleton.mp ht
      simp at hlt ⊢
      omega
    | computed key value =>
      rcases List.mem_pair.mp ht with rfl | rfl
      · simp at hlt ⊢
        omega
      · simp at hlt ⊢
        omega
  | _ =>
    simp
    try omega

theorem mem_partsNodes {parts : List Part} :
    u ∈ partsNodes parts ↔ ∃ t, .interpolation t ∈ parts ∧ u ∈ t.nodes := by
  induction parts with
  | nil => simp [partsNodes]
  | cons part parts ih => cases part <;> simp [partsNodes, ih, or_and_right, exists_or]

theorem mem_stepsNodes {steps : List Step} :
    u ∈ stepsNodes steps ↔ ∃ t, .index t ∈ steps ∧ u ∈ t.nodes := by
  induction steps with
  | nil => simp [stepsNodes]
  | cons step steps ih => cases step <;> simp [stepsNodes, ih, or_and_right, exists_or]

theorem mem_listNodes {items : List Term} : u ∈ listNodes items ↔ ∃ t ∈ items, u ∈ t.nodes := by
  induction items with
  | nil => simp [listNodes]
  | cons item items ih => simp [listNodes, ih]

theorem mem_itemsNodes {items : List Item} :
    u ∈ itemsNodes items ↔ ∃ item ∈ items, ∃ t ∈ item.trees, u ∈ t.nodes := by
  induction items with
  | nil => simp [itemsNodes]
  | cons item items ih => cases item <;> simp [itemsNodes, ih, Item.trees, or_assoc]

/-- The nodes of a tree are the tree and the nodes of the trees directly below it. -/
theorem mem_nodes_iff_below : u ∈ t.nodes ↔ u = t ∨ ∃ c, Below c t ∧ u ∈ c.nodes := by
  constructor
  · intro h
    cases t with
    | null | bool | number => exact .inl (List.mem_singleton.mp h)
    | template parts =>
      refine (List.mem_cons.mp h).imp_right fun h => ?_
      obtain ⟨c, hc, hu⟩ := mem_partsNodes.mp h
      exact ⟨c, .interpolation hc, hu⟩
    | traversal root steps =>
      refine (List.mem_cons.mp h).imp_right fun h => ?_
      obtain ⟨c, hc, hu⟩ := mem_stepsNodes.mp h
      exact ⟨c, .index hc, hu⟩
    | relative source steps =>
      refine (List.mem_cons.mp h).imp_right fun h => ?_
      rcases List.mem_append.mp h with h | h
      · exact ⟨source, .source, h⟩
      · obtain ⟨c, hc, hu⟩ := mem_stepsNodes.mp h
        exact ⟨c, .indexOf hc, hu⟩
    | call name args =>
      refine (List.mem_cons.mp h).imp_right fun h => ?_
      obtain ⟨c, hc, hu⟩ := mem_listNodes.mp h
      exact ⟨c, .argument hc, hu⟩
    | tuple items =>
      refine (List.mem_cons.mp h).imp_right fun h => ?_
      obtain ⟨c, hc, hu⟩ := mem_listNodes.mp h
      exact ⟨c, .item hc, hu⟩
    | object items =>
      refine (List.mem_cons.mp h).imp_right fun h => ?_
      obtain ⟨item, hitem, c, hc, hu⟩ := mem_itemsNodes.mp h
      exact ⟨c, .entry hitem hc, hu⟩
    | unary op operand => exact (List.mem_cons.mp h).imp_right fun h => ⟨operand, .operand, h⟩
    | binary op left right =>
      refine (List.mem_cons.mp h).imp_right fun h => ?_
      exact (List.mem_append.mp h).elim (fun h => ⟨left, .left, h⟩) fun h => ⟨right, .right, h⟩
    | conditional condition yes no =>
      refine (List.mem_cons.mp h).imp_right fun h => ?_
      rcases List.mem_append.mp h with h | h
      · exact (List.mem_append.mp h).elim (fun h => ⟨condition, .condition, h⟩)
          fun h => ⟨yes, .yes, h⟩
      · exact ⟨no, .no, h⟩
    | parens inner => exact (List.mem_cons.mp h).imp_right fun h => ⟨inner, .inner, h⟩
  · rintro (rfl | ⟨c, hbelow, hu⟩)
    · cases u <;> exact List.mem_cons_self
    · cases hbelow with
      | interpolation h => exact List.mem_cons_of_mem _ (mem_partsNodes.mpr ⟨c, h, hu⟩)
      | index h => exact List.mem_cons_of_mem _ (mem_stepsNodes.mpr ⟨c, h, hu⟩)
      | source => exact List.mem_cons_of_mem _ (List.mem_append_left _ hu)
      | indexOf h =>
        exact List.mem_cons_of_mem _ (List.mem_append_right _ (mem_stepsNodes.mpr ⟨c, h, hu⟩))
      | argument h | item h => exact List.mem_cons_of_mem _ (mem_listNodes.mpr ⟨c, h, hu⟩)
      | entry h ht => exact List.mem_cons_of_mem _ (mem_itemsNodes.mpr ⟨_, h, c, ht, hu⟩)
      | operand | inner => exact List.mem_cons_of_mem _ hu
      | left => exact List.mem_cons_of_mem _ (List.mem_append_left _ hu)
      | right => exact List.mem_cons_of_mem _ (List.mem_append_right _ hu)
      | condition =>
        exact List.mem_cons_of_mem _ (List.mem_append_left _ (List.mem_append_left _ hu))
      | yes => exact List.mem_cons_of_mem _ (List.mem_append_left _ (List.mem_append_right _ hu))
      | no => exact List.mem_cons_of_mem _ (List.mem_append_right _ hu)

theorem inside_of_mem_nodes (t : Term) (h : u ∈ t.nodes) : Inside u t := by
  rcases mem_nodes_iff_below.mp h with rfl | ⟨c, hbelow, hu⟩
  · exact .refl
  · exact .tail (inside_of_mem_nodes c hu) hbelow
termination_by sizeOf t
decreasing_by exact hbelow.sizeOf_lt

/-- The nodes of a tree are all that stands inside it. -/
theorem mem_nodes : u ∈ t.nodes ↔ Inside u t := by
  refine ⟨inside_of_mem_nodes t, fun h => ?_⟩
  induction h with
  | refl => exact mem_nodes_iff_below.mpr (.inl rfl)
  | tail _ hbelow ih => exact mem_nodes_iff_below.mpr (.inr ⟨_, hbelow, ih⟩)

end Term

end ClusterBlueprint
