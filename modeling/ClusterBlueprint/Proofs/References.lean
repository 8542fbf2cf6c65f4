import ClusterBlueprint.Proofs.Checked
import ClusterBlueprint.Proofs.Expression.Nodes
import ClusterBlueprint.Value

/-!
The references of expressions and values, and those that are well formed.

An expression drops the traversals that are no references from its references.  Reading one leaves
none to drop.
-/

namespace ClusterBlueprint

/-! ## The references of an expression -/

def Step.name? : Step → Option String
  | .attribute name => some name
  | .index _ => none

/-- What a traversal refers to is read off its names. -/
theorem Reference.ofTraversal_congr (root : String) {steps others : List Step}
    (h : steps.map Step.name? = others.map Step.name?) (reference : Reference) :
    ofTraversal root steps = .ok reference ↔ ofTraversal root others = .ok reference := by
  unfold ofTraversal
  dsimp only
  by_cases hglobal : root = globalRoot
  · rw [if_pos hglobal, if_pos hglobal]
    match steps, others, h with
    | [], [], _ | .index _ :: _, .index _ :: _, _ => simp
    | .attribute _ :: _, .attribute _ :: _, h =>
      rw [Option.some.inj (List.cons.inj h).1]
  · rw [if_neg hglobal, if_neg hglobal]
    by_cases hmodule : root = moduleRoot
    · rw [if_pos hmodule, if_pos hmodule]
      match steps, others, h with
      | [], [], _ | .index _ :: _, .index _ :: _, _ | [.attribute _], [.attribute _], _
      | .attribute _ :: .index _ :: _, .attribute _ :: .index _ :: _, _ => simp
      | .attribute _ :: .attribute _ :: _, .attribute _ :: .attribute _ :: _, h =>
        obtain ⟨hfirst, hrest⟩ := List.cons.inj h
        rw [Option.some.inj hfirst, Option.some.inj (List.cons.inj hrest).1]
    · rw [if_neg hmodule, if_neg hmodule]
      simp

/-- The references of an expression name no groups. -/
theorem Reference.group?_of_ofTraversal {root : String} {steps : List Step}
    {reference : Reference} (h : ofTraversal root steps = .ok reference) :
    reference.group? = none := by
  unfold ofTraversal at h
  dsimp only at h
  split at h
  · split at h
    · obtain rfl := Except.ok.inj h
      rfl
    · exact absurd h nofun
  · split at h
    · split at h
      · obtain rfl := Except.ok.inj h
        rfl
      · exact absurd h nofun
      · exact absurd h nofun
    · exact absurd h nofun

theorem Reference.eq_ofModule {reference : Reference} {id : String}
    (hgroup : reference.group? = none)
    (hid : reference.module? = some id) : reference = .ofModule id reference.name := by
  cases reference with
  | global name => exact absurd hid nofun
  | output group module name =>
    obtain rfl : group = none := hgroup
    obtain rfl : module = id := Option.some.inj hid
    rfl

theorem Term.asTraversal?_eq_some {t : Term} {root : String} {steps : List Step} :
    t.asTraversal? = some (root, steps) ↔ t = traversal root steps := by
  cases t <;> simp [asTraversal?]

theorem Term.mem_traversals {t : Term} {root : String} {steps : List Step} :
    (root, steps) ∈ t.traversals ↔ traversal root steps ∈ t.nodes := by
  unfold traversals
  rw [List.mem_filterMap]
  constructor
  · rintro ⟨node, hnode, heq⟩
    rwa [← asTraversal?_eq_some.mp heq]
  · exact fun h => ⟨_, h, rfl⟩

theorem Expression.mem_references {e : Expression} {reference : Reference} :
    reference ∈ e.references ↔ ∃ root steps, .traversal root steps ∈ e.term.nodes
      ∧ Reference.ofTraversal root steps = .ok reference := by
  unfold references
  rw [List.mem_filterMap]
  constructor
  · rintro ⟨⟨root, steps⟩, hmem, heq⟩
    refine ⟨root, steps, Term.mem_traversals.mp hmem, ?_⟩
    dsimp only at heq
    cases hread : Reference.ofTraversal root steps with
    | error fault => simp [hread, Except.toOption] at heq
    | ok found =>
      rw [hread] at heq
      rw [Option.some.inj heq]
  · rintro ⟨root, steps, hmem, heq⟩
    refine ⟨(root, steps), Term.mem_traversals.mpr hmem, ?_⟩
    simp [heq, Except.toOption]

def Term.reference? : Term → Option Reference
  | traversal root steps => (Reference.ofTraversal root steps).toOption
  | _ => none

/-- The references of an expression are the nodes that are references. -/
theorem Expression.references_eq (e : Expression) :
    e.references = e.term.nodes.filterMap Term.reference? := by
  unfold references Term.traversals
  rw [List.filterMap_filterMap]
  congr 1
  funext node
  cases node <;> rfl

/-! ## The references of a value -/

namespace Value

theorem expression?_eq_some {value : Value} {e : Expression} :
    value.expression? = some e ↔ value = expression e := by
  cases value <;> simp [expression?]

theorem references_expression (e : Expression) : (expression e).references = e.references := by
  simp [references, nodes, expression?]

def expressions (value : Value) : List Expression := value.nodes.filterMap expression?

theorem mem_expressions {value : Value} {e : Expression} :
    e ∈ value.expressions ↔ .expression e ∈ value.nodes := by
  unfold expressions
  rw [List.mem_filterMap]
  constructor
  · rintro ⟨node, hnode, heq⟩
    rwa [← expression?_eq_some.mp heq]
  · exact fun he => ⟨_, he, rfl⟩

theorem mem_references {value : Value} {reference : Reference} :
    reference ∈ value.references
      ↔ ∃ e, .expression e ∈ value.nodes ∧ reference ∈ e.references := by
  show reference ∈ value.expressions.flatMap Expression.references ↔ _
  simp only [List.mem_flatMap, mem_expressions]

theorem group?_of_mem_references {value : Value} {reference : Reference}
    (h : reference ∈ value.references) : reference.group? = none := by
  obtain ⟨e, -, href⟩ := mem_references.mp h
  obtain ⟨root, steps, -, htraversal⟩ := Expression.mem_references.mp href
  exact Reference.group?_of_ofTraversal htraversal

theorem expressions_list (items : List Value) :
    (list items).expressions = items.flatMap expressions := by
  show (listNodes items).filterMap expression? = _
  induction items with
  | nil => rfl
  | cons item items ih => rw [listNodes, List.filterMap_append, ih]; rfl

theorem expressions_object (fields : List (String × Value)) :
    (object fields).expressions = fields.flatMap fun field => field.2.expressions := by
  show (fieldsNodes fields).filterMap expression? = _
  induction fields with
  | nil => rfl
  | cons field fields ih => rw [fieldsNodes, List.filterMap_append, ih]; rfl

/-- A list refers to what its items refer to, in their order. -/
theorem references_list (items : List Value) :
    (list items).references = items.flatMap references := by
  show (list items).expressions.flatMap Expression.references = _
  rw [expressions_list, List.flatMap_assoc]
  rfl

/-- An object refers to what its fields refer to, in their order. -/
theorem references_object (fields : List (String × Value)) :
    (object fields).references = fields.flatMap fun field => field.2.references := by
  show (object fields).expressions.flatMap Expression.references = _
  rw [expressions_object, List.flatMap_assoc]
  rfl

theorem mem_references_list {items : List Value} {reference : Reference} :
    reference ∈ (list items).references ↔ ∃ item ∈ items, reference ∈ item.references := by
  rw [references_list, List.mem_flatMap]

theorem mem_references_object {fields : List (String × Value)} {reference : Reference} :
    reference ∈ (object fields).references ↔ ∃ field ∈ fields, reference ∈ field.2.references := by
  rw [references_object, List.mem_flatMap]

/-- Whether a reference stands anywhere in a value, in whatever part of whatever expression. -/
inductive Holds (reference : Reference) : Value → Prop where
  | expression {e : Expression} {root : String} {steps : List Step}
    (h : Term.Inside (.traversal root steps) e.term)
    (href : Reference.ofTraversal root steps = .ok reference) : Holds reference (expression e)
  | item {item : Value} {items : List Value} (h : item ∈ items) (hitem : Holds reference item) :
    Holds reference (list items)
  | field {field : String × Value} {fields : List (String × Value)} (h : field ∈ fields)
    (hfield : Holds reference field.2) : Holds reference (object fields)

theorem holds_of_mem_references {reference : Reference} : ∀ value : Value,
    reference ∈ value.references → Holds reference value
  | .null, h | .bool _, h | .number _, h | .string _, h => absurd h List.not_mem_nil
  | .list items, h => by
    obtain ⟨item, hitem, href⟩ := mem_references_list.mp h
    have hlt := List.sizeOf_lt_of_mem hitem
    exact .item hitem (holds_of_mem_references item href)
  | .object fields, h => by
    obtain ⟨⟨name, inner⟩, hfield, href⟩ := mem_references_object.mp h
    have hlt := List.sizeOf_lt_of_mem hfield
    exact .field hfield (holds_of_mem_references inner href)
  | .expression e, h => by
    rw [references_expression, Expression.mem_references] at h
    obtain ⟨root, steps, hnode, href⟩ := h
    exact .expression (Term.mem_nodes.mp hnode) href
termination_by value => sizeOf value
decreasing_by
  · simp
    omega
  · simp at hlt ⊢
    omega

/-- The references of a value are those that stand anywhere in it. -/
theorem mem_references_iff_holds {value : Value} {reference : Reference} :
    reference ∈ value.references ↔ Holds reference value := by
  refine ⟨holds_of_mem_references value, fun h => ?_⟩
  induction h with
  | expression h href =>
    rw [references_expression]
    exact Expression.mem_references.mpr ⟨_, _, Term.mem_nodes.mpr h, href⟩
  | item h _ ih => exact mem_references_list.mpr ⟨_, h, ih⟩
  | field h _ ih => exact mem_references_object.mpr ⟨_, h, ih⟩

theorem eq_of_mem_references_global {name : String} {reference : Reference}
    (h : reference ∈ (ofReference (.global name)).references) : reference = .global name :=
  List.mem_singleton.mp h

theorem eq_of_mem_references_output {id name : String} {reference : Reference}
    (h : reference ∈ (ofReference (.ofModule id name)).references) :
    reference = .ofModule id name := List.mem_singleton.mp h

end Value

/-! ## The references of a call -/

namespace Value

theorem references_itemOf (name : String) (value : Term) :
    (Term.itemsNodes [itemOf name value]).filterMap Term.reference?
      = value.nodes.filterMap Term.reference? := by
  have hname : (Term.ofString name).nodes.filterMap Term.reference? = [] := rfl
  unfold itemOf
  split
  · simp [Term.itemsNodes, hname]
  · split <;> simp [Term.itemsNodes, hname]

mutual

/-- The tree of a value has the references of the value, in their order. -/
theorem references_toTerm : ∀ value : Value,
    value.toTerm.nodes.filterMap Term.reference? = value.references
  | .null | .bool _ | .number _ | .string _ => rfl
  | .expression e => by rw [toTerm, references_expression, Expression.references_eq]
  | .list items => by rw [references_list]; exact references_listTerms items
  | .object fields => by rw [references_object]; exact references_fieldItems fields
termination_by structural v => v

theorem references_listTerms : ∀ items : List Value,
    (Term.listNodes (listTerms items)).filterMap Term.reference? = items.flatMap references
  | [] => rfl
  | item :: items => by
    rw [listTerms, Term.listNodes, List.filterMap_append, references_toTerm item,
      references_listTerms items]
    rfl
termination_by structural v => v

theorem references_fieldItems : ∀ fields : List (String × Value),
    (Term.itemsNodes (fieldItems fields)).filterMap Term.reference?
      = fields.flatMap fun field => field.2.references
  | [] => rfl
  | (name, value) :: fields => by
    have hitem : ∀ item items, Term.itemsNodes (item :: items)
        = Term.itemsNodes [item] ++ Term.itemsNodes items := by
      intro item items
      cases item <;> simp [Term.itemsNodes]
    rw [fieldItems, hitem, List.filterMap_append, references_itemOf, references_toTerm value,
      references_fieldItems fields]
    rfl
termination_by structural v => v

end

/-- A call refers to what its arguments refer to, in their order. -/
theorem references_callOf (function : String) (args : List Value) :
    (callOf function args).references = args.flatMap references := by
  rw [Expression.references_eq]
  exact references_listTerms args

theorem mem_references_callOf {function : String} {args : List Value} {reference : Reference} :
    reference ∈ (callOf function args).references ↔ ∃ arg ∈ args, reference ∈ arg.references := by
  rw [references_callOf, List.mem_flatMap]

end Value

/-! ## Well-formed references -/

/-- Every traversal in the expression is a reference. -/
def Expression.IsWellReferenced (e : Expression) : Prop :=
  ∀ root steps, .traversal root steps ∈ e.term.nodes →
    ∃ reference, Reference.ofTraversal root steps = .ok reference

def Value.IsWellReferenced (value : Value) : Prop :=
  ∀ e, .expression e ∈ value.nodes → e.IsWellReferenced

theorem Expression.ofTokens_eq_ok {tokens : List Token} {e : Expression} :
    ofTokens tokens = .ok e ↔ Term.ofTokens tokens = .ok e.term ∧ e.IsWellReferenced := by
  constructor
  · intro h
    obtain ⟨t, hterm, hrest⟩ := Checked.bind_eq_ok.mp h
    obtain ⟨_, hall, hexpression⟩ := Checked.bind_eq_ok.mp hrest
    obtain rfl : (⟨t⟩ : Expression) = e := Except.ok.inj hexpression
    refine ⟨hterm, fun root steps hmem => ?_⟩
    exact Checked.discard_eq_ok.mp
      (Checked.forM_eq_ok.mp hall (root, steps) (Term.mem_traversals.mpr hmem))
  · rintro ⟨hterm, hreferences⟩
    refine Checked.bind_eq_ok.mpr ⟨e.term, hterm, Checked.bind_eq_ok.mpr ⟨(), ?_, rfl⟩⟩
    refine Checked.forM_eq_ok.mpr fun (root, steps) hmem => ?_
    exact Checked.discard_eq_ok.mpr (hreferences root steps (Term.mem_traversals.mp hmem))

/-- An expression is read if its tree is, and every traversal in it is a reference. -/
theorem Expression.parse_eq_ok {source : String} {e : Expression} :
    parse source = .ok e
      ↔ (Token.scan source >>= Term.ofTokens) = .ok e.term ∧ e.IsWellReferenced := by
  unfold parse
  rw [Checked.bind_eq_ok, Checked.bind_eq_ok]
  constructor
  · rintro ⟨tokens, hscan, h⟩
    obtain ⟨hterm, hreferences⟩ := ofTokens_eq_ok.mp h
    exact ⟨⟨tokens, hscan, hterm⟩, hreferences⟩
  · rintro ⟨⟨tokens, hscan, hterm⟩, hreferences⟩
    exact ⟨tokens, hscan, ofTokens_eq_ok.mpr ⟨hterm, hreferences⟩⟩

theorem Value.isWellReferenced_ofReference (reference : Reference) :
    (Value.ofReference reference).IsWellReferenced := by
  intro e he root steps hmem
  obtain rfl : e = .ofReference reference := by simpa [Value.ofReference, Value.nodes] using he
  cases reference with
  | global name =>
    obtain ⟨rfl, rfl⟩ : root = Reference.globalRoot ∧ steps = [.attribute name] := by
      simpa [Expression.ofReference, Reference.toTerm, Term.ofNames, Term.nodes, Term.stepsNodes]
        using hmem
    exact ⟨.global name, rfl⟩
  | output group module name =>
    obtain ⟨rfl, rfl⟩ : root = Reference.moduleRoot
        ∧ steps = [.attribute module, .attribute name] := by
      simpa [Expression.ofReference, Reference.toTerm, Term.ofNames, Term.nodes, Term.stepsNodes]
        using hmem
    exact ⟨.ofModule module name, rfl⟩

end ClusterBlueprint
