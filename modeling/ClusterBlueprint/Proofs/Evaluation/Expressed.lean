import ClusterBlueprint.Proofs.Evaluation.Context
import ClusterBlueprint.Proofs.Evaluation.Literal
import ClusterBlueprint.Proofs.References
import ClusterBlueprint.Proofs.SortedMap

/-!
Values and the trees that are written for them.

A value and its tree are evaluated by different recursions, and come to the same.  The tree enters
the fields of an object one after the other, so this holds of objects whose fields are in order.
A value without expressions comes to itself.
-/

namespace ClusterBlueprint.Value

def evalIn (context : Context) (value : Value) : Checked Value × Context :=
  (value.eval context.bindings).within context

/-! ## Values in order -/

def AreOrdered (nodes : List Value) : Prop :=
  ∀ fields, object fields ∈ nodes → Fields.Ordered fields

/-- The fields of every object in the value are in order. -/
def IsOrdered (value : Value) : Prop := AreOrdered value.nodes

theorem areOrdered_append {xs ys : List Value} :
    AreOrdered (xs ++ ys) ↔ AreOrdered xs ∧ AreOrdered ys := by
  constructor
  · exact fun h => ⟨fun fields hmem => h fields (List.mem_append_left ys hmem),
      fun fields hmem => h fields (List.mem_append_right xs hmem)⟩
  · rintro ⟨hxs, hys⟩ fields hmem
    exact (List.mem_append.mp hmem).elim (hxs fields) (hys fields)

theorem AreOrdered.tail {value : Value} {nodes : List Value} (h : AreOrdered (value :: nodes)) :
    AreOrdered nodes := fun fields hmem => h fields (List.mem_cons_of_mem value hmem)

/-! ## The tree of a value -/

section Tree

variable {bindings : SortedMap Value}

theorem evalItems_itemOf (before : Fields Value) (name : String) (term : Term)
    (rest : List Item) :
    Term.evalItems bindings before (itemOf name term :: rest)
      = term.eval bindings >>= fun value =>
          Term.evalItems bindings (before.put name value) rest := by
  have hcomputed : Term.evalItems bindings before (.computed (.ofString name) term :: rest)
      = term.eval bindings >>= fun value =>
          Term.evalItems bindings (before.put name value) rest := by
    rw [Term.evalItems, Term.eval_ofString]
    rfl
  unfold itemOf
  split
  · exact hcomputed
  · split
    · rfl
    · exact hcomputed

mutual

theorem eval_toTerm : ∀ value : Value, value.IsOrdered →
    value.toTerm.eval bindings = value.eval bindings
  | .null, _ | .bool _, _ | .number _, _ | .expression _, _ => rfl
  | .string text, _ => Term.eval_ofString bindings text
  | .list items, h => by
    rw [toTerm, Term.eval, evalList_listTerms items h.tail]
    rfl
  | .object fields, h => by
    rw [toTerm, Term.eval, evalItems_fieldItems fields h.tail (h fields List.mem_cons_self) []
      (List.forall_mem_nil _), bind_assoc]
    rfl
termination_by structural v => v

theorem evalList_listTerms : ∀ items : List Value, AreOrdered (listNodes items) →
    Term.evalList bindings (listTerms items) = mapList (Expression.eval bindings) items
  | [], _ => rfl
  | item :: items, h => by
    obtain ⟨hitem, hitems⟩ := areOrdered_append.mp h
    rw [listTerms, Term.evalList, eval_toTerm item hitem, evalList_listTerms items hitems]
    rfl
termination_by structural v => v

-- The fields so far come before all others, so that each field is put at the end.
theorem evalItems_fieldItems : ∀ fields : List (String × Value), AreOrdered (fieldsNodes fields) →
    Fields.Ordered fields → ∀ before : Fields Value,
      (∀ old ∈ before, ∀ field ∈ fields, old.1 < field.1) →
        Term.evalItems bindings before (fieldItems fields) = do
          let fields ← mapFields (Expression.eval bindings) fields
          return before ++ fields
  | [], _, _, before, _ => congrArg pure (List.append_nil before).symm
  | (name, value) :: fields, h, hordered, before, hbefore => by
    obtain ⟨hvalue, hfields⟩ := areOrdered_append.mp h
    obtain ⟨hname, htail⟩ := List.pairwise_cons.mp hordered
    have hput : ∀ image : Value, Fields.put name image before = before ++ [(name, image)] :=
      Fields.put_of_after fun old hold => hbefore old hold _ List.mem_cons_self
    have hrest : ∀ image : Value, ∀ old ∈ before ++ [(name, image)], ∀ field ∈ fields,
        old.1 < field.1 := by
      intro image old hold field hfield
      rcases List.mem_append.mp hold with hold | hold
      · exact hbefore old hold field (List.mem_cons_of_mem _ hfield)
      · rw [List.mem_singleton.mp hold]
        exact hname field hfield
    rw [fieldItems, evalItems_itemOf, eval_toTerm value hvalue, mapFields, bind_assoc]
    refine bind_congr fun image => ?_
    rw [hput, evalItems_fieldItems fields hfields htail _ (hrest image), bind_assoc]
    refine bind_congr fun images => ?_
    rw [List.append_assoc, pure_bind]
    rfl
termination_by structural v => v

end

end Tree

/-- A value and the expression that is its tree come to the same value, or to the same fault, in
every context; they stage the same sources in the same order, and refer to the same. -/
theorem toTerm_denotes {value : Value} (h : value.IsOrdered) :
    let e : Expression := ⟨value.toTerm⟩
    (∀ context : Context, e.evalIn context = value.evalIn context)
      ∧ (∀ bindings, (e.eval bindings).staged = (value.eval bindings).staged)
      ∧ e.references = value.references := by
  intro e
  have heval : ∀ bindings, e.eval bindings = value.eval bindings := fun _ => eval_toTerm value h
  refine ⟨fun context => ?_, fun bindings => congrArg Evaluation.staged (heval bindings), ?_⟩
  · rw [Expression.evalIn, heval, evalIn]
  · rw [Expression.references_eq, references_toTerm]

/-- The keys `a b` and `true` are no names of a field, and a call that fails comes after calls that
stage. -/
theorem toTerm_denotes_of_scripts :
    let stage (arg : Term) : Value := .expression ⟨.call Function.stageName [arg]⟩
    let value : Value := .object [
      ("a b", .list [stage (.ofNames "var" ["first"]), .object []]),
      ("true", .string "x"),
      ("z", .list [stage (.ofString "second.sh"), stage (.ofNames "var" ["none"])])]
    let e : Expression := ⟨value.toTerm⟩
    value.IsOrdered ∧ (∀ context : Context, e.evalIn context = value.evalIn context)
      ∧ (∀ bindings, (e.eval bindings).staged = (value.eval bindings).staged)
      ∧ e.references = value.references := by
  intro stage value e
  have hordered : value.IsOrdered := by
    intro fields hfields
    have hcases : Value.object fields = value ∨ Value.object fields = .object [] := by
      simpa [value, stage, nodes, listNodes, fieldsNodes] using hfields
    rcases hcases with heq | heq
    · rw [Value.object.inj heq, Fields.Ordered]
      decide
    · rw [Value.object.inj heq]
      exact .nil
  exact ⟨hordered, toTerm_denotes hordered⟩

/-! ## Literal values -/

section Literal

variable {m : Type → Type} [Monad m] [LawfulMonad m] {f : Expression → m Value}

mutual

theorem mapExpressions_of_isLiteral : ∀ value : Value, value.IsLiteral →
    value.mapExpressions f = pure value
  | .null, _ | .bool _, _ | .number _, _ | .string _, _ => rfl
  | .expression _, h => absurd h (by simp [IsLiteral, hasExpression, nodes, isExpression])
  | .list items, h => by
    rw [mapExpressions, mapList_of_isLiteral items (isLiteral_list.mp h), pure_bind]
  | .object fields, h => by
    rw [mapExpressions, mapFields_of_isLiteral fields (isLiteral_object.mp h), pure_bind]
termination_by structural v => v

theorem mapList_of_isLiteral : ∀ items : List Value, (∀ item ∈ items, item.IsLiteral) →
    mapList f items = pure items
  | [], _ => rfl
  | item :: items, h => by
    obtain ⟨hitem, hitems⟩ := List.forall_mem_cons.mp h
    rw [mapList, mapExpressions_of_isLiteral item hitem, pure_bind,
      mapList_of_isLiteral items hitems, pure_bind]
termination_by structural v => v

theorem mapFields_of_isLiteral : ∀ fields : List (String × Value),
    (∀ field ∈ fields, field.2.IsLiteral) → mapFields f fields = pure fields
  | [], _ => rfl
  | (name, value) :: fields, h => by
    obtain ⟨hvalue, hfields⟩ := List.forall_mem_cons.mp h
    rw [mapFields, mapExpressions_of_isLiteral value hvalue, pure_bind,
      mapFields_of_isLiteral fields hfields, pure_bind]
termination_by structural v => v

end

end Literal

theorem eval_of_isLiteral {value : Value} (h : value.IsLiteral) (bindings : SortedMap Value) :
    value.eval bindings = pure value := mapExpressions_of_isLiteral value h

theorem isLiteral_iff_forall {value : Value} :
    value.IsLiteral ↔ ∀ e, .expression e ∉ value.nodes := by
  unfold IsLiteral hasExpression
  rw [List.any_eq_false]
  constructor
  · exact fun h e he => h _ he rfl
  · intro h node hnode
    cases node with
    | expression e => exact absurd hnode (h e)
    | _ => exact Bool.false_ne_true

/-- What a value comes to holds no expression.  It comes to itself in every context, and stages
nothing. -/
theorem evalIn_reaches_literal {value result : Value} {context : Context}
    (h : (value.evalIn context).1 = .ok result) :
    (∀ e, .expression e ∉ result.nodes)
      ∧ ∀ other : Context, result.evalIn other = (.ok result, other)
        ∧ (result.eval other.bindings).staged = [] := by
  have hliteral : result.IsLiteral := isLiteral_of_eval h
  refine ⟨isLiteral_iff_forall.mp hliteral, fun other => ?_⟩
  rw [evalIn, eval_of_isLiteral hliteral]
  exact ⟨rfl, rfl⟩

/-- `[ghpc_stage(var.kinds.login), var.kinds]` next to a variable that is still an expression. -/
theorem evalIn_reaches_literal_of_pending :
    let kinds : Value := .object [("login", .string "login.sh")]
    let context : Context := {
      bindings := .ofList [("kinds", kinds), ("pending", .list [.ofReference (.global "kinds")])]
      table := some ∅ }
    let value : Value := .list [
      .expression ⟨.call Function.stageName [.ofNames "var" ["kinds", "login"]]⟩,
      .ofReference (.global "kinds")]
    let result : Value := .list [.string (StagedFiles.destination "login.sh"), kinds]
    (value.evalIn context).1 = .ok result ∧ (∀ e, .expression e ∉ result.nodes)
      ∧ ∀ other : Context, result.evalIn other = (.ok result, other)
        ∧ (result.eval other.bindings).staged = [] := by
  intro kinds context value result
  have h : (value.evalIn context).1 = .ok result := by
    unfold result value context kinds
    rfl
  exact ⟨h, evalIn_reaches_literal h⟩

end ClusterBlueprint.Value
