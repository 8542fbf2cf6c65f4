import ClusterBlueprint.Evaluation
import ClusterBlueprint.Proofs.References

/-!
An expression reads only the global variables that it refers to.
-/

namespace ClusterBlueprint

/-- The global variable that a node reads. -/
def Term.global? : Term → Option String
  | traversal root (.attribute name :: _) => if root = Reference.globalRoot then some name else none
  | _ => none

theorem Reference.ofTraversal_eq_global {root name : String} {steps : List Step} :
    ofTraversal root steps = .ok (.global name)
      ↔ (Term.traversal root steps).global? = some name := by
  by_cases hroot : root = globalRoot
  · subst hroot
    match steps with
    | [] | .index _ :: _ | .attribute _ :: _ => simp [ofTraversal, Term.global?]
  · have hnone : (Term.traversal root steps).global? = none := by
      match steps with
      | [] | .index _ :: _ => rfl
      | .attribute _ :: _ => exact if_neg hroot
    unfold ofTraversal
    rw [hnone, if_neg hroot]
    split
    · split <;> simp [ofModule]
    · simp

/-- Two bindings have the same values for the variables that some nodes read. -/
def Agree (a b : SortedMap Value) (nodes : List Term) : Prop :=
  ∀ node ∈ nodes, ∀ name, node.global? = some name → a.find? name = b.find? name

section Agree

variable {a b : SortedMap Value}

theorem agree_append {xs ys : List Term} : Agree a b (xs ++ ys) ↔ Agree a b xs ∧ Agree a b ys :=
  List.forall_mem_append

theorem Agree.tail {t : Term} {nodes : List Term} (h : Agree a b (t :: nodes)) :
    Agree a b nodes := (List.forall_mem_cons.mp h).2

theorem globalValue_congr {name : String} (h : a.find? name = b.find? name) :
    globalValue a name = globalValue b name := by
  unfold globalValue
  rw [h]

end Agree

namespace Term

variable {a b : SortedMap Value}

mutual

theorem eval_congr : ∀ (t : Term), Agree a b t.nodes → t.eval a = t.eval b
  | .null, _ | .bool _, _ | .number _, _ => rfl
  | .template parts, h => by
    have hparts := evalParts_congr parts h.tail
    simp only [eval, hparts]
  | .traversal _ [], _ | .traversal _ (.index _ :: _), _ => rfl
  | .traversal root (.attribute name :: steps), h => by
    have hsteps := evalSteps_congr steps h.tail
    rw [eval, eval]
    by_cases hroot : root = Reference.globalRoot
    · have hglobal : (traversal root (.attribute name :: steps)).global? = some name :=
        if_pos hroot
      have hvalue := globalValue_congr (h _ List.mem_cons_self name hglobal)
      simp only [hroot, if_true, hvalue, hsteps]
    · simp only [hroot, if_false]
  | .relative source steps, h => by
    obtain ⟨hsource, hsteps⟩ := agree_append.mp h.tail
    have heval := eval_congr source hsource
    have hrest : ∀ value, evalSteps a value steps = evalSteps b value steps := fun value =>
      evalSteps_congr steps hsteps value
    simp only [eval, heval, hrest]
  | .call name args, h => by
    have hargs := evalList_congr args h.tail
    simp only [eval, hargs]
  | .tuple items, h => by
    have hitems := evalList_congr items h.tail
    simp only [eval, hitems]
  | .object items, h => by
    have hitems := evalItems_congr items h.tail
    simp only [eval, hitems]
  | .unary op operand, h => by
    have hoperand := eval_congr operand h.tail
    simp only [eval, hoperand]
  | .binary op left right, h => by
    obtain ⟨hleft, hright⟩ := agree_append.mp h.tail
    have heval := eval_congr left hleft
    have heval' := eval_congr right hright
    simp only [eval, heval, heval']
  | .conditional condition yes no, h => by
    obtain ⟨hfirst, hno⟩ := agree_append.mp h.tail
    obtain ⟨hcondition, hyes⟩ := agree_append.mp hfirst
    have heval := eval_congr condition hcondition
    have hevalYes := eval_congr yes hyes
    have hevalNo := eval_congr no hno
    simp only [eval, heval, hevalYes, hevalNo]
  | .parens inner, h => by
    have hinner := eval_congr inner h.tail
    simp only [eval, hinner]
termination_by structural t => t

theorem evalParts_congr : ∀ (parts : List Part), Agree a b (partsNodes parts) →
    evalParts a parts = evalParts b parts
  | [], _ => rfl
  | .literal text :: parts, h => by
    have hparts := evalParts_congr parts h
    simp only [evalParts, hparts]
  | .interpolation t :: parts, h => by
    obtain ⟨hterm, hparts⟩ := agree_append.mp h
    have heval := eval_congr t hterm
    have hrest := evalParts_congr parts hparts
    simp only [evalParts, heval, hrest]
termination_by structural t => t

theorem evalSteps_congr : ∀ (steps : List Step), Agree a b (stepsNodes steps) →
    ∀ value, evalSteps a value steps = evalSteps b value steps
  | [], _, _ => rfl
  | .attribute name :: steps, h, value => by
    have hrest := evalSteps_congr steps h
    simp only [evalSteps, hrest]
  | .index t :: steps, h, value => by
    obtain ⟨hterm, hsteps⟩ := agree_append.mp h
    have heval := eval_congr t hterm
    have hrest := evalSteps_congr steps hsteps
    simp only [evalSteps, heval, hrest]
termination_by structural t => t

theorem evalList_congr : ∀ (items : List Term), Agree a b (listNodes items) →
    evalList a items = evalList b items
  | [], _ => rfl
  | t :: items, h => by
    obtain ⟨hterm, hitems⟩ := agree_append.mp h
    have heval := eval_congr t hterm
    have hrest := evalList_congr items hitems
    simp only [evalList, heval, hrest]
termination_by structural t => t

theorem evalItems_congr : ∀ (items : List Item), Agree a b (itemsNodes items) →
    ∀ fields, evalItems a fields items = evalItems b fields items
  | [], _, _ => rfl
  | .named name t :: items, h, fields => by
    obtain ⟨hterm, hitems⟩ := agree_append.mp h
    have heval := eval_congr t hterm
    have hrest := evalItems_congr items hitems
    simp only [evalItems, heval, hrest]
  | .computed key t :: items, h, fields => by
    obtain ⟨hfirst, hitems⟩ := agree_append.mp h
    obtain ⟨hkey, hterm⟩ := agree_append.mp hfirst
    have hevalKey := eval_congr key hkey
    have heval := eval_congr t hterm
    have hrest := evalItems_congr items hitems
    simp only [evalItems, hevalKey, heval, hrest]
termination_by structural t => t

end

end Term

/-! ## Expressions and values -/

theorem Expression.global_mem_references {e : Expression} {node : Term} {name : String}
    (hnode : node ∈ e.term.nodes) (hname : node.global? = some name) :
    .global name ∈ e.references := by
  match node, hname with
  | .traversal root (.attribute first :: steps), hname =>
    exact mem_references.mpr ⟨root, _, hnode, Reference.ofTraversal_eq_global.mpr hname⟩

/-- An expression has the same value wherever the variables it refers to have. -/
theorem Expression.eval_congr {a b : SortedMap Value} {e : Expression}
    (h : ∀ name, .global name ∈ e.references → a.find? name = b.find? name) :
    e.eval a = e.eval b :=
  Term.eval_congr e.term fun _ hnode name hname => h name (global_mem_references hnode hname)

namespace Value

mutual

theorem mapExpressions_congr {f g : Expression → Evaluation Value} :
    ∀ (value : Value), (∀ e, .expression e ∈ value.nodes → f e = g e) →
      value.mapExpressions f = value.mapExpressions g
  | .null, _ | .bool _, _ | .number _, _ | .string _, _ => rfl
  | .expression e, h => h e List.mem_cons_self
  | .list items, h => by
    have hitems := mapList_congr items fun e he => h e (List.mem_cons_of_mem _ he)
    simp only [mapExpressions, hitems]
  | .object fields, h => by
    have hfields := mapFields_congr fields fun e he => h e (List.mem_cons_of_mem _ he)
    simp only [mapExpressions, hfields]
termination_by structural v => v

theorem mapList_congr {f g : Expression → Evaluation Value} :
    ∀ (items : List Value), (∀ e, .expression e ∈ listNodes items → f e = g e) →
      mapList f items = mapList g items
  | [], _ => rfl
  | item :: items, h => by
    have hitem := mapExpressions_congr item fun e he => h e (List.mem_append_left _ he)
    have hitems := mapList_congr items fun e he => h e (List.mem_append_right _ he)
    simp only [mapList, hitem, hitems]
termination_by structural v => v

theorem mapFields_congr {f g : Expression → Evaluation Value} :
    ∀ (fields : List (String × Value)), (∀ e, .expression e ∈ fieldsNodes fields → f e = g e) →
      mapFields f fields = mapFields g fields
  | [], _ => rfl
  | (name, value) :: fields, h => by
    have hvalue := mapExpressions_congr value fun e he => h e (List.mem_append_left _ he)
    have hfields := mapFields_congr fields fun e he => h e (List.mem_append_right _ he)
    simp only [mapFields, hvalue, hfields]
termination_by structural v => v

end

/-- A value has the same literal form wherever the variables it refers to have. -/
theorem eval_congr {a b : SortedMap Value} {value : Value}
    (h : ∀ name, .global name ∈ value.references → a.find? name = b.find? name) :
    value.eval a = value.eval b :=
  mapExpressions_congr value fun e he => Expression.eval_congr fun name hname =>
    h name (mem_references.mpr ⟨e, he, hname⟩)

end Value

end ClusterBlueprint
