import ClusterBlueprint.Proofs.Evaluation.Yields
import ClusterBlueprint.Proofs.SortedMap

/-!
Evaluation yields literal values, and its faults are faults of evaluation.

A property of values is stable if whatever evaluation makes of values with the property has it too.
`Term.eval_yields_of_isStable` goes through the trees once for all such properties; to be literal is
one of them.
-/

namespace ClusterBlueprint

namespace Value

def IsLiteral (value : Value) : Prop := value.hasExpression = false

theorem isLiteral_list {items : List Value} :
    (list items).IsLiteral ↔ ∀ item ∈ items, item.IsLiteral := by
  have hany : (listNodes items).any isExpression = items.any hasExpression := by
    induction items with
    | nil => rfl
    | cons item items ih => rw [listNodes, List.any_append, List.any_cons, ih]; rfl
  show (list items :: listNodes items).any isExpression = false ↔ _
  rw [List.any_cons, hany]
  simp [isExpression, IsLiteral]

theorem isLiteral_object {fields : List (String × Value)} :
    (object fields).IsLiteral ↔ ∀ field ∈ fields, field.2.IsLiteral := by
  have hany : (fieldsNodes fields).any isExpression = fields.any fun field =>
      field.2.hasExpression := by
    induction fields with
    | nil => rfl
    | cons field fields ih => rw [fieldsNodes, List.any_append, List.any_cons, ih]; rfl
  show (object fields :: fieldsNodes fields).any isExpression = false ↔ _
  rw [List.any_cons, hany]
  simp [isExpression, IsLiteral]

theorem isLiteral_put {name : String} {value : Value} {fields : Fields Value}
    (hvalue : value.IsLiteral) (h : ∀ field ∈ fields, field.2.IsLiteral) :
    ∀ field ∈ fields.put name value, field.2.IsLiteral := by
  intro field hfield
  rcases Fields.mem_put hfield with rfl | hmem
  · exact hvalue
  · exact h field hmem

/-- Properties of values that every step of an evaluation keeps. -/
structure IsStable (bindings : SortedMap Value) (good : Value → Prop) : Prop where
  null : good .null
  bool : ∀ b, good (.bool b)
  number : ∀ x, good (.number x)
  string : ∀ text, good (.string text)
  list : ∀ {items}, good (.list items) ↔ ∀ item ∈ items, good item
  field : ∀ {fields}, good (.object fields) → ∀ field ∈ fields, good field.2
  noFields : good (.object [])
  put : ∀ {fields name value}, good (.object fields) → good value →
    good (.object (Fields.put name value fields))
  binding : ∀ {name value}, bindings.find? name = some value → value.IsLiteral → good value

theorem isStable_isLiteral (bindings : SortedMap Value) : IsStable bindings IsLiteral where
  null := rfl
  bool _ := rfl
  number _ := rfl
  string _ := rfl
  list := isLiteral_list
  field := isLiteral_object.mp
  noFields := rfl
  put hfields hvalue := isLiteral_object.mpr (isLiteral_put hvalue (isLiteral_object.mp hfields))
  binding _ := id

section Leaves

variable {bindings : SortedMap Value} {good : Value → Prop}

mutual

theorem IsStable.leaves (hgood : IsStable bindings good) : ∀ (value : Value), good value →
    ∀ leaf ∈ value.leaves, good leaf
  | .list items, h => hgood.listLeaves items (hgood.list.mp h)
  | .null, h | .bool _, h | .number _, h | .string _, h | .object _, h | .expression _, h => by
    simpa [Value.leaves] using h
termination_by structural v => v

theorem IsStable.listLeaves (hgood : IsStable bindings good) : ∀ (items : List Value),
    (∀ item ∈ items, good item) → ∀ leaf ∈ Value.listLeaves items, good leaf
  | [], _ => by simp [Value.listLeaves]
  | item :: items, h => by
    obtain ⟨hitem, hitems⟩ := List.forall_mem_cons.mp h
    exact List.forall_mem_append.mpr ⟨hgood.leaves item hitem, hgood.listLeaves items hitems⟩
termination_by structural v => v

end

end Leaves

end Value

/-! ## Faults -/

/-- Whether a cause is one that evaluation gives, where an unknown variable is a missing one. -/
def Cause.IsEvaluation (missing : String → Prop) : Cause → Prop
  | .expression _ | .type _ | .unsupportedFunction _ => True
  | .unknownVariable name => missing name
  | _ => False

def Fault.IsEvaluation (missing : String → Prop) : Fault → Prop
  | .cause c => c.IsEvaluation missing
  | .hinted fault _ => fault.IsEvaluation missing
  | _ => False

def Term.unknown? (bindings : SortedMap Value) : Term → Option String
  | traversal root steps =>
    if root = Reference.globalRoot then
      match steps with
      | .attribute name :: _ => if bindings.contains name then none else some name
      | _ => none
    else if root = Reference.moduleRoot then none
    else some root
  | _ => none

open Evaluation

section Yields

variable {missing : String → Prop} {bindings : SortedMap Value} {good : Value → Prop}

abbrev Evaluation.YieldsLiteral (missing : String → Prop) (x : Evaluation Value) : Prop :=
  x.Yields Value.IsLiteral (Fault.IsEvaluation missing)

theorem yields_member (hgood : Value.IsStable bindings good) {name : String} {value : Value}
    (h : good value) : (value.member name).Yields good (Fault.IsEvaluation missing) := by
  unfold Value.member
  split
  · split
    · next hfind => exact hgood.field h _ (Fields.mem_of_find? hfind)
    · exact yields_fail trivial
  · exact yields_fail trivial

theorem yields_item (hgood : Value.IsStable bindings good) {position : Number} {value : Value}
    (h : good value) : (value.item position).Yields good (Fault.IsEvaluation missing) := by
  unfold Value.item
  split
  · dsimp only
    split
    · next items _ found hfound =>
      obtain ⟨n, -, hat⟩ := Option.bind_eq_some_iff.mp hfound
      split at hat
      · exact hgood.list.mp h _ (List.mem_of_getElem? hat)
      · exact absurd hat (by simp)
    · exact yields_fail trivial
  · exact yields_member hgood h
  · exact yields_fail trivial

theorem yields_templateText (value : Value) :
    value.templateText.Yields (fun _ => True) (Fault.IsEvaluation missing) := by
  cases value <;> trivial

theorem yields_keyText (value : Value) :
    value.keyText.Yields (fun _ => True) (Fault.IsEvaluation missing) := by
  cases value <;> trivial

theorem yields_unary (hgood : Value.IsStable bindings good) (op : UnaryOperator) (value : Value) :
    (op.apply value).Yields good (Fault.IsEvaluation missing) := by
  unfold UnaryOperator.apply
  split
  · exact yields_pure (hgood.number _)
  · exact yields_pure (hgood.bool _)
  · exact yields_fail trivial

theorem yields_onBools (hgood : Value.IsStable bindings good) (f : Bool → Bool → Bool)
    (left right : Value) :
    (BinaryOperator.onBools f left right).Yields good (Fault.IsEvaluation missing) := by
  unfold BinaryOperator.onBools
  split
  · exact yields_pure (hgood.bool _)
  · exact yields_fail trivial

theorem yields_onNumbers {f : Number → Number → Evaluation Value}
    (hf : ∀ a b, (f a b).Yields good (Fault.IsEvaluation missing)) (left right : Value) :
    (BinaryOperator.onNumbers f left right).Yields good (Fault.IsEvaluation missing) := by
  unfold BinaryOperator.onNumbers
  split
  · exact hf _ _
  · exact yields_fail trivial

theorem yields_dividing (hgood : Value.IsStable bindings good) (f : Number → Number → Number)
    (a b : Number) :
    (BinaryOperator.dividing f a b).Yields good (Fault.IsEvaluation missing) := by
  unfold BinaryOperator.dividing
  split
  · exact yields_fail trivial
  · exact yields_pure (hgood.number _)

theorem yields_binary (hgood : Value.IsStable bindings good) (op : BinaryOperator)
    (left right : Value) : (op.apply left right).Yields good (Fault.IsEvaluation missing) := by
  cases op with
  | equal | notEqual => exact yields_pure (hgood.bool _)
  | and | or => exact yields_onBools hgood _ left right
  | div | mod => exact yields_onNumbers (yields_dividing hgood _) left right
  | add | sub | mul => exact yields_onNumbers (fun _ _ => yields_pure (hgood.number _)) left right
  | less | lessEqual | greater | greaterEqual =>
    exact yields_onNumbers (fun _ _ => yields_pure (hgood.bool _)) left right

theorem yields_flatten (hgood : Value.IsStable bindings good) {args : List Value}
    (h : ∀ arg ∈ args, good arg) :
    (Function.flatten args).Yields good (Fault.IsEvaluation missing) := by
  unfold Function.flatten
  split
  · next items =>
    have hlist := hgood.list.mp (h _ List.mem_cons_self)
    exact yields_pure (hgood.list.mpr (hgood.listLeaves items hlist))
  · exact yields_fail trivial
  · exact yields_fail trivial

theorem stable_foldl_put (hgood : Value.IsStable bindings good) {more fields : Fields Value}
    (hmore : ∀ field ∈ more, good field.2) (hfields : good (.object fields)) :
    good (.object (more.foldl (fun fields field => Fields.put field.1 field.2 fields) fields)) := by
  induction more generalizing fields with
  | nil => exact hfields
  | cons first more ih =>
    obtain ⟨hfirst, hmore⟩ := List.forall_mem_cons.mp hmore
    exact ih hmore (hgood.put hfields hfirst)

theorem yields_mergeFields (hgood : Value.IsStable bindings good) {fields : Fields Value}
    {args : List Value} (hfields : good (.object fields)) (hargs : ∀ arg ∈ args, good arg) :
    (Function.mergeFields fields args).Yields (fun fields => good (.object fields))
      (Fault.IsEvaluation missing) := by
  induction args generalizing fields with
  | nil => exact yields_pure hfields
  | cons arg args ih =>
    obtain ⟨harg, hrest⟩ := List.forall_mem_cons.mp hargs
    cases arg with
    | null => exact ih hfields hrest
    | object more => exact ih (stable_foldl_put hgood (hgood.field harg) hfields) hrest
    | _ => exact yields_fail trivial

theorem yields_stageFile (hgood : Value.IsStable bindings good) (args : List Value) :
    (Function.stageFile args).Yields good (Fault.IsEvaluation missing) := by
  unfold Function.stageFile
  split
  · exact hgood.string _
  · exact yields_fail trivial
  · exact yields_fail trivial

theorem yields_function (hgood : Value.IsStable bindings good) {name : String} {args : List Value}
    (h : ∀ arg ∈ args, good arg) :
    (Function.apply name args).Yields good (Fault.IsEvaluation missing) := by
  unfold Function.apply
  split
  · exact yields_flatten hgood h
  split
  · exact (yields_mergeFields hgood hgood.noFields h).bind fun fields hfields => yields_pure hfields
  split
  · exact yields_stageFile hgood args
  · trivial

theorem yields_globalValue (hgood : Value.IsStable bindings good) {name : String}
    (h : ¬ bindings.contains name → missing name) :
    (globalValue bindings name).Yields good (Fault.IsEvaluation missing) := by
  unfold globalValue
  split
  · next hfind =>
    refine yields_fail (h ?_)
    rw [SortedMap.contains, hfind]
    exact Bool.false_ne_true
  · next hfind =>
    split
    · exact yields_fail trivial
    · next hliteral => exact yields_pure (hgood.binding hfind (Bool.eq_false_iff.mpr hliteral))

end Yields

namespace Term

variable {missing : String → Prop} {bindings : SortedMap Value} {good : Value → Prop}

/-- The names that evaluating some nodes asks for in vain are missing ones. -/
def Known (missing : String → Prop) (bindings : SortedMap Value) (nodes : List Term) : Prop :=
  ∀ node ∈ nodes, ∀ name, node.unknown? bindings = some name → missing name

theorem known_append {xs ys : List Term} :
    Known missing bindings (xs ++ ys) ↔ Known missing bindings xs ∧ Known missing bindings ys :=
  List.forall_mem_append

theorem Known.tail {t : Term} {nodes : List Term} (h : Known missing bindings (t :: nodes)) :
    Known missing bindings nodes := (List.forall_mem_cons.mp h).2

mutual

theorem eval_yields_of_isStable (hgood : Value.IsStable bindings good) : ∀ (t : Term),
    Known missing bindings t.nodes → (t.eval bindings).Yields good (Fault.IsEvaluation missing)
  | .null, _ => yields_pure hgood.null
  | .bool b, _ => yields_pure (hgood.bool b)
  | .number x, _ => yields_pure (hgood.number x)
  | .template parts, h =>
    (evalParts_yields parts h.tail hgood).bind fun text _ => yields_pure (hgood.string text)
  | .traversal root (.attribute name :: steps), h => by
    rw [eval]
    split
    · next hroot =>
      have hknown : ¬ bindings.contains name → missing name := fun hnot =>
        h _ List.mem_cons_self name (by simp [unknown?, hroot, hnot])
      exact (yields_globalValue hgood hknown).bind fun value hvalue =>
        evalSteps_yields hgood steps h.tail value hvalue
    split
    · exact yields_fail trivial
    · next hroot hmodule =>
      exact yields_fail (h _ List.mem_cons_self root (by simp [unknown?, hroot, hmodule]))
  | .traversal root [], h | .traversal root (.index _ :: _), h => by
    rw [eval]
    rotate_left
    · nofun
    split
    · exact yields_fail trivial
    split
    · exact yields_fail trivial
    · next hroot hmodule =>
      exact yields_fail (h _ List.mem_cons_self root (by simp [unknown?, hroot, hmodule]))
  | .relative source steps, h => by
    obtain ⟨hsource, hsteps⟩ := known_append.mp h.tail
    exact (eval_yields_of_isStable hgood source hsource).bind fun value hvalue =>
      evalSteps_yields hgood steps hsteps value hvalue
  | .call name args, h =>
    (evalList_yields hgood args h.tail).bind fun values hvalues => yields_function hgood hvalues
  | .tuple items, h =>
    (evalList_yields hgood items h.tail).bind fun values hvalues =>
      yields_pure (hgood.list.mpr hvalues)
  | .object items, h =>
    (evalItems_yields hgood items h.tail [] hgood.noFields).bind fun fields hfields =>
      yields_pure hfields
  | .unary op operand, h =>
    (eval_yields_of_isStable hgood operand h.tail).bind fun value _ => yields_unary hgood op value
  | .binary op left right, h => by
    obtain ⟨hleft, hright⟩ := known_append.mp h.tail
    exact (eval_yields_of_isStable hgood left hleft).bind fun a _ =>
      (eval_yields_of_isStable hgood right hright).bind fun b _ => yields_binary hgood op a b
  | .conditional condition yes no, h => by
    obtain ⟨hfirst, hno⟩ := known_append.mp h.tail
    obtain ⟨hcondition, hyes⟩ := known_append.mp hfirst
    refine (eval_yields_of_isStable hgood condition hcondition).bind fun value _ => ?_
    split
    · exact eval_yields_of_isStable hgood yes hyes
    · exact eval_yields_of_isStable hgood no hno
    · exact yields_fail trivial
  | .parens inner, h => eval_yields_of_isStable hgood inner h.tail
termination_by structural t => t

theorem evalParts_yields : ∀ (parts : List Part), Known missing bindings (partsNodes parts) →
    Value.IsStable bindings good →
      (evalParts bindings parts).Yields (fun _ => True) (Fault.IsEvaluation missing)
  | [], _, _ => yields_pure trivial
  | .literal text :: parts, h, hgood =>
    (evalParts_yields parts h hgood).bind fun _ _ => yields_pure trivial
  | .interpolation t :: parts, h, hgood => by
    obtain ⟨hterm, hparts⟩ := known_append.mp h
    exact (eval_yields_of_isStable hgood t hterm).bind fun value _ =>
      (yields_templateText value).bind fun _ _ =>
        (evalParts_yields parts hparts hgood).bind fun _ _ => yields_pure trivial
termination_by structural t => t

theorem evalSteps_yields (hgood : Value.IsStable bindings good) : ∀ (steps : List Step),
    Known missing bindings (stepsNodes steps) → ∀ value : Value, good value →
      (evalSteps bindings value steps).Yields good (Fault.IsEvaluation missing)
  | [], _, _, hvalue => yields_pure hvalue
  | .attribute name :: steps, h, value, hvalue =>
    (yields_member hgood hvalue).bind fun found hfound =>
      evalSteps_yields hgood steps h found hfound
  | .index t :: steps, h, value, hvalue => by
    obtain ⟨hterm, hsteps⟩ := known_append.mp h
    refine (eval_yields_of_isStable hgood t hterm).bind fun index _ => ?_
    split
    · exact (yields_member hgood hvalue).bind fun found hfound =>
        evalSteps_yields hgood steps hsteps found hfound
    · exact (yields_item hgood hvalue).bind fun found hfound =>
        evalSteps_yields hgood steps hsteps found hfound
    · exact yields_fail trivial
termination_by structural t => t

theorem evalList_yields (hgood : Value.IsStable bindings good) : ∀ (items : List Term),
    Known missing bindings (listNodes items) →
      (evalList bindings items).Yields (fun values => ∀ value ∈ values, good value)
        (Fault.IsEvaluation missing)
  | [], _ => yields_pure (List.forall_mem_nil _)
  | t :: items, h => by
    obtain ⟨hterm, hitems⟩ := known_append.mp h
    exact (eval_yields_of_isStable hgood t hterm).bind fun value hvalue =>
      (evalList_yields hgood items hitems).bind fun values hvalues =>
        yields_pure (List.forall_mem_cons.mpr ⟨hvalue, hvalues⟩)
termination_by structural t => t

theorem evalItems_yields (hgood : Value.IsStable bindings good) : ∀ (items : List Item),
    Known missing bindings (itemsNodes items) → ∀ fields : Fields Value, good (.object fields) →
      (evalItems bindings fields items).Yields (fun fields => good (.object fields))
        (Fault.IsEvaluation missing)
  | [], _, _, hfields => yields_pure hfields
  | .named name t :: items, h, fields, hfields => by
    obtain ⟨hterm, hitems⟩ := known_append.mp h
    exact (eval_yields_of_isStable hgood t hterm).bind fun value hvalue =>
      evalItems_yields hgood items hitems _ (hgood.put hfields hvalue)
  | .computed key t :: items, h, fields, hfields => by
    obtain ⟨hfirst, hitems⟩ := known_append.mp h
    obtain ⟨hkey, hterm⟩ := known_append.mp hfirst
    exact (eval_yields_of_isStable hgood key hkey).bind fun keyValue _ =>
      (yields_keyText keyValue).bind fun _ _ =>
        (eval_yields_of_isStable hgood t hterm).bind fun value hvalue =>
          evalItems_yields hgood items hitems _ (hgood.put hfields hvalue)
termination_by structural t => t

end

/-- A stable property that the variables have is one of every value that a tree comes to. -/
theorem good_of_eval (hgood : Value.IsStable bindings good) {t : Term} {value : Value}
    (h : (t.eval bindings).result = .ok value) : good value := by
  have hknown : Known (fun _ => True) bindings t.nodes := fun _ _ _ _ => trivial
  exact (eval_yields_of_isStable hgood t hknown).ok h

end Term

namespace Value

/-- Properties of values that a whole has from its parts. -/
structure IsCompositional (good : Value → Prop) : Prop where
  literal : ∀ {value}, value.IsLiteral → good value
  list : ∀ {items}, (∀ item ∈ items, good item) → good (.list items)
  object : ∀ {fields}, (∀ field ∈ fields, good field.2) → good (.object fields)

theorem isCompositional_isLiteral : IsCompositional IsLiteral :=
  ⟨id, isLiteral_list.mpr, isLiteral_object.mpr⟩

section MapExpressions

variable {good : Value → Prop} {bad : Fault → Prop} {f : Expression → Evaluation Value}

mutual

theorem mapExpressions_yields (hgood : IsCompositional good) : ∀ (value : Value),
    (∀ e, .expression e ∈ value.nodes → (f e).Yields good bad) →
      (value.mapExpressions f).Yields good bad
  | .null, _ | .bool _, _ | .number _, _ | .string _, _ => yields_pure (hgood.literal rfl)
  | .expression e, h => h e List.mem_cons_self
  | .list items, h =>
    (mapList_yields hgood items fun e he => h e (List.mem_cons_of_mem _ he)).bind fun _ hitems =>
      yields_pure (hgood.list hitems)
  | .object fields, h =>
    (mapFields_yields hgood fields fun e he => h e (List.mem_cons_of_mem _ he)).bind
      fun _ hfields => yields_pure (hgood.object hfields)
termination_by structural v => v

theorem mapList_yields (hgood : IsCompositional good) : ∀ (items : List Value),
    (∀ e, .expression e ∈ listNodes items → (f e).Yields good bad) →
      (mapList f items).Yields (fun items => ∀ item ∈ items, good item) bad
  | [], _ => yields_pure (List.forall_mem_nil _)
  | item :: items, h =>
    (mapExpressions_yields hgood item fun e he => h e (List.mem_append_left _ he)).bind
      fun _ hitem =>
        (mapList_yields hgood items fun e he => h e (List.mem_append_right _ he)).bind
          fun _ hitems => yields_pure (List.forall_mem_cons.mpr ⟨hitem, hitems⟩)
termination_by structural v => v

theorem mapFields_yields (hgood : IsCompositional good) : ∀ (fields : List (String × Value)),
    (∀ e, .expression e ∈ fieldsNodes fields → (f e).Yields good bad) →
      (mapFields f fields).Yields (fun fields => ∀ field ∈ fields, good field.2) bad
  | [], _ => yields_pure (List.forall_mem_nil _)
  | (_, value) :: fields, h =>
    (mapExpressions_yields hgood value fun e he => h e (List.mem_append_left _ he)).bind
      fun _ hvalue =>
        (mapFields_yields hgood fields fun e he => h e (List.mem_append_right _ he)).bind
          fun _ hfields => yields_pure (List.forall_mem_cons.mpr ⟨hvalue, hfields⟩)
termination_by structural v => v

end

end MapExpressions

theorem eval_yields {missing : String → Prop} {bindings : SortedMap Value} {value : Value}
    (h : ∀ e, .expression e ∈ value.nodes → Term.Known missing bindings e.term.nodes) :
    (value.eval bindings).YieldsLiteral missing :=
  mapExpressions_yields isCompositional_isLiteral value fun e he =>
    Term.eval_yields_of_isStable (isStable_isLiteral bindings) e.term (h e he)

theorem isLiteral_of_eval {bindings : SortedMap Value} {value literal : Value}
    (h : (value.eval bindings).result = .ok literal) : literal.IsLiteral := by
  have hknown : ∀ e, .expression e ∈ value.nodes →
      Term.Known (fun _ => True) bindings e.term.nodes := fun _ _ _ _ _ _ => trivial
  exact (eval_yields hknown).ok h

end Value

end ClusterBlueprint
