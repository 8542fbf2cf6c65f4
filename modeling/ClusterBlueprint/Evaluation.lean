import ClusterBlueprint.StagedFiles
import ClusterBlueprint.Value

/-!
The evaluation of expressions.

Evaluating an expression needs the values of the global variables and nothing else.  What a
`ghpc_stage` call returns depends on its argument alone; an evaluation lists the sources it staged,
also if it fails afterwards, and `StagedFiles.recordAll` enters them into a table.
-/

namespace ClusterBlueprint

/-- The outcome of an evaluation, and the sources that were staged on the way, in order. -/
structure Evaluation (α : Type) where
  staged : List String
  result : Checked α

namespace Evaluation

protected def pure {α : Type} (a : α) : Evaluation α := ⟨[], .ok a⟩

protected def bind {α β : Type} (x : Evaluation α) (f : α → Evaluation β) : Evaluation β :=
  match x.result with
  | .error fault => ⟨x.staged, .error fault⟩
  | .ok a => ⟨x.staged ++ (f a).staged, (f a).result⟩

instance : Monad Evaluation where
  pure := Evaluation.pure
  bind := Evaluation.bind

def ofChecked {α : Type} (result : Checked α) : Evaluation α := ⟨[], result⟩

def fail {α : Type} (cause : Cause) : Evaluation α := ⟨[], .error cause⟩

def failType {α : Type} (message : String) : Evaluation α := fail (.type message)

/-- An evaluation that stages a source; its value is the destination. -/
def stage (source : String) : Evaluation String :=
  ⟨[source], .ok (StagedFiles.destination source)⟩

def located {α : Type} (place : Location) (x : Evaluation α) : Evaluation α :=
  { x with result := x.result.mapError (Fault.located place) }

end Evaluation

open Evaluation

namespace Value

def member (name : String) : Value → Evaluation Value
  | object fields =>
    match Fields.find? name fields with
    | some value => pure value
    | none => fail (.expression ("object has no attribute " ++ Text.quoted name))
  | value =>
    failType ("cannot access attribute " ++ Text.quoted name ++ " of a " ++ value.typeName
      ++ " value")

/-- The item at a position, which has to be a whole number within the list; of an object, the field
named by the number. -/
def item (position : Number) : Value → Evaluation Value
  | list items =>
    let found? := do
      let n ← position.toInt?
      if 0 ≤ n then items[n.toNat]? else none
    match found? with
    | some value => pure value
    | none =>
      fail (.expression ("invalid index " ++ position.source ++ " for list of length "
        ++ toString items.length))
  | object fields => member position.source (object fields)
  | value => failType ("cannot index a " ++ value.typeName ++ " value")

def templateText : Value → Evaluation String
  | string text => pure text
  | number value => pure value.source
  | bool value => pure (if value then "true" else "false")
  | value => failType ("cannot include a " ++ value.typeName ++ " value in a string template")

def keyText : Value → Evaluation String
  | string text => pure text
  | number value => pure value.source
  | value => failType ("object key must be a string, got " ++ value.typeName)

mutual

/-- The items of nested lists, from left to right. -/
def leaves : Value → List Value
  | list items => listLeaves items
  | value => [value]
termination_by structural v => v

def listLeaves : List Value → List Value
  | [] => []
  | item :: rest => item.leaves ++ listLeaves rest
termination_by structural v => v

end

end Value

def UnaryOperator.apply : UnaryOperator → Value → Evaluation Value
  | .neg, .number x => pure (.number x.neg)
  | .not, .bool b => pure (.bool (!b))
  | _, value => failType ("invalid operand type " ++ value.typeName ++ " for unary operator")

namespace BinaryOperator

def onBools (f : Bool → Bool → Bool) : Value → Value → Evaluation Value
  | .bool a, .bool b => pure (.bool (f a b))
  | left, right =>
    failType ("logical operators require bools, got " ++ left.typeName ++ " and "
      ++ right.typeName)

def onNumbers (f : Number → Number → Evaluation Value) : Value → Value → Evaluation Value
  | .number a, .number b => f a b
  | left, right =>
    failType ("arithmetic and comparison operators require numbers, got " ++ left.typeName
      ++ " and " ++ right.typeName)

def dividing (f : Number → Number → Number) (a b : Number) : Evaluation Value :=
  if b.isZero then fail (.expression "division by zero") else pure (.number (f a b))

def apply : BinaryOperator → Value → Value → Evaluation Value
  | equal => fun a b => pure (.bool (a == b))
  | notEqual => fun a b => pure (.bool (a != b))
  | and => onBools Bool.and
  | or => onBools Bool.or
  | less => onNumbers fun a b => pure (.bool (a.lt b))
  | lessEqual => onNumbers fun a b => pure (.bool (a.le b))
  | greater => onNumbers fun a b => pure (.bool (b.lt a))
  | greaterEqual => onNumbers fun a b => pure (.bool (b.le a))
  | add => onNumbers fun a b => pure (.number (a.add b))
  | sub => onNumbers fun a b => pure (.number (a.sub b))
  | mul => onNumbers fun a b => pure (.number (a.mul b))
  | div => onNumbers (dividing Number.div)
  | mod => onNumbers (dividing Number.rem)

end BinaryOperator

namespace Function

def stageName : String := "ghpc_stage"

def names : List String := ["flatten", "merge", stageName]

def flatten : List Value → Evaluation Value
  | [.list items] => pure (.list (Value.listLeaves items))
  | [value] => failType ("flatten argument must be a list, got " ++ value.typeName)
  | args => failType ("flatten takes exactly one argument, got " ++ toString args.length)

/-- The fields of some objects in one object, later ones over earlier ones; null has no fields. -/
def mergeFields (fields : Fields Value) : List Value → Evaluation (Fields Value)
  | [] => pure fields
  | .null :: rest => mergeFields fields rest
  | .object more :: rest =>
    mergeFields (more.foldl (fun fields field => fields.put field.1 field.2) fields) rest
  | value :: _ => failType ("merge arguments must be objects, got " ++ value.typeName)

def stageFile : List Value → Evaluation Value
  | [.string source] => do return .string (← stage source)
  | [value] => failType (stageName ++ " argument must be a string, got " ++ value.typeName)
  | args => failType (stageName ++ " takes exactly one argument, got " ++ toString args.length)

def apply (name : String) (args : List Value) : Evaluation Value :=
  if name = "flatten" then flatten args
  else if name = "merge" then do return .object (← mergeFields [] args)
  else if name = stageName then stageFile args
  else
    .ofChecked (.error (.hinted (Cause.unsupportedFunction name)
      ("this context only supports following functions: " ++ ", ".intercalate names)))

end Function

/-- The value of a global variable, which has to be evaluated itself. -/
def globalValue (bindings : SortedMap Value) (name : String) : Evaluation Value :=
  match bindings.find? name with
  | none => fail (.unknownVariable name)
  | some value =>
    if value.hasExpression then
      fail (.expression ("global variable " ++ Text.quoted name ++ " has not been evaluated"))
    else pure value

namespace Term

mutual

def eval (bindings : SortedMap Value) : Term → Evaluation Value
  | null => pure .null
  | bool value => pure (.bool value)
  | number value => pure (.number value)
  | template parts => do return .string (← evalParts bindings parts)
  | traversal root steps =>
    if root = Reference.globalRoot then
      match steps with
      | .attribute name :: rest => do
        let value ← globalValue bindings name
        evalSteps bindings value rest
      | steps =>
        fail (.expression
          ("invalid reference to global variables: " ++ (traversal root steps).text))
    else if root = Reference.moduleRoot then
      fail (.expression ("module output " ++ (traversal root steps).text
        ++ " cannot be evaluated, its value is only known at deployment time"))
    else fail (.unknownVariable root)
  | relative source steps => do
    let value ← source.eval bindings
    evalSteps bindings value steps
  | call name args => do
    let values ← evalList bindings args
    Function.apply name values
  | tuple items => do return .list (← evalList bindings items)
  | object items => do return .object (← evalItems bindings [] items)
  | unary op operand => do
    let value ← operand.eval bindings
    op.apply value
  | binary op left right => do
    let a ← left.eval bindings
    let b ← right.eval bindings
    op.apply a b
  | conditional condition yes no => do
    match ← condition.eval bindings with
    | .bool true => yes.eval bindings
    | .bool false => no.eval bindings
    | value => failType ("condition must be a bool, got " ++ value.typeName)
  | parens inner => inner.eval bindings
termination_by structural t => t

def evalParts (bindings : SortedMap Value) : List Part → Evaluation String
  | [] => pure ""
  | .literal text :: rest => do return text ++ (← evalParts bindings rest)
  | .interpolation term :: rest => do
    let value ← term.eval bindings
    let text ← value.templateText
    return text ++ (← evalParts bindings rest)
termination_by structural t => t

def evalSteps (bindings : SortedMap Value) (value : Value) : List Step → Evaluation Value
  | [] => pure value
  | .attribute name :: rest => do
    let value ← value.member name
    evalSteps bindings value rest
  | .index term :: rest => do
    match ← term.eval bindings with
    | .string name => do
      let value ← value.member name
      evalSteps bindings value rest
    | .number position => do
      let value ← value.item position
      evalSteps bindings value rest
    | index => failType ("invalid index type " ++ index.typeName)
termination_by structural t => t

def evalList (bindings : SortedMap Value) : List Term → Evaluation (List Value)
  | [] => pure []
  | term :: rest => do
    let value ← term.eval bindings
    return value :: (← evalList bindings rest)
termination_by structural t => t

/-- The fields so far and those of some entries, later ones over earlier ones. -/
def evalItems (bindings : SortedMap Value) (fields : Fields Value) :
    List Item → Evaluation (Fields Value)
  | [] => pure fields
  | .named name term :: rest => do
    let value ← term.eval bindings
    evalItems bindings (fields.put name value) rest
  | .computed key term :: rest => do
    let name ← (← key.eval bindings).keyText
    let value ← term.eval bindings
    evalItems bindings (fields.put name value) rest
termination_by structural t => t

end

end Term

def Expression.eval (bindings : SortedMap Value) (e : Expression) : Evaluation Value :=
  e.term.eval bindings

def Value.eval (bindings : SortedMap Value) (value : Value) : Evaluation Value :=
  value.mapExpressions (Expression.eval bindings)

end ClusterBlueprint
