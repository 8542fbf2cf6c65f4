import ClusterBlueprint.Expression.Basic
import ClusterBlueprint.SortedMap

/-!
The values of settings and variables.

A value is plain data in which expressions may stand anywhere; it is literal if none does.
`Value.nodes` lists the values inside a value, and what a value refers to is read off that list.
-/

namespace ClusterBlueprint

inductive Value where
  | null
  | bool (value : Bool)
  | number (value : Number)
  | string (text : String)
  | list (items : List Value)
  | object (fields : List (String × Value))
  | expression (e : Expression)

namespace Value

instance : Inhabited Value := ⟨null⟩

def typeName : Value → String
  | null => "null"
  | bool _ => "bool"
  | number _ => "number"
  | string _ => "string"
  | list _ => "list"
  | object _ => "object"
  | expression _ => "expression"

def string? : Value → Option String
  | string text => some text
  | _ => none

def object? : Value → Option (Fields Value)
  | object fields => some fields
  | _ => none

def expression? : Value → Option Expression
  | expression e => some e
  | _ => none

def isNull : Value → Bool
  | null => true
  | _ => false

def isExpression : Value → Bool
  | expression _ => true
  | _ => false

def ofReference (reference : Reference) : Value := expression (.ofReference reference)

mutual

/-- The values inside a value, itself first. -/
def nodes : Value → List Value
  | list items => list items :: listNodes items
  | object fields => object fields :: fieldsNodes fields
  | value => [value]
termination_by structural v => v

def listNodes : List Value → List Value
  | [] => []
  | item :: rest => item.nodes ++ listNodes rest
termination_by structural v => v

def fieldsNodes : List (String × Value) → List Value
  | [] => []
  | (_, value) :: rest => value.nodes ++ fieldsNodes rest
termination_by structural v => v

end

def hasExpression (value : Value) : Bool := value.nodes.any isExpression

def references (value : Value) : List Reference :=
  (value.nodes.filterMap expression?).flatMap Expression.references

mutual

/-- The value with every expression replaced by its image, from left to right. -/
def mapExpressions {m : Type → Type} [Monad m] (f : Expression → m Value) : Value → m Value
  | expression e => f e
  | list items => do return list (← mapList f items)
  | object fields => do return object (← mapFields f fields)
  | value => pure value
termination_by structural v => v

def mapList {m : Type → Type} [Monad m] (f : Expression → m Value) : List Value → m (List Value)
  | [] => pure []
  | item :: rest => do
    let item ← item.mapExpressions f
    return item :: (← mapList f rest)
termination_by structural v => v

def mapFields {m : Type → Type} [Monad m] (f : Expression → m Value) :
    List (String × Value) → m (List (String × Value))
  | [] => pure []
  | (name, value) :: rest => do
    let value ← value.mapExpressions f
    return (name, value) :: (← mapFields f rest)
termination_by structural v => v

end

/-- An entry under a literal name: bare where the name is an identifier and no reserved word. -/
def itemOf (name : String) (value : Term) : Item :=
  match name.toList with
  | [] => .computed (.ofString name) value
  | first :: rest =>
    if Lexer.isIdentStart first && rest.all Lexer.isIdentContinue && !Parser.isReserved name then
      .named name value
    else .computed (.ofString name) value

mutual

/-- The tree whose value is this one. -/
def toTerm : Value → Term
  | null => .null
  | bool value => .bool value
  | number value => .number value
  | string text => .ofString text
  | list items => .tuple (listTerms items)
  | object fields => .object (fieldItems fields)
  | expression e => e.term
termination_by structural v => v

def listTerms : List Value → List Term
  | [] => []
  | item :: rest => item.toTerm :: listTerms rest
termination_by structural v => v

def fieldItems : List (String × Value) → List Item
  | [] => []
  | (name, value) :: rest => itemOf name value.toTerm :: fieldItems rest
termination_by structural v => v

end

def callOf (function : String) (args : List Value) : Expression := ⟨.call function (listTerms args)⟩

mutual

/-- Equality of values: numbers by value, expressions by their canonical text. -/
def equal : Value → Value → Bool
  | null, null => true
  | bool a, bool b => a == b
  | number a, number b => a.eq b
  | string a, string b => a == b
  | list a, list b => listEqual a b
  | object a, object b => fieldsEqual a b
  | expression a, expression b => a == b
  | _, _ => false
termination_by structural v => v

def listEqual : List Value → List Value → Bool
  | [], [] => true
  | a :: as, b :: bs => a.equal b && listEqual as bs
  | _, _ => false
termination_by structural v => v

def fieldsEqual : List (String × Value) → List (String × Value) → Bool
  | [], [] => true
  | (m, a) :: as, (n, b) :: bs => m == n && a.equal b && fieldsEqual as bs
  | _, _ => false
termination_by structural v => v

end

instance : BEq Value := ⟨equal⟩

end Value

end ClusterBlueprint
