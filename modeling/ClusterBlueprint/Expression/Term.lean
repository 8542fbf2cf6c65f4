import ClusterBlueprint.Expression.Operator
import ClusterBlueprint.Number.Basic

/-!
Syntax trees of the expression language.

`Term.nodes` lists a tree's nodes, each before the nodes below it, and `Term.traversals` the
traversals among them: what a tree refers to is read off that list.
-/

namespace ClusterBlueprint

mutual

inductive Term where
  | null
  | bool (value : Bool)
  | number (value : Number)
  /-- a quoted text, with interpolated expressions -/
  | template (parts : List Part)
  /-- steps from a named root, as in `var.x[0]` -/
  | traversal (root : String) (steps : List Step)
  /-- steps from a computed value, as in `merge(a, b).x` -/
  | relative (source : Term) (steps : List Step)
  | call (name : String) (args : List Term)
  | tuple (items : List Term)
  | object (items : List Item)
  | unary (op : UnaryOperator) (operand : Term)
  | binary (op : BinaryOperator) (left right : Term)
  | conditional (condition yes no : Term)
  | parens (inner : Term)

/-- A piece of a quoted text. -/
inductive Part where
  | literal (text : String)
  | interpolation (term : Term)

inductive Step where
  | attribute (name : String)
  | index (term : Term)

/-- An entry of an object, under a bare name or a computed key. -/
inductive Item where
  | named (name : String) (value : Term)
  | computed (key value : Term)

end

namespace Term

def ofString (text : String) : Term := .template [.literal text]

/-- The attributes of a name, one after the other. -/
def ofNames (root : String) (names : List String) : Term :=
  .traversal root (names.map Step.attribute)

mutual

/-- The nodes of a tree, each before the nodes below it. -/
def nodes : Term → List Term
  | null => [null]
  | bool value => [bool value]
  | number value => [number value]
  | template parts => template parts :: partsNodes parts
  | traversal root steps => traversal root steps :: stepsNodes steps
  | relative source steps => relative source steps :: (source.nodes ++ stepsNodes steps)
  | call name args => call name args :: listNodes args
  | tuple items => tuple items :: listNodes items
  | object items => object items :: itemsNodes items
  | unary op operand => unary op operand :: operand.nodes
  | binary op left right => binary op left right :: (left.nodes ++ right.nodes)
  | conditional condition yes no =>
    conditional condition yes no :: (condition.nodes ++ yes.nodes ++ no.nodes)
  | parens inner => parens inner :: inner.nodes
termination_by structural t => t

def partsNodes : List Part → List Term
  | [] => []
  | .literal _ :: rest => partsNodes rest
  | .interpolation term :: rest => term.nodes ++ partsNodes rest
termination_by structural t => t

def stepsNodes : List Step → List Term
  | [] => []
  | .attribute _ :: rest => stepsNodes rest
  | .index term :: rest => term.nodes ++ stepsNodes rest
termination_by structural t => t

def listNodes : List Term → List Term
  | [] => []
  | term :: rest => term.nodes ++ listNodes rest
termination_by structural t => t

def itemsNodes : List Item → List Term
  | [] => []
  | .named _ value :: rest => value.nodes ++ itemsNodes rest
  | .computed key value :: rest => key.nodes ++ value.nodes ++ itemsNodes rest
termination_by structural t => t

end

def asTraversal? : Term → Option (String × List Step)
  | traversal root steps => some (root, steps)
  | _ => none

def traversals (term : Term) : List (String × List Step) := term.nodes.filterMap asTraversal?

/-- What stands for the root of a traversal: another root and names after it. -/
abbrev Rerooting := String → String × List String

mutual

/-- The tree with the root of every traversal replaced; the steps stay behind it. -/
def reroot (place : Rerooting) : Term → Term
  | null => null
  | bool value => bool value
  | number value => number value
  | template parts => template (rerootParts place parts)
  | traversal root steps =>
    traversal (place root).1 ((place root).2.map Step.attribute ++ rerootSteps place steps)
  | relative source steps => relative (source.reroot place) (rerootSteps place steps)
  | call name args => call name (rerootList place args)
  | tuple items => tuple (rerootList place items)
  | object items => object (rerootItems place items)
  | unary op operand => unary op (operand.reroot place)
  | binary op left right => binary op (left.reroot place) (right.reroot place)
  | conditional condition yes no =>
    conditional (condition.reroot place) (yes.reroot place) (no.reroot place)
  | parens inner => parens (inner.reroot place)
termination_by structural t => t

def rerootParts (place : Rerooting) : List Part → List Part
  | [] => []
  | .literal text :: rest => .literal text :: rerootParts place rest
  | .interpolation term :: rest => .interpolation (term.reroot place) :: rerootParts place rest
termination_by structural t => t

def rerootSteps (place : Rerooting) : List Step → List Step
  | [] => []
  | .attribute name :: rest => .attribute name :: rerootSteps place rest
  | .index term :: rest => .index (term.reroot place) :: rerootSteps place rest
termination_by structural t => t

def rerootList (place : Rerooting) : List Term → List Term
  | [] => []
  | term :: rest => term.reroot place :: rerootList place rest
termination_by structural t => t

def rerootItems (place : Rerooting) : List Item → List Item
  | [] => []
  | .named name value :: rest => .named name (value.reroot place) :: rerootItems place rest
  | .computed key value :: rest =>
    .computed (key.reroot place) (value.reroot place) :: rerootItems place rest
termination_by structural t => t

end

end Term

end ClusterBlueprint
