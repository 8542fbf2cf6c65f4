import ClusterBlueprint.Expression.Term
import ClusterBlueprint.Expression.Token

/-!
The canonical text of syntax trees.

Operators stand between single spaces, lists are separated by a comma and a space, and the keys of
objects are followed by an equals sign.  No parentheses are added: a tree read from source text
carries its own.
-/

namespace ClusterBlueprint

namespace Term

mutual

def text : Term → String
  | null => "null"
  | bool value => if value then "true" else "false"
  | number value => value.source
  | template parts => "\"" ++ partsText parts ++ "\""
  | traversal root steps => root ++ stepsText steps
  | relative source steps => source.text ++ stepsText steps
  | call name args => name ++ "(" ++ listText args ++ ")"
  | tuple items => "[" ++ listText items ++ "]"
  | object items => "\x7b" ++ itemsText items ++ "\x7d"
  | unary op operand => op.text ++ operand.text
  | binary op left right => left.text ++ " " ++ op.text ++ " " ++ right.text
  | conditional condition yes no => condition.text ++ " ? " ++ yes.text ++ " : " ++ no.text
  | parens inner => "(" ++ inner.text ++ ")"
termination_by structural t => t

def partsText : List Part → String
  | [] => ""
  | .literal text :: rest => Token.literalText text ++ partsText rest
  | .interpolation term :: rest => "$\x7b" ++ term.text ++ "\x7d" ++ partsText rest
termination_by structural t => t

def stepsText : List Step → String
  | [] => ""
  | .attribute name :: rest => "." ++ name ++ stepsText rest
  | .index term :: rest => "[" ++ term.text ++ "]" ++ stepsText rest
termination_by structural t => t

def listText : List Term → String
  | [] => ""
  | [term] => term.text
  | term :: next :: rest => term.text ++ ", " ++ listText (next :: rest)
termination_by structural t => t

def itemsText : List Item → String
  | [] => ""
  | [.named name value] => name ++ " = " ++ value.text
  | [.computed key value] => key.text ++ " = " ++ value.text
  | .named name value :: next :: rest =>
    name ++ " = " ++ value.text ++ ", " ++ itemsText (next :: rest)
  | .computed key value :: next :: rest =>
    key.text ++ " = " ++ value.text ++ ", " ++ itemsText (next :: rest)
termination_by structural t => t

end

end Term

end ClusterBlueprint
