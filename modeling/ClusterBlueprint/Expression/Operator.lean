/-!
The operators of the expression language and how tightly they bind.
-/

namespace ClusterBlueprint

inductive BinaryOperator where
  | or | and
  | equal | notEqual
  | less | lessEqual | greater | greaterEqual
  | add | sub
  | mul | div | mod
deriving DecidableEq

namespace BinaryOperator

def text : BinaryOperator → String
  | or => "||"
  | and => "&&"
  | equal => "=="
  | notEqual => "!="
  | less => "<"
  | lessEqual => "<="
  | greater => ">"
  | greaterEqual => ">="
  | add => "+"
  | sub => "-"
  | mul => "*"
  | div => "/"
  | mod => "%"

/-- The higher the number, the tighter the operator binds. -/
def precedence : BinaryOperator → Nat
  | or => 1
  | and => 2
  | equal | notEqual => 3
  | less | lessEqual | greater | greaterEqual => 4
  | add | sub => 5
  | mul | div | mod => 6

end BinaryOperator

inductive UnaryOperator where
  | neg | not
deriving DecidableEq

def UnaryOperator.text : UnaryOperator → String
  | neg => "-"
  | not => "!"

end ClusterBlueprint
