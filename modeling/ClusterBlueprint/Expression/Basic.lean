import ClusterBlueprint.Expression.Lexer
import ClusterBlueprint.Expression.Parser
import ClusterBlueprint.Reference

/-!
Expressions: syntax trees known by their canonical text.

Two expressions are equal when their canonical texts are.  Reading one checks that every traversal
in it is a reference.
-/

namespace ClusterBlueprint

structure Expression where
  term : Term

namespace Expression

def text (e : Expression) : String := e.term.text

instance : BEq Expression := ⟨fun a b => a.text == b.text⟩

def ofTokens (tokens : List Token) : Checked Expression := do
  let term ← Term.ofTokens tokens
  term.traversals.forM fun (root, steps) => discard (Reference.ofTraversal root steps)
  return ⟨term⟩

/-- The expression that a source text spells. -/
def parse (source : String) : Checked Expression := do ofTokens (← Token.scan source)

/-- The tokens of the canonical text. -/
def tokens (e : Expression) : Checked (List Token) := Token.scan e.text

/-- Every reference in the expression, outer ones first; repetitions are kept. -/
def references (e : Expression) : List Reference :=
  e.term.traversals.filterMap fun (root, steps) => (Reference.ofTraversal root steps).toOption

def ofReference (reference : Reference) : Expression := ⟨reference.toTerm⟩

end Expression

end ClusterBlueprint
