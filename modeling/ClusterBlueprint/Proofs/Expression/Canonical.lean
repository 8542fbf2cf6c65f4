import ClusterBlueprint.Expression.Lexer
import ClusterBlueprint.Expression.Parser
import ClusterBlueprint.Expression.Printer
import ClusterBlueprint.Proofs.Number.Spelling

/-!
Canonical trees: the trees that some source text spells.

The printer adds no parentheses, so a tree can only be read back from its text if the operators in
it are nested the way the grammar nests them.  `Term.Canonical` says which trees these are, and
`Term.tokens` which tokens spell such a tree.
-/

namespace ClusterBlueprint

def Lexer.isIdentifier (name : String) : Bool :=
  match name.toList with
  | [] => false
  | first :: rest => isIdentStart first && rest.all isIdentContinue

/-- Whether a name can be the root of a traversal or the name of a call. -/
def Lexer.isName (name : String) : Bool := isIdentifier name && !Parser.isReserved name

theorem BinaryOperator.precedence_pos (op : BinaryOperator) : 0 < op.precedence := by
  cases op <;> decide

theorem BinaryOperator.precedence_lt (op : BinaryOperator) : op.precedence < 7 := by
  cases op <;> decide

/-- The token of a unary operator; a sign is the token of a difference. -/
def UnaryOperator.token : UnaryOperator → Token
  | neg => .operator .sub
  | not => .bang

namespace Term

/-- How tightly a tree holds together in the text around it: a conditional not at all, two operands
as their operator binds, and all other trees more than any operator. -/
def tightness : Term → Nat
  | conditional .. => 0
  | binary op .. => op.precedence
  | _ => 7

def isSource : Term → Bool
  | null | bool _ | number _ | template _ | call .. | tuple _ | object _ | parens _ => true
  | _ => false

/-- Whether a tree is a single word, which in place of a key would be read as a bare one. -/
def isBareWord : Term → Bool
  | null | bool _ | traversal _ [] => true
  | _ => false

/-- Whether literal text of a template may stand before some pieces: text before text would be one
text, and a dollar at its end would escape the interpolation after it. -/
def mayPrecede (text : String) : List Part → Prop
  | [] => True
  | .literal _ :: _ => False
  | .interpolation _ :: _ => text.toList.getLast? ≠ some '$'

mutual

/-- The trees that some source text spells. -/
def Canonical : Term → Prop
  | null | bool _ => True
  | number value => value.isWritable
  | template parts => CanonicalParts parts
  | traversal root steps => Lexer.isName root ∧ CanonicalSteps steps
  | relative source steps =>
    steps ≠ [] ∧ source.isSource ∧ source.Canonical ∧ CanonicalSteps steps
  | call name args => Lexer.isName name ∧ CanonicalList args
  | tuple items => CanonicalList items
  | object items => CanonicalItems items
  | unary _ operand => operand.tightness = 7 ∧ operand.Canonical
  | binary op left right =>
    op.precedence ≤ left.tightness ∧ op.precedence < right.tightness
      ∧ left.Canonical ∧ right.Canonical
  | conditional condition yes no =>
    0 < condition.tightness ∧ condition.Canonical ∧ yes.Canonical ∧ no.Canonical
  | parens inner => inner.Canonical
termination_by structural t => t

/-- `Canonical` for the pieces of a template. -/
def CanonicalParts : List Part → Prop
  | [] => True
  | .literal text :: rest => text ≠ "" ∧ mayPrecede text rest ∧ CanonicalParts rest
  | .interpolation term :: rest => term.Canonical ∧ CanonicalParts rest
termination_by structural t => t

def CanonicalSteps : List Step → Prop
  | [] => True
  | .attribute name :: rest => Lexer.isIdentifier name ∧ CanonicalSteps rest
  | .index term :: rest => term.Canonical ∧ CanonicalSteps rest
termination_by structural t => t

def CanonicalList : List Term → Prop
  | [] => True
  | term :: rest => term.Canonical ∧ CanonicalList rest
termination_by structural t => t

/-- `Canonical` for the entries of an object. -/
def CanonicalItems : List Item → Prop
  | [] => True
  | .named name value :: rest =>
    Lexer.isIdentifier name ∧ value.Canonical ∧ CanonicalItems rest
  | .computed key value :: rest =>
    ¬ key.isBareWord ∧ key.Canonical ∧ value.Canonical ∧ CanonicalItems rest
termination_by structural t => t

end

mutual

def tokens : Term → List Token
  | null => [.ident "null"]
  | bool value => [.ident (if value then "true" else "false")]
  | number value => [.number value]
  | template parts => .openQuote :: (partsTokens parts ++ [.closeQuote])
  | traversal root steps => .ident root :: stepsTokens steps
  | relative source steps => source.tokens ++ stepsTokens steps
  | call name args => .ident name :: .openParen :: (listTokens args ++ [.closeParen])
  | tuple items => .openBracket :: (listTokens items ++ [.closeBracket])
  | object items => .openBrace :: (itemsTokens items ++ [.closeBrace])
  | unary op operand => op.token :: operand.tokens
  | binary op left right => left.tokens ++ .operator op :: right.tokens
  | conditional condition yes no =>
    condition.tokens ++ .question :: (yes.tokens ++ .colon :: no.tokens)
  | parens inner => .openParen :: (inner.tokens ++ [.closeParen])
termination_by structural t => t

def partsTokens : List Part → List Token
  | [] => []
  | .literal text :: rest => .literal text :: partsTokens rest
  | .interpolation term :: rest =>
    .openInterpolation :: (term.tokens ++ .closeInterpolation :: partsTokens rest)
termination_by structural t => t

def stepsTokens : List Step → List Token
  | [] => []
  | .attribute name :: rest => .dot :: .ident name :: stepsTokens rest
  | .index term :: rest => .openBracket :: (term.tokens ++ .closeBracket :: stepsTokens rest)
termination_by structural t => t

def listTokens : List Term → List Token
  | [] => []
  | [term] => term.tokens
  | term :: next :: rest => term.tokens ++ .comma :: listTokens (next :: rest)
termination_by structural t => t

def itemsTokens : List Item → List Token
  | [] => []
  | [.named name value] => .ident name :: .assign :: value.tokens
  | [.computed key value] => key.tokens ++ .assign :: value.tokens
  | .named name value :: next :: rest =>
    .ident name :: .assign :: (value.tokens ++ .comma :: itemsTokens (next :: rest))
  | .computed key value :: next :: rest =>
    key.tokens ++ .assign :: (value.tokens ++ .comma :: itemsTokens (next :: rest))
termination_by structural t => t

end

theorem tightness_of_isSource {t : Term} (h : t.isSource) : t.tightness = 7 := by
  cases t <;> first | rfl | simp [isSource] at h

/-! ## The nodes of a canonical tree -/

theorem mem_nodes_self (t : Term) : t ∈ t.nodes := by cases t <;> exact List.mem_cons_self

mutual

theorem Canonical.of_mem_nodes : ∀ t : Term, t.Canonical → ∀ node ∈ t.nodes, node.Canonical
  | .null, h | .bool _, h | .number _, h => List.forall_mem_singleton.mpr h
  | .template parts, h => List.forall_mem_cons.mpr ⟨h, CanonicalParts.of_mem_nodes parts h⟩
  | .traversal _ steps, h => List.forall_mem_cons.mpr ⟨h, CanonicalSteps.of_mem_nodes steps h.2⟩
  | .relative source steps, h => by
    have ⟨_, _, hsource, hsteps⟩ := h
    exact List.forall_mem_cons.mpr ⟨h, List.forall_mem_append.mpr
      ⟨Canonical.of_mem_nodes source hsource, CanonicalSteps.of_mem_nodes steps hsteps⟩⟩
  | .call _ args, h => List.forall_mem_cons.mpr ⟨h, CanonicalList.of_mem_nodes args h.2⟩
  | .tuple items, h => List.forall_mem_cons.mpr ⟨h, CanonicalList.of_mem_nodes items h⟩
  | .object items, h => List.forall_mem_cons.mpr ⟨h, CanonicalItems.of_mem_nodes items h⟩
  | .unary _ operand, h => List.forall_mem_cons.mpr ⟨h, Canonical.of_mem_nodes operand h.2⟩
  | .binary _ left right, h => by
    have ⟨_, _, hleft, hright⟩ := h
    exact List.forall_mem_cons.mpr ⟨h, List.forall_mem_append.mpr
      ⟨Canonical.of_mem_nodes left hleft, Canonical.of_mem_nodes right hright⟩⟩
  | .conditional condition yes no, h => by
    have ⟨_, hcondition, hyes, hno⟩ := h
    exact List.forall_mem_cons.mpr ⟨h, List.forall_mem_append.mpr ⟨List.forall_mem_append.mpr
      ⟨Canonical.of_mem_nodes condition hcondition, Canonical.of_mem_nodes yes hyes⟩,
      Canonical.of_mem_nodes no hno⟩⟩
  | .parens inner, h => List.forall_mem_cons.mpr ⟨h, Canonical.of_mem_nodes inner h⟩
termination_by structural t => t

theorem CanonicalParts.of_mem_nodes : ∀ parts : List Part, CanonicalParts parts →
    ∀ node ∈ partsNodes parts, node.Canonical
  | [], _ => List.forall_mem_nil _
  | .literal _ :: parts, h => CanonicalParts.of_mem_nodes parts h.2.2
  | .interpolation t :: parts, h => List.forall_mem_append.mpr
    ⟨Canonical.of_mem_nodes t h.1, CanonicalParts.of_mem_nodes parts h.2⟩
termination_by structural t => t

theorem CanonicalSteps.of_mem_nodes : ∀ steps : List Step, CanonicalSteps steps →
    ∀ node ∈ stepsNodes steps, node.Canonical
  | [], _ => List.forall_mem_nil _
  | .attribute _ :: steps, h => CanonicalSteps.of_mem_nodes steps h.2
  | .index t :: steps, h => List.forall_mem_append.mpr
    ⟨Canonical.of_mem_nodes t h.1, CanonicalSteps.of_mem_nodes steps h.2⟩
termination_by structural t => t

theorem CanonicalList.of_mem_nodes : ∀ items : List Term, CanonicalList items →
    ∀ node ∈ listNodes items, node.Canonical
  | [], _ => List.forall_mem_nil _
  | t :: items, h => List.forall_mem_append.mpr
    ⟨Canonical.of_mem_nodes t h.1, CanonicalList.of_mem_nodes items h.2⟩
termination_by structural t => t

theorem CanonicalItems.of_mem_nodes : ∀ items : List Item, CanonicalItems items →
    ∀ node ∈ itemsNodes items, node.Canonical
  | [], _ => List.forall_mem_nil _
  | .named _ value :: items, h => List.forall_mem_append.mpr
    ⟨Canonical.of_mem_nodes value h.2.1, CanonicalItems.of_mem_nodes items h.2.2⟩
  | .computed key value :: items, h => by
    obtain ⟨-, hkey, hvalue, hitems⟩ := h
    exact List.forall_mem_append.mpr ⟨List.forall_mem_append.mpr
      ⟨Canonical.of_mem_nodes key hkey, Canonical.of_mem_nodes value hvalue⟩,
      CanonicalItems.of_mem_nodes items hitems⟩
termination_by structural t => t

end

end Term

end ClusterBlueprint
