import ClusterBlueprint.Expression.Term
import ClusterBlueprint.Expression.Token
import ClusterBlueprint.Fault

/-!
From tokens to syntax trees.

The grammar, loosest first: a conditional; binary operators, grouped to the left, by precedence;
unary operators; steps; and what stands by itself.  Every reader returns the tokens it leaves with
the proof that they are fewer, so the readers end without a bound of their own.  A comma may follow
the last item of a list.
-/

namespace ClusterBlueprint

namespace Parser

structure Parsed (α : Type) (bound : Nat) where
  value : α
  rest : List Token
  within : rest.length < bound

/-- What was read from a part of the tokens. -/
def Parsed.widen {α : Type} {low high : Nat} (h : low ≤ high) (p : Parsed α low) :
    Parsed α high :=
  { p with within := Nat.lt_of_lt_of_le p.within h }

/-- A fault of the grammar. -/
def fault (message : String) : Fault := Cause.expression message

def expected (wanted : String) : List Token → Fault
  | [] => fault ("expected " ++ wanted ++ ", got end of expression")
  | token :: _ => fault ("expected " ++ wanted ++ ", got \"" ++ token.text ++ "\"")

def expect (token : Token) (tokens : List Token) : Checked (Parsed Unit tokens.length) :=
  match tokens with
  | [] => .error (expected ("\"" ++ token.text ++ "\"") [])
  | first :: rest =>
    if first = token then .ok ⟨(), rest, Nat.lt_succ_self _⟩
    else .error (expected ("\"" ++ token.text ++ "\"") (first :: rest))

def isReserved (name : String) : Bool := name = "true" || name = "false" || name = "null"

/-- Whether the tokens start with a name that is the root of a traversal: neither a reserved word
nor the name of a call. -/
def startsTraversal : List Token → Bool
  | .ident name :: rest => !isReserved name && rest.head? ≠ some .openParen
  | _ => false

/-- The bare key that the tokens start with, and what follows the sign after it. -/
def bareKey? (tokens : List Token) : Option (Parsed String tokens.length) :=
  match tokens with
  | .ident name :: .assign :: rest => some ⟨name, rest, Nat.lt_succ_of_lt (Nat.lt_succ_self _)⟩
  | .ident name :: .colon :: rest => some ⟨name, rest, Nat.lt_succ_of_lt (Nat.lt_succ_self _)⟩
  | _ => none

mutual

/-- An expression: a condition, which may choose between two more. -/
def expression (tokens : List Token) : Checked (Parsed Term tokens.length) := do
  let ⟨condition, rest, h⟩ ← binary 1 tokens
  match rest, h with
  | .question :: rest, h => do
    let ⟨yes, rest, h₁⟩ ← expression rest
    let ⟨(), rest, h₂⟩ ← expect .colon rest
    let ⟨no, rest, h₃⟩ ← expression rest
    .ok ⟨.conditional condition yes no, rest,
      Nat.lt_trans (Nat.lt_trans h₃ (Nat.lt_trans h₂ h₁)) (Nat.lt_of_succ_lt h)⟩
  | rest, h => .ok ⟨condition, rest, h⟩
termination_by tokens.length * 10 + 5
decreasing_by
  all_goals try simp only [List.length_cons] at *
  all_goals omega

/-- An operand and the operators after it that bind at least as tightly as `least`. -/
def binary (least : Nat) (tokens : List Token) : Checked (Parsed Term tokens.length) := do
  let ⟨left, rest, h⟩ ← unary tokens
  return (← binaryRest least left rest).widen h
termination_by tokens.length * 10 + 4
decreasing_by all_goals omega

/-- The operators after the operand `left` that bind at least as tightly as `least`. -/
def binaryRest (least : Nat) (left : Term) (tokens : List Token) :
    Checked (Parsed Term (tokens.length + 1)) :=
  match tokens with
  | .operator op :: rest =>
    if op.precedence < least then .ok ⟨left, .operator op :: rest, Nat.lt_succ_self _⟩
    else do
      let ⟨right, rest', h⟩ ← binary (op.precedence + 1) rest
      return (← binaryRest least (.binary op left right) rest').widen
        (Nat.le_add_right_of_le (Nat.le_add_right_of_le h))
  | tokens => .ok ⟨left, tokens, Nat.lt_succ_self _⟩
termination_by tokens.length * 10 + 6
decreasing_by
  all_goals try simp only [List.length_cons] at *
  all_goals omega

def unary (tokens : List Token) : Checked (Parsed Term tokens.length) :=
  match tokens with
  | .operator .sub :: rest => do
    let ⟨operand, rest, h⟩ ← unary rest
    .ok ⟨.unary .neg operand, rest, Nat.lt_succ_of_lt h⟩
  | .bang :: rest => do
    let ⟨operand, rest, h⟩ ← unary rest
    .ok ⟨.unary .not operand, rest, Nat.lt_succ_of_lt h⟩
  | tokens => stepped tokens
termination_by tokens.length * 10 + 3
decreasing_by
  all_goals try simp only [List.length_cons] at *
  all_goals omega

def stepped (tokens : List Token) : Checked (Parsed Term tokens.length) :=
  match tokens with
  | .ident root :: rest =>
    if startsTraversal (.ident root :: rest) then do
      let ⟨steps, rest, h⟩ ← steps rest
      .ok ⟨.traversal root steps, rest, h⟩
    else steppedValue (.ident root :: rest)
  | tokens => steppedValue tokens
termination_by tokens.length * 10 + 2
decreasing_by
  all_goals try simp only [List.length_cons] at *
  all_goals omega

def steppedValue (tokens : List Token) : Checked (Parsed Term tokens.length) := do
  let ⟨source, rest, h⟩ ← primary tokens
  let ⟨steps, rest, h₁⟩ ← steps rest
  .ok ⟨if steps.isEmpty then source else .relative source steps, rest,
    Nat.lt_of_lt_of_le h₁ h⟩
termination_by tokens.length * 10 + 1
decreasing_by all_goals omega

def steps (tokens : List Token) : Checked (Parsed (List Step) (tokens.length + 1)) :=
  match tokens with
  | .dot :: .ident name :: rest => do
    let ⟨more, rest, h⟩ ← steps rest
    .ok ⟨.attribute name :: more, rest, Nat.lt_succ_of_lt (Nat.lt_succ_of_lt h)⟩
  | .dot :: .number position :: rest => do
    let ⟨more, rest, h⟩ ← steps rest
    .ok ⟨.index (.number position) :: more, rest,
      Nat.lt_succ_of_lt (Nat.lt_succ_of_lt h)⟩
  | .dot :: token :: _ =>
    .error (fault ("expected attribute name after \".\", got \"" ++ token.text ++ "\""))
  | [.dot] => .error (fault "expected attribute name after \".\"")
  | .openBracket :: rest => do
    let ⟨index, rest, h⟩ ← expression rest
    let ⟨(), rest, h₁⟩ ← expect .closeBracket rest
    let ⟨more, rest, h₂⟩ ← steps rest
    .ok ⟨.index index :: more, rest,
      Nat.lt_add_right 2 (Nat.lt_of_lt_of_le h₂ (Nat.lt_trans h₁ h))⟩
  | tokens => .ok ⟨[], tokens, Nat.lt_succ_self _⟩
termination_by tokens.length * 10
decreasing_by
  all_goals try simp only [List.length_cons] at *
  all_goals omega

def primary (tokens : List Token) : Checked (Parsed Term tokens.length) :=
  match tokens with
  | .number value :: rest => .ok ⟨.number value, rest, Nat.lt_succ_self _⟩
  | .ident "true" :: rest => .ok ⟨.bool true, rest, Nat.lt_succ_self _⟩
  | .ident "false" :: rest => .ok ⟨.bool false, rest, Nat.lt_succ_self _⟩
  | .ident "null" :: rest => .ok ⟨.null, rest, Nat.lt_succ_self _⟩
  | .ident name :: rest => do
    let ⟨(), rest, h⟩ ← expect .openParen rest
    let ⟨args, rest, h₁⟩ ← items .closeParen rest
    .ok ⟨.call name args, rest, Nat.lt_succ_of_lt (Nat.lt_trans h₁ h)⟩
  | .openQuote :: rest => do
    let ⟨parts, rest, h⟩ ← template rest
    .ok ⟨.template parts, rest, Nat.lt_succ_of_lt h⟩
  | .openParen :: rest => do
    let ⟨inner, rest, h⟩ ← expression rest
    let ⟨(), rest, h₁⟩ ← expect .closeParen rest
    .ok ⟨.parens inner, rest, Nat.lt_succ_of_lt (Nat.lt_trans h₁ h)⟩
  | .openBracket :: rest => do
    let ⟨list, rest, h⟩ ← items .closeBracket rest
    .ok ⟨.tuple list, rest, Nat.lt_succ_of_lt h⟩
  | .openBrace :: rest => do
    let ⟨entries, rest, h⟩ ← object rest
    .ok ⟨.object entries, rest, Nat.lt_succ_of_lt h⟩
  | token :: _ => .error (fault ("unexpected \"" ++ token.text ++ "\""))
  | [] => .error (fault "unexpected end of expression")
termination_by tokens.length * 10
decreasing_by
  all_goals try simp only [List.length_cons] at *
  all_goals omega

/-- Expressions separated by commas, up to the token `close`. -/
def items (close : Token) (tokens : List Token) : Checked (Parsed (List Term) tokens.length) :=
  if tokens.head? = some close then
    match tokens with
    | [] => .error (expected ("\"" ++ close.text ++ "\"") [])
    | _ :: rest => .ok ⟨[], rest, Nat.lt_succ_self _⟩
  else do
    let ⟨first, rest, h⟩ ← expression tokens
    match rest, h with
    | .comma :: rest, h => do
      let ⟨more, rest, h₁⟩ ← items close rest
      .ok ⟨first :: more, rest, Nat.lt_trans h₁ (Nat.lt_of_succ_lt h)⟩
    | rest, h => do
      let ⟨(), rest, h₁⟩ ← expect close rest
      .ok ⟨[first], rest, Nat.lt_trans h₁ h⟩
termination_by tokens.length * 10 + 7
decreasing_by
  all_goals try simp only [List.length_cons] at *
  all_goals omega

/-- The pieces of a quoted text, up to the closing quote. -/
def template (tokens : List Token) : Checked (Parsed (List Part) tokens.length) :=
  match tokens with
  | .closeQuote :: rest => .ok ⟨[], rest, Nat.lt_succ_self _⟩
  | .literal text :: rest => do
    let ⟨more, rest, h⟩ ← template rest
    .ok ⟨.literal text :: more, rest, Nat.lt_succ_of_lt h⟩
  | .openInterpolation :: rest => do
    let ⟨inner, rest, h⟩ ← expression rest
    let ⟨(), rest, h₁⟩ ← expect .closeInterpolation rest
    let ⟨more, rest, h₂⟩ ← template rest
    .ok ⟨.interpolation inner :: more, rest,
      Nat.lt_succ_of_lt (Nat.lt_trans h₂ (Nat.lt_trans h₁ h))⟩
  | token :: _ => .error (fault ("unexpected \"" ++ token.text ++ "\" in template"))
  | [] => .error (fault "unterminated template")
termination_by tokens.length * 10
decreasing_by
  all_goals try simp only [List.length_cons] at *
  all_goals omega

/-- The entries of an object, up to the closing brace. -/
def object (tokens : List Token) : Checked (Parsed (List Item) tokens.length) :=
  match tokens with
  | .closeBrace :: rest => .ok ⟨[], rest, Nat.lt_succ_self _⟩
  | tokens =>
    match bareKey? tokens with
    | some ⟨name, rest, h⟩ => do
      let ⟨value, rest, h₁⟩ ← expression rest
      let ⟨more, rest, h₂⟩ ← objectRest rest
      .ok ⟨.named name value :: more, rest, Nat.lt_trans h₂ (Nat.lt_trans h₁ h)⟩
    | none => do
      let ⟨key, rest, h⟩ ← expression tokens
      match rest, h with
      | .assign :: rest, h => do
        let ⟨value, rest, h₁⟩ ← expression rest
        let ⟨more, rest, h₂⟩ ← objectRest rest
        .ok ⟨.computed key value :: more, rest,
          Nat.lt_trans (Nat.lt_trans h₂ h₁) (Nat.lt_of_succ_lt h)⟩
      | rest, h => do
        let ⟨(), rest, h₀⟩ ← expect .colon rest
        let ⟨value, rest, h₁⟩ ← expression rest
        let ⟨more, rest, h₂⟩ ← objectRest rest
        .ok ⟨.computed key value :: more, rest,
          Nat.lt_trans h₂ (Nat.lt_trans h₁ (Nat.lt_trans h₀ h))⟩
termination_by tokens.length * 10 + 7
decreasing_by
  all_goals try simp only [List.length_cons] at *
  all_goals omega

/-- What follows an entry of an object: a comma and further entries, or the closing brace. -/
def objectRest (tokens : List Token) : Checked (Parsed (List Item) tokens.length) :=
  match tokens with
  | .comma :: rest => do
    let ⟨more, rest, h⟩ ← object rest
    .ok ⟨more, rest, Nat.lt_succ_of_lt h⟩
  | tokens => do
    let ⟨(), rest, h⟩ ← expect .closeBrace tokens
    .ok ⟨[], rest, h⟩
termination_by tokens.length * 10
decreasing_by
  all_goals try simp only [List.length_cons] at *
  all_goals omega

end

end Parser

def Term.ofTokens (tokens : List Token) : Checked Term :=
  if tokens.isEmpty then .error (Parser.fault "empty expression")
  else do
    let ⟨term, rest, _⟩ ← Parser.expression tokens
    match rest with
    | [] => .ok term
    | extra :: _ =>
      .error (Parser.fault ("unexpected \"" ++ extra.text ++ "\" after expression"))

end ClusterBlueprint
