import ClusterBlueprint.Evaluation

/-!
Staging in settings that are not evaluated.

The setting of a module is left for the deployment, but the files it stages have to be known before.
So each outermost `ghpc_stage` call is evaluated by itself and its tokens are replaced by those of
the destination's text; the rest of the expression stays as it is.
-/

namespace ClusterBlueprint.Staging

def depthAfter (depth : Nat) : Token → Nat
  | .openParen => depth + 1
  | .closeParen => depth - 1
  | _ => depth

/-- The tokens up to the parenthesis that closes the `depth` open ones, and those after it. -/
def splitAtClosing (depth : Nat) : List Token → Option (List Token × List Token)
  | [] => none
  | token :: rest =>
    if token = .closeParen && depthAfter depth token = 0 then some ([token], rest)
    else (splitAtClosing (depthAfter depth token) rest).map fun (inside, after) =>
      (token :: inside, after)

theorem length_splitAtClosing {depth : Nat} {tokens inside after : List Token}
    (h : splitAtClosing depth tokens = some (inside, after)) : after.length < tokens.length := by
  induction tokens generalizing depth inside with
  | nil => simp [splitAtClosing] at h
  | cons token rest ih =>
    simp only [splitAtClosing] at h
    split at h
    · simp only [Option.some.injEq, Prod.mk.injEq] at h
      rw [← h.2]
      exact Nat.lt_succ_self _
    · obtain ⟨⟨_, _⟩, hrest, hpair⟩ := Option.map_eq_some_iff.1 h
      simp only [Prod.mk.injEq] at hpair
      exact Nat.lt_succ_of_lt (ih (hpair.2 ▸ hrest))

def callDestination (bindings : SortedMap Value) (call : List Token) : Evaluation String := do
  let call ← .ofChecked (Expression.ofTokens call)
  if call.references.any (!·.isGlobal) then
    .fail (.expression (Function.stageName ++ " argument can only reference global variables: "
      ++ call.text))
  else
    match ← call.eval bindings with
    | .string destination => pure destination
    | _ => .failType (Function.stageName ++ " must produce a string")

def textTokens (text : String) : List Token :=
  .openQuote :: (if text.isEmpty then [] else [.literal text]) ++ [.closeQuote]

/-- The tokens with every outermost staging call replaced, and whether there was one. -/
def replaceCalls (bindings : SortedMap Value) (tokens : List Token) :
    Evaluation (List Token × Bool) :=
  match tokens with
  | [] => pure ([], false)
  | token :: rest =>
    if token = .ident Function.stageName && rest.head? = some .openParen then
      match h : splitAtClosing 0 rest with
      | none =>
        .fail (.expression ("unbalanced parentheses in " ++ Function.stageName ++ " call"))
      | some (inside, after) => do
        have := length_splitAtClosing h
        let destination ← callDestination bindings (token :: inside)
        let (more, _) ← replaceCalls bindings after
        return (textTokens destination ++ more, true)
    else do
      let (more, replaced) ← replaceCalls bindings rest
      return (token :: more, replaced)
termination_by tokens.length

def plainText? : List Part → Option String
  | [] => some ""
  | .literal text :: rest => (plainText? rest).map (text ++ ·)
  | .interpolation _ :: _ => none

/-- The value of an expression whose staging calls are replaced: a plain text is no expression any
more. -/
def valueOf (e : Expression) : Value :=
  match e.term with
  | .template parts =>
    match plainText? parts with
    | some text => .string text
    | none => .expression e
  | _ => .expression e

/-- The expression with its staging calls replaced, or none if it has no such call. -/
def stageExpression? (bindings : SortedMap Value) (e : Expression) : Evaluation (Option Value) := do
  let tokens ← .ofChecked e.tokens
  let (tokens, replaced) ← replaceCalls bindings tokens
  if replaced then
    return some (valueOf (← .ofChecked (Expression.ofTokens tokens)))
  else return none

/-- The value with the staging calls of every expression in it replaced. -/
def stageValue (bindings : SortedMap Value) (value : Value) : Evaluation Value :=
  value.mapExpressions fun e => do
    return (← stageExpression? bindings e).getD (.expression e)

end ClusterBlueprint.Staging
