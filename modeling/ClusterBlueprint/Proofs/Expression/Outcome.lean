import ClusterBlueprint.Expression.Parser
import ClusterBlueprint.Proofs.Checked

/-!
What the readers of the grammar read, without the proof that they leave fewer tokens.

`Parser.outcome` forgets that proof.  Each reader has one equation between outcomes, so the proofs
about the grammar never open a reader.
-/

namespace ClusterBlueprint.Parser

variable {α β : Type} {bound within : Nat}

def outcome (read : Checked (Parsed α bound)) : Checked (α × List Token) :=
  read.map fun p => (p.value, p.rest)

theorem outcome_error (failure : Fault) :
    outcome (.error failure : Checked (Parsed α bound)) = .error failure := rfl

theorem outcome_ok (p : Parsed α bound) : outcome (.ok p) = .ok (p.value, p.rest) := rfl

theorem outcome_bind {read : Checked (Parsed β within)}
    {next : Parsed β within → Checked (Parsed α bound)}
    {after : β × List Token → Checked (α × List Token)}
    (h : ∀ p, outcome (next p) = after (p.value, p.rest)) :
    outcome (read >>= next) = outcome read >>= after := by
  cases read with
  | error fault => rfl
  | ok p => exact h p

theorem outcome_widen {low high : Nat} (h : low ≤ high) (read : Checked (Parsed α low)) :
    outcome (read >>= fun p => pure (p.widen h)) = outcome read := by
  cases read <;> rfl

theorem length_of_outcome {read : Checked (Parsed α bound)} {value : α} {rest : List Token}
    (h : outcome read = .ok (value, rest)) : rest.length < bound := by
  cases read with
  | error fault => exact absurd h (by simp [outcome, Except.map])
  | ok p =>
    obtain ⟨-, rfl⟩ := Prod.mk.inj (Except.ok.inj h)
    exact p.within

theorem outcome_expect_self (token : Token) (rest : List Token) :
    outcome (expect token (token :: rest)) = .ok ((), rest) := by
  rw [expect, if_pos rfl]
  rfl

theorem eq_cons_of_outcome_expect {token : Token} {tokens rest : List Token} {value : Unit}
    (h : outcome (expect token tokens) = .ok (value, rest)) : tokens = token :: rest := by
  unfold expect at h
  split at h
  · exact absurd h (by simp [outcome, Except.map])
  · split at h
    · next heq =>
      obtain ⟨-, rfl⟩ := Prod.mk.inj (Except.ok.inj h)
      rw [heq]
    · exact absurd h (by simp [outcome, Except.map])

/-! ## What succeeded -/

theorem of_outcome_bind {γ : Type} {read : Checked (Parsed α bound)}
    {next : α × List Token → Checked γ} {result : γ}
    (h : (outcome read >>= next) = .ok result) :
    ∃ value rest, outcome read = .ok (value, rest) ∧ rest.length < bound
      ∧ next (value, rest) = .ok result := by
  obtain ⟨⟨value, rest⟩, hread, hnext⟩ := Checked.bind_eq_ok.mp h
  exact ⟨value, rest, hread, length_of_outcome hread, hnext⟩

theorem of_expect_bind {γ : Type} {token : Token} {tokens : List Token}
    {next : Unit × List Token → Checked γ} {result : γ}
    (h : (outcome (expect token tokens) >>= next) = .ok result) :
    ∃ rest, tokens = token :: rest ∧ next ((), rest) = .ok result := by
  obtain ⟨_, rest, hexpect, -, hnext⟩ := of_outcome_bind h
  exact ⟨rest, eq_cons_of_outcome_expect hexpect, hnext⟩

/-! ## The readers -/

theorem outcome_expression (tokens : List Token) :
    outcome (expression tokens) = (do
      let ⟨condition, rest⟩ ← outcome (binary 1 tokens)
      match rest with
      | .question :: rest => do
        let ⟨yes, rest⟩ ← outcome (expression rest)
        let ⟨_, rest⟩ ← outcome (expect .colon rest)
        let ⟨no, rest⟩ ← outcome (expression rest)
        .ok (.conditional condition yes no, rest)
      | rest => .ok (condition, rest)) := by
  rw [expression]
  refine outcome_bind fun ⟨condition, rest, h⟩ => ?_
  dsimp only
  split
  · exact outcome_bind fun _ => outcome_bind fun _ => outcome_bind fun _ => rfl
  · next hnot =>
    split
    · exact (hnot _ h rfl HEq.rfl).elim
    · rfl

theorem outcome_binary (least : Nat) (tokens : List Token) :
    outcome (binary least tokens) = (do
      let ⟨left, rest⟩ ← outcome (unary tokens)
      outcome (binaryRest least left rest)) := by
  rw [binary]
  exact outcome_bind fun _ => outcome_widen _ _

theorem outcome_binaryRest_operator (least : Nat) (left : Term) (op : BinaryOperator)
    (rest : List Token) :
    outcome (binaryRest least left (.operator op :: rest)) =
      if op.precedence < least then .ok (left, .operator op :: rest)
      else (do
        let ⟨right, rest⟩ ← outcome (binary (op.precedence + 1) rest)
        outcome (binaryRest least (.binary op left right) rest)) := by
  rw [binaryRest]
  split
  · rfl
  · exact outcome_bind fun _ => outcome_widen _ _

theorem outcome_binaryRest {least : Nat} {left : Term} {tokens : List Token}
    (h : ∀ op rest, tokens ≠ .operator op :: rest) :
    outcome (binaryRest least left tokens) = .ok (left, tokens) := by
  rw [binaryRest.eq_def]
  split
  · exact absurd rfl (h _ _)
  · rfl

theorem outcome_unary (tokens : List Token) :
    outcome (unary tokens) =
      (match tokens with
      | .operator .sub :: rest => do
        let ⟨operand, rest⟩ ← outcome (unary rest)
        .ok (.unary .neg operand, rest)
      | .bang :: rest => do
        let ⟨operand, rest⟩ ← outcome (unary rest)
        .ok (.unary .not operand, rest)
      | tokens => outcome (stepped tokens)) := by
  rw [unary.eq_def]
  split
  · exact outcome_bind fun _ => rfl
  · exact outcome_bind fun _ => rfl
  · simp only [*]

theorem outcome_stepped (tokens : List Token) :
    outcome (stepped tokens) =
      (match tokens with
      | .ident root :: rest =>
        if startsTraversal (.ident root :: rest) then do
          let ⟨steps, rest⟩ ← outcome (steps rest)
          .ok (.traversal root steps, rest)
        else outcome (steppedValue (.ident root :: rest))
      | tokens => outcome (steppedValue tokens)) := by
  rw [stepped.eq_def]
  split
  · dsimp only
    split
    · exact outcome_bind fun _ => rfl
    · rfl
  · simp only [*]

theorem outcome_steppedValue (tokens : List Token) :
    outcome (steppedValue tokens) = (do
      let ⟨source, rest⟩ ← outcome (primary tokens)
      let ⟨steps, rest⟩ ← outcome (steps rest)
      .ok (if steps.isEmpty then source else .relative source steps, rest)) := by
  rw [steppedValue]
  exact outcome_bind fun _ => outcome_bind fun _ => rfl

theorem outcome_steps (tokens : List Token) :
    outcome (steps tokens) =
      (match tokens with
      | .dot :: .ident name :: rest => do
        let ⟨more, rest⟩ ← outcome (steps rest)
        .ok (.attribute name :: more, rest)
      | .dot :: .number position :: rest => do
        let ⟨more, rest⟩ ← outcome (steps rest)
        .ok (.index (.number position) :: more, rest)
      | .dot :: token :: _ =>
        .error (fault ("expected attribute name after \".\", got \"" ++ token.text ++ "\""))
      | [.dot] => .error (fault "expected attribute name after \".\"")
      | .openBracket :: rest => do
        let ⟨index, rest⟩ ← outcome (expression rest)
        let ⟨_, rest⟩ ← outcome (expect .closeBracket rest)
        let ⟨more, rest⟩ ← outcome (steps rest)
        .ok (.index index :: more, rest)
      | tokens => .ok ([], tokens)) := by
  rw [steps.eq_def]
  split
  · exact outcome_bind fun _ => rfl
  · exact outcome_bind fun _ => rfl
  · simp only [outcome_error, *]
  · rfl
  · exact outcome_bind fun _ => outcome_bind fun _ => outcome_bind fun _ => rfl
  · simp only [outcome_ok, *]

theorem outcome_primary (tokens : List Token) :
    outcome (primary tokens) =
      (match tokens with
      | .number value :: rest => .ok (.number value, rest)
      | .ident "true" :: rest => .ok (.bool true, rest)
      | .ident "false" :: rest => .ok (.bool false, rest)
      | .ident "null" :: rest => .ok (.null, rest)
      | .ident name :: rest => do
        let ⟨_, rest⟩ ← outcome (expect .openParen rest)
        let ⟨args, rest⟩ ← outcome (items .closeParen rest)
        .ok (.call name args, rest)
      | .openQuote :: rest => do
        let ⟨parts, rest⟩ ← outcome (template rest)
        .ok (.template parts, rest)
      | .openParen :: rest => do
        let ⟨inner, rest⟩ ← outcome (expression rest)
        let ⟨_, rest⟩ ← outcome (expect .closeParen rest)
        .ok (.parens inner, rest)
      | .openBracket :: rest => do
        let ⟨list, rest⟩ ← outcome (items .closeBracket rest)
        .ok (.tuple list, rest)
      | .openBrace :: rest => do
        let ⟨entries, rest⟩ ← outcome (object rest)
        .ok (.object entries, rest)
      | token :: _ => .error (fault ("unexpected \"" ++ token.text ++ "\""))
      | [] => .error (fault "unexpected end of expression")) := by
  rw [primary.eq_def]
  split
  · rfl
  · rfl
  · rfl
  · rfl
  · simp only [*]
    exact outcome_bind fun _ => outcome_bind fun _ => rfl
  · exact outcome_bind fun _ => rfl
  · exact outcome_bind fun _ => outcome_bind fun _ => rfl
  · exact outcome_bind fun _ => rfl
  · exact outcome_bind fun _ => rfl
  · simp only [outcome_error, *]
  · rfl

theorem outcome_primary_ident {name : String} (h : ¬ isReserved name) (rest : List Token) :
    outcome (primary (.ident name :: rest)) = (do
      let ⟨_, rest⟩ ← outcome (expect .openParen rest)
      let ⟨args, rest⟩ ← outcome (items .closeParen rest)
      .ok (.call name args, rest)) := by
  simp only [isReserved, Bool.or_eq_true, decide_eq_true_eq, not_or] at h
  obtain ⟨⟨htrue, hfalse⟩, hnull⟩ := h
  rw [outcome_primary]
  simp only [*]

theorem outcome_items_close (close : Token) (rest : List Token) :
    outcome (items close (close :: rest)) = .ok ([], rest) := by
  rw [items.eq_def, if_pos List.head?_cons]
  rfl

theorem outcome_items {close : Token} {tokens : List Token} (h : tokens.head? ≠ some close) :
    outcome (items close tokens) = (do
      let ⟨first, rest⟩ ← outcome (expression tokens)
      match rest with
      | .comma :: rest => do
        let ⟨more, rest⟩ ← outcome (items close rest)
        .ok (first :: more, rest)
      | rest => do
        let ⟨_, rest⟩ ← outcome (expect close rest)
        .ok ([first], rest)) := by
  rw [items.eq_def, if_neg h]
  refine outcome_bind fun ⟨first, rest, h⟩ => ?_
  dsimp only
  split
  · exact outcome_bind fun _ => rfl
  · next hnot =>
    split
    · exact (hnot _ h rfl HEq.rfl).elim
    · exact outcome_bind fun _ => rfl

theorem outcome_template (tokens : List Token) :
    outcome (template tokens) =
      (match tokens with
      | .closeQuote :: rest => .ok ([], rest)
      | .literal text :: rest => do
        let ⟨more, rest⟩ ← outcome (template rest)
        .ok (.literal text :: more, rest)
      | .openInterpolation :: rest => do
        let ⟨inner, rest⟩ ← outcome (expression rest)
        let ⟨_, rest⟩ ← outcome (expect .closeInterpolation rest)
        let ⟨more, rest⟩ ← outcome (template rest)
        .ok (.interpolation inner :: more, rest)
      | token :: _ => .error (fault ("unexpected \"" ++ token.text ++ "\" in template"))
      | [] => .error (fault "unterminated template")) := by
  rw [template.eq_def]
  split
  · rfl
  · exact outcome_bind fun _ => rfl
  · exact outcome_bind fun _ => outcome_bind fun _ => outcome_bind fun _ => rfl
  · simp only [outcome_error, *]
  · rfl

theorem outcome_object_close (rest : List Token) :
    outcome (object (.closeBrace :: rest)) = .ok ([], rest) := by
  rw [object]
  rfl

def bareKey (tokens : List Token) : Option (String × List Token) :=
  (bareKey? tokens).map fun p => (p.value, p.rest)

theorem eq_of_bareKey {tokens rest : List Token} {name : String}
    (h : bareKey tokens = some (name, rest)) :
    tokens = .ident name :: .assign :: rest ∨ tokens = .ident name :: .colon :: rest := by
  unfold bareKey bareKey? at h
  split at h
  · obtain ⟨rfl, rfl⟩ := Prod.mk.inj (Option.some.inj h)
    exact .inl rfl
  · obtain ⟨rfl, rfl⟩ := Prod.mk.inj (Option.some.inj h)
    exact .inr rfl
  · exact absurd h (by simp)

theorem bareKey_ident {name : String} {rest : List Token} (hassign : rest.head? ≠ some .assign)
    (hcolon : rest.head? ≠ some .colon) : bareKey (.ident name :: rest) = none := by
  cases rest with
  | nil => rfl
  | cons token rest =>
    cases token with
    | assign => exact absurd rfl hassign
    | colon => exact absurd rfl hcolon
    | _ => rfl

theorem outcome_object {tokens : List Token} (h : tokens.head? ≠ some .closeBrace) :
    outcome (object tokens) =
      (match bareKey tokens with
      | some (name, rest) => do
        let ⟨value, rest⟩ ← outcome (expression rest)
        let ⟨more, rest⟩ ← outcome (objectRest rest)
        .ok (.named name value :: more, rest)
      | none => do
        let ⟨key, rest⟩ ← outcome (expression tokens)
        match rest with
        | .assign :: rest => do
          let ⟨value, rest⟩ ← outcome (expression rest)
          let ⟨more, rest⟩ ← outcome (objectRest rest)
          .ok (.computed key value :: more, rest)
        | rest => do
          let ⟨_, rest⟩ ← outcome (expect .colon rest)
          let ⟨value, rest⟩ ← outcome (expression rest)
          let ⟨more, rest⟩ ← outcome (objectRest rest)
          .ok (.computed key value :: more, rest)) := by
  rw [object.eq_def]
  split
  · exact absurd rfl h
  unfold bareKey
  split
  · next heq =>
    rw [heq]
    exact outcome_bind fun _ => outcome_bind fun _ => rfl
  · next heq =>
    rw [heq]
    refine outcome_bind fun found => ?_
    obtain ⟨first, rest, h⟩ := found
    dsimp only
    split
    · exact outcome_bind fun _ => outcome_bind fun _ => rfl
    · next hnot =>
      split
      · exact (hnot _ h rfl HEq.rfl).elim
      · exact outcome_bind fun _ => outcome_bind fun _ => outcome_bind fun _ => rfl

theorem outcome_objectRest (tokens : List Token) :
    outcome (objectRest tokens) =
      (match tokens with
      | .comma :: rest => outcome (object rest)
      | tokens => do
        let ⟨_, rest⟩ ← outcome (expect .closeBrace tokens)
        .ok ([], rest)) := by
  rw [objectRest.eq_def]
  split
  · next rest =>
    dsimp only
    cases object rest <;> rfl
  · simp only [*]
    exact outcome_bind fun _ => rfl

theorem outcome_objectRest_close (rest : List Token) :
    outcome (objectRest (.closeBrace :: rest)) = .ok ([], rest) := by
  rw [outcome_objectRest]
  simp only [outcome_expect_self, Bind.bind, Except.bind]

theorem ofTokens_eq {tokens : List Token} (h : tokens ≠ []) :
    Term.ofTokens tokens = (do
      let ⟨term, rest⟩ ← outcome (expression tokens)
      match rest with
      | [] => .ok term
      | extra :: _ => .error (fault ("unexpected \"" ++ extra.text ++ "\" after expression"))) := by
  rw [Term.ofTokens, if_neg (by simpa using h)]
  cases expression tokens <;> rfl

/-- Tokens spell a tree if it is read from them and takes all of them. -/
theorem ofTokens_eq_ok_iff {tokens : List Token} {t : Term} :
    Term.ofTokens tokens = .ok t ↔ outcome (expression tokens) = .ok (t, []) := by
  by_cases hne : tokens = []
  · subst hne
    exact ⟨fun h => absurd h (by simp [Term.ofTokens]),
      fun h => absurd (length_of_outcome h) (Nat.not_lt_zero _)⟩
  rw [ofTokens_eq hne]
  constructor
  · intro h
    obtain ⟨term, rest, hread, -, hnext⟩ := of_outcome_bind h
    dsimp only at hnext
    split at hnext
    · obtain rfl := Except.ok.inj hnext
      exact hread
    · exact absurd hnext (by simp)
  · intro h
    rw [h]
    rfl

end ClusterBlueprint.Parser
