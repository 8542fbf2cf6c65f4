import ClusterBlueprint.Proofs.Expression.Canonical
import ClusterBlueprint.Proofs.Expression.Outcome

/-!
The grammar as rules.

Each reader of the parser has a relation between the tokens it starts from, what it reads and the
tokens it leaves, with one rule for each way in which it succeeds.  The relations hold exactly of
what the readers read, so a fact about the parser is proved by induction over the rules, and the
parser's own recursion is opened here only.
-/

namespace ClusterBlueprint.Parser

def IsSign (token : Token) : Prop := token = .assign ∨ token = .colon

mutual

/-- An expression, read from some tokens up to others. -/
inductive ReadsExpression : List Token → Term → List Token → Prop
  | plain {tokens rest : List Token} {t : Term} (hread : ReadsBinary 1 tokens t rest)
    (hend : rest.head? ≠ some .question) : ReadsExpression tokens t rest
  | conditional {tokens middle last rest : List Token} {condition yes no : Term}
    (hcondition : ReadsBinary 1 tokens condition (.question :: middle))
    (hyes : ReadsExpression middle yes (.colon :: last)) (hno : ReadsExpression last no rest) :
    ReadsExpression tokens (.conditional condition yes no) rest

/-- An operand and the operators after it that bind at least as tightly as `least`. -/
inductive ReadsBinary : Nat → List Token → Term → List Token → Prop
  | operand {least : Nat} {tokens middle rest : List Token} {left t : Term}
    (hleft : ReadsUnary tokens left middle) (hmore : ReadsOperators least left middle t rest) :
    ReadsBinary least tokens t rest

/-- The operators after the operand `left`. -/
inductive ReadsOperators : Nat → Term → List Token → Term → List Token → Prop
  | done {least : Nat} {left : Term} {tokens : List Token}
    (hend : ∀ op rest, tokens = .operator op :: rest → op.precedence < least) :
    ReadsOperators least left tokens left tokens
  | operator {least : Nat} {left right t : Term} {op : BinaryOperator}
    {tokens middle rest : List Token} (hle : least ≤ op.precedence)
    (hright : ReadsBinary (op.precedence + 1) tokens right middle)
    (hmore : ReadsOperators least (.binary op left right) middle t rest) :
    ReadsOperators least left (.operator op :: tokens) t rest

inductive ReadsUnary : List Token → Term → List Token → Prop
  | sign (op : UnaryOperator) {tokens rest : List Token} {t : Term}
    (hread : ReadsUnary tokens t rest) : ReadsUnary (op.token :: tokens) (.unary op t) rest
  | traversal {root : String} {tokens rest : List Token} {steps : List Step}
    (hroot : isReserved root = false) (hcall : tokens.head? ≠ some .openParen)
    (hsteps : ReadsSteps tokens steps rest) :
    ReadsUnary (.ident root :: tokens) (.traversal root steps) rest
  | value {tokens rest : List Token} {t : Term} (hread : ReadsPrimary tokens t rest)
    (hend : ReadsSteps rest [] rest) : ReadsUnary tokens t rest
  | relative {tokens middle rest : List Token} {source : Term} {step : Step} {steps : List Step}
    (hread : ReadsPrimary tokens source middle)
    (hsteps : ReadsSteps middle (step :: steps) rest) :
    ReadsUnary tokens (.relative source (step :: steps)) rest

inductive ReadsPrimary : List Token → Term → List Token → Prop
  | number (value : Number) (rest : List Token) :
    ReadsPrimary (.number value :: rest) (.number value) rest
  | bool (value : Bool) (rest : List Token) :
    ReadsPrimary (.ident (if value then "true" else "false") :: rest) (.bool value) rest
  | null (rest : List Token) : ReadsPrimary (.ident "null" :: rest) .null rest
  | call {name : String} {tokens rest : List Token} {args : List Term}
    (hname : isReserved name = false) (hargs : ReadsItems .closeParen tokens args rest) :
    ReadsPrimary (.ident name :: .openParen :: tokens) (.call name args) rest
  | template {tokens rest : List Token} {parts : List Part}
    (hparts : ReadsTemplate tokens parts rest) :
    ReadsPrimary (.openQuote :: tokens) (.template parts) rest
  | parens {tokens rest : List Token} {inner : Term}
    (hinner : ReadsExpression tokens inner (.closeParen :: rest)) :
    ReadsPrimary (.openParen :: tokens) (.parens inner) rest
  | tuple {tokens rest : List Token} {items : List Term}
    (hitems : ReadsItems .closeBracket tokens items rest) :
    ReadsPrimary (.openBracket :: tokens) (.tuple items) rest
  | object {tokens rest : List Token} {entries : List Item}
    (hentries : ReadsEntries tokens entries rest) :
    ReadsPrimary (.openBrace :: tokens) (.object entries) rest

inductive ReadsSteps : List Token → List Step → List Token → Prop
  | done {tokens : List Token} (hdot : tokens.head? ≠ some .dot)
    (hbracket : tokens.head? ≠ some .openBracket) : ReadsSteps tokens [] tokens
  | member {name : String} {tokens rest : List Token} {steps : List Step}
    (hsteps : ReadsSteps tokens steps rest) :
    ReadsSteps (.dot :: .ident name :: tokens) (.attribute name :: steps) rest
  | position {value : Number} {tokens rest : List Token} {steps : List Step}
    (hsteps : ReadsSteps tokens steps rest) :
    ReadsSteps (.dot :: .number value :: tokens) (.index (.number value) :: steps) rest
  | index {tokens middle rest : List Token} {t : Term} {steps : List Step}
    (hindex : ReadsExpression tokens t (.closeBracket :: middle))
    (hsteps : ReadsSteps middle steps rest) :
    ReadsSteps (.openBracket :: tokens) (.index t :: steps) rest

inductive ReadsItems : Token → List Token → List Term → List Token → Prop
  | done (close : Token) (rest : List Token) : ReadsItems close (close :: rest) [] rest
  | last {close : Token} {tokens rest : List Token} {t : Term} (hopen : tokens.head? ≠ some close)
    (hcomma : close ≠ .comma) (hread : ReadsExpression tokens t (close :: rest)) :
    ReadsItems close tokens [t] rest
  | more {close : Token} {tokens middle rest : List Token} {t : Term} {items : List Term}
    (hopen : tokens.head? ≠ some close) (hread : ReadsExpression tokens t (.comma :: middle))
    (hmore : ReadsItems close middle items rest) : ReadsItems close tokens (t :: items) rest

inductive ReadsTemplate : List Token → List Part → List Token → Prop
  | done (rest : List Token) : ReadsTemplate (.closeQuote :: rest) [] rest
  | literal {text : String} {tokens rest : List Token} {parts : List Part}
    (hparts : ReadsTemplate tokens parts rest) :
    ReadsTemplate (.literal text :: tokens) (.literal text :: parts) rest
  | interpolation {tokens middle rest : List Token} {t : Term} {parts : List Part}
    (hread : ReadsExpression tokens t (.closeInterpolation :: middle))
    (hparts : ReadsTemplate middle parts rest) :
    ReadsTemplate (.openInterpolation :: tokens) (.interpolation t :: parts) rest

inductive ReadsEntries : List Token → List Item → List Token → Prop
  | done (rest : List Token) : ReadsEntries (.closeBrace :: rest) [] rest
  | named {name : String} {sign : Token} {tokens middle rest : List Token} {value : Term}
    {entries : List Item} (hsign : IsSign sign) (hvalue : ReadsExpression tokens value middle)
    (hmore : ReadsFurther middle entries rest) :
    ReadsEntries (.ident name :: sign :: tokens) (.named name value :: entries) rest
  | computed {sign : Token} {tokens middle last rest : List Token} {key value : Term}
    {entries : List Item} (hopen : tokens.head? ≠ some .closeBrace) (hbare : bareKey tokens = none)
    (hkey : ReadsExpression tokens key (sign :: middle)) (hsign : IsSign sign)
    (hvalue : ReadsExpression middle value last) (hmore : ReadsFurther last entries rest) :
    ReadsEntries tokens (.computed key value :: entries) rest

/-- What follows an entry: the closing brace, or a comma and further entries. -/
inductive ReadsFurther : List Token → List Item → List Token → Prop
  | done (rest : List Token) : ReadsFurther (.closeBrace :: rest) [] rest
  | comma {tokens rest : List Token} {entries : List Item}
    (hentries : ReadsEntries tokens entries rest) : ReadsFurther (.comma :: tokens) entries rest

end

/-! ## What is read follows the rules -/

/-- What the readers read from some tokens follows the rules, on every level of the grammar that
takes tokens before it goes on to another level. -/
structure FollowsAt (tokens : List Token) : Prop where
  expression {t : Term} {rest : List Token} :
    outcome (expression tokens) = .ok (t, rest) → ReadsExpression tokens t rest
  binary {least : Nat} {t : Term} {rest : List Token} :
    outcome (binary least tokens) = .ok (t, rest) → ReadsBinary least tokens t rest
  operators {least : Nat} {left t : Term} {rest : List Token} :
    outcome (binaryRest least left tokens) = .ok (t, rest) → ReadsOperators least left tokens t rest
  unary {t : Term} {rest : List Token} :
    outcome (unary tokens) = .ok (t, rest) → ReadsUnary tokens t rest
  steps {list : List Step} {rest : List Token} :
    outcome (steps tokens) = .ok (list, rest) → ReadsSteps tokens list rest
  items {close : Token} {list : List Term} {rest : List Token} :
    outcome (items close tokens) = .ok (list, rest) → ReadsItems close tokens list rest
  template {parts : List Part} {rest : List Token} :
    outcome (template tokens) = .ok (parts, rest) → ReadsTemplate tokens parts rest
  entries {entries : List Item} {rest : List Token} :
    outcome (object tokens) = .ok (entries, rest) → ReadsEntries tokens entries rest
  further {entries : List Item} {rest : List Token} :
    outcome (objectRest tokens) = .ok (entries, rest) → ReadsFurther tokens entries rest

section Step

variable {tokens rest : List Token} {t : Term}

/-- The readers follow the rules from all shorter lists of tokens. -/
def FollowsBelow (tokens : List Token) : Prop :=
  ∀ shorter : List Token, shorter.length < tokens.length → FollowsAt shorter

theorem FollowsBelow.next {token : Token} (ih : FollowsBelow (token :: tokens)) :
    FollowsAt tokens := ih tokens (Nat.lt_succ_self _)

theorem FollowsBelow.after {token : Token} (ih : FollowsBelow (token :: tokens))
    (hlt : rest.length < tokens.length) : FollowsAt rest := ih rest (Nat.lt_succ_of_lt hlt)

theorem head?_ne {token : Token} (h : ∀ more, tokens ≠ token :: more) :
    tokens.head? ≠ some token := fun heq => by
  obtain ⟨more, rfl⟩ := List.head?_eq_some_iff.mp heq
  exact h more rfl

theorem follows_steps (ih : FollowsBelow tokens) {list : List Step}
    (h : outcome (steps tokens) = .ok (list, rest)) : ReadsSteps tokens list rest := by
  rw [outcome_steps] at h
  split at h
  · obtain ⟨more, _, hmore, -, hok⟩ := of_outcome_bind h
    obtain ⟨rfl, rfl⟩ := Prod.mk.inj (Except.ok.inj hok)
    exact .member ((ih.after (Nat.lt_succ_self _)).steps hmore)
  · obtain ⟨more, _, hmore, -, hok⟩ := of_outcome_bind h
    obtain ⟨rfl, rfl⟩ := Prod.mk.inj (Except.ok.inj hok)
    exact .position ((ih.after (Nat.lt_succ_self _)).steps hmore)
  · exact absurd h (by simp)
  · exact absurd h (by simp)
  · obtain ⟨index, _, hindex, hlt, hclose⟩ := of_outcome_bind h
    obtain ⟨_, rfl, hnext⟩ := of_expect_bind hclose
    obtain ⟨more, _, hmore, -, hok⟩ := of_outcome_bind hnext
    obtain ⟨rfl, rfl⟩ := Prod.mk.inj (Except.ok.inj hok)
    exact .index (ih.next.expression hindex) ((ih.after (Nat.lt_of_succ_lt hlt)).steps hmore)
  · next _ _ hother hend hbracket =>
    obtain ⟨rfl, rfl⟩ := Prod.mk.inj (Except.ok.inj h)
    refine .done (head?_ne fun more heq => ?_) (head?_ne hbracket)
    cases more with
    | nil => exact hend heq
    | cons token more => exact hother token more heq

theorem follows_primary (ih : FollowsBelow tokens)
    (h : outcome (primary tokens) = .ok (t, rest)) : ReadsPrimary tokens t rest := by
  rw [outcome_primary] at h
  split at h
  · obtain ⟨rfl, rfl⟩ := Prod.mk.inj (Except.ok.inj h)
    exact .number _ _
  · obtain ⟨rfl, rfl⟩ := Prod.mk.inj (Except.ok.inj h)
    exact .bool true _
  · obtain ⟨rfl, rfl⟩ := Prod.mk.inj (Except.ok.inj h)
    exact .bool false _
  · obtain ⟨rfl, rfl⟩ := Prod.mk.inj (Except.ok.inj h)
    exact .null _
  · next name _ htrue hfalse hnull =>
    obtain ⟨_, rfl, hnext⟩ := of_expect_bind h
    obtain ⟨args, _, hargs, -, hok⟩ := of_outcome_bind hnext
    obtain ⟨rfl, rfl⟩ := Prod.mk.inj (Except.ok.inj hok)
    have hname : isReserved name = false := by simpa [isReserved] using ⟨⟨htrue, hfalse⟩, hnull⟩
    exact .call hname ((ih.after (Nat.lt_succ_self _)).items hargs)
  · obtain ⟨parts, _, hparts, -, hok⟩ := of_outcome_bind h
    obtain ⟨rfl, rfl⟩ := Prod.mk.inj (Except.ok.inj hok)
    exact .template (ih.next.template hparts)
  · obtain ⟨inner, _, hinner, -, hclose⟩ := of_outcome_bind h
    obtain ⟨_, rfl, hok⟩ := of_expect_bind hclose
    obtain ⟨rfl, rfl⟩ := Prod.mk.inj (Except.ok.inj hok)
    exact .parens (ih.next.expression hinner)
  · obtain ⟨list, _, hlist, -, hok⟩ := of_outcome_bind h
    obtain ⟨rfl, rfl⟩ := Prod.mk.inj (Except.ok.inj hok)
    exact .tuple (ih.next.items hlist)
  · obtain ⟨entries, _, hentries, -, hok⟩ := of_outcome_bind h
    obtain ⟨rfl, rfl⟩ := Prod.mk.inj (Except.ok.inj hok)
    exact .object (ih.next.entries hentries)
  · exact absurd h (by simp)
  · exact absurd h (by simp)

theorem follows_steppedValue (ih : FollowsBelow tokens)
    (h : outcome (steppedValue tokens) = .ok (t, rest)) : ReadsUnary tokens t rest := by
  rw [outcome_steppedValue] at h
  obtain ⟨source, _, hsource, hlt, hnext⟩ := of_outcome_bind h
  obtain ⟨steps, _, hsteps, -, hok⟩ := of_outcome_bind hnext
  obtain ⟨rfl, rfl⟩ := Prod.mk.inj (Except.ok.inj hok)
  have hsource := follows_primary ih hsource
  have hsteps := (ih _ hlt).steps hsteps
  cases hsteps with
  | done hdot hbracket => exact .value hsource (.done hdot hbracket)
  | member hmore => exact .relative hsource (.member hmore)
  | position hmore => exact .relative hsource (.position hmore)
  | index hindex hmore => exact .relative hsource (.index hindex hmore)

theorem follows_stepped (ih : FollowsBelow tokens)
    (h : outcome (stepped tokens) = .ok (t, rest)) : ReadsUnary tokens t rest := by
  rw [outcome_stepped] at h
  split at h
  · split at h
    · next hstarts =>
      obtain ⟨steps, _, hsteps, -, hok⟩ := of_outcome_bind h
      obtain ⟨rfl, rfl⟩ := Prod.mk.inj (Except.ok.inj hok)
      obtain ⟨hroot, hcall⟩ := Bool.and_eq_true_iff.mp hstarts
      exact .traversal (by simpa using hroot) (of_decide_eq_true hcall) (ih.next.steps hsteps)
    · exact follows_steppedValue ih h
  · exact follows_steppedValue ih h

theorem follows_unary (ih : FollowsBelow tokens) (h : outcome (unary tokens) = .ok (t, rest)) :
    ReadsUnary tokens t rest := by
  rw [outcome_unary] at h
  split at h
  · obtain ⟨operand, _, hoperand, -, hok⟩ := of_outcome_bind h
    obtain ⟨rfl, rfl⟩ := Prod.mk.inj (Except.ok.inj hok)
    exact .sign .neg (ih.next.unary hoperand)
  · obtain ⟨operand, _, hoperand, -, hok⟩ := of_outcome_bind h
    obtain ⟨rfl, rfl⟩ := Prod.mk.inj (Except.ok.inj hok)
    exact .sign .not (ih.next.unary hoperand)
  · exact follows_stepped ih h

theorem follows_operators (ih : FollowsBelow tokens) {least : Nat} {left : Term}
    (h : outcome (binaryRest least left tokens) = .ok (t, rest)) :
    ReadsOperators least left tokens t rest := by
  by_cases hop : ∃ op more, tokens = .operator op :: more
  · obtain ⟨op, more, rfl⟩ := hop
    rw [outcome_binaryRest_operator] at h
    split at h
    · next hlt =>
      obtain ⟨rfl, rfl⟩ := Prod.mk.inj (Except.ok.inj h)
      refine .done ?_
      rintro _ _ ⟨⟩
      exact hlt
    · next hge =>
      obtain ⟨right, _, hright, hlt, hnext⟩ := of_outcome_bind h
      exact .operator (Nat.le_of_not_lt hge) (ih.next.binary hright)
        ((ih.after hlt).operators hnext)
  · rw [outcome_binaryRest fun op more heq => hop ⟨op, more, heq⟩] at h
    obtain ⟨rfl, rfl⟩ := Prod.mk.inj (Except.ok.inj h)
    exact .done fun op more heq => absurd ⟨op, more, heq⟩ hop

theorem follows_binary (ih : FollowsBelow tokens) {least : Nat}
    (h : outcome (binary least tokens) = .ok (t, rest)) : ReadsBinary least tokens t rest := by
  rw [outcome_binary] at h
  obtain ⟨left, _, hleft, hlt, hnext⟩ := of_outcome_bind h
  exact .operand (follows_unary ih hleft) ((ih _ hlt).operators hnext)

theorem follows_expression (ih : FollowsBelow tokens)
    (h : outcome (expression tokens) = .ok (t, rest)) : ReadsExpression tokens t rest := by
  rw [outcome_expression] at h
  obtain ⟨condition, _, hcondition, hlt, hnext⟩ := of_outcome_bind h
  have hcondition := follows_binary ih hcondition
  dsimp only at hnext
  split at hnext
  · obtain ⟨yes, _, hyes, hlt₁, hcolon⟩ := of_outcome_bind hnext
    obtain ⟨_, rfl, hlast⟩ := of_expect_bind hcolon
    obtain ⟨no, _, hno, -, hok⟩ := of_outcome_bind hlast
    obtain ⟨rfl, rfl⟩ := Prod.mk.inj (Except.ok.inj hok)
    have hlt := Nat.lt_of_succ_lt hlt
    exact .conditional hcondition ((ih _ hlt).expression hyes)
      ((ih _ (Nat.lt_trans (Nat.lt_of_succ_lt hlt₁) hlt)).expression hno)
  · next hquestion =>
    obtain ⟨rfl, rfl⟩ := Prod.mk.inj (Except.ok.inj hnext)
    exact .plain hcondition (head?_ne hquestion)

theorem follows_items (ih : FollowsBelow tokens) {close : Token} {list : List Term}
    (h : outcome (items close tokens) = .ok (list, rest)) : ReadsItems close tokens list rest := by
  by_cases hclose : tokens.head? = some close
  · obtain ⟨more, rfl⟩ := List.head?_eq_some_iff.mp hclose
    rw [outcome_items_close] at h
    obtain ⟨rfl, rfl⟩ := Prod.mk.inj (Except.ok.inj h)
    exact .done _ _
  rw [outcome_items hclose] at h
  obtain ⟨first, _, hfirst, hlt, hnext⟩ := of_outcome_bind h
  have hfirst := follows_expression ih hfirst
  dsimp only at hnext
  split at hnext
  · obtain ⟨more, _, hmore, -, hok⟩ := of_outcome_bind hnext
    obtain ⟨rfl, rfl⟩ := Prod.mk.inj (Except.ok.inj hok)
    exact .more hclose hfirst ((ih _ (Nat.lt_of_succ_lt hlt)).items hmore)
  · next hcomma =>
    obtain ⟨_, rfl, hok⟩ := of_expect_bind hnext
    obtain ⟨rfl, rfl⟩ := Prod.mk.inj (Except.ok.inj hok)
    exact .last hclose (by
      rintro rfl
      exact hcomma _ rfl) hfirst

theorem follows_template (ih : FollowsBelow tokens) {parts : List Part}
    (h : outcome (template tokens) = .ok (parts, rest)) : ReadsTemplate tokens parts rest := by
  rw [outcome_template] at h
  split at h
  · obtain ⟨rfl, rfl⟩ := Prod.mk.inj (Except.ok.inj h)
    exact .done _
  · obtain ⟨more, _, hmore, -, hok⟩ := of_outcome_bind h
    obtain ⟨rfl, rfl⟩ := Prod.mk.inj (Except.ok.inj hok)
    exact .literal (ih.next.template hmore)
  · obtain ⟨inner, _, hinner, hlt, hclose⟩ := of_outcome_bind h
    obtain ⟨_, rfl, hnext⟩ := of_expect_bind hclose
    obtain ⟨more, _, hmore, -, hok⟩ := of_outcome_bind hnext
    obtain ⟨rfl, rfl⟩ := Prod.mk.inj (Except.ok.inj hok)
    exact .interpolation (ih.next.expression hinner)
      ((ih.after (Nat.lt_of_succ_lt hlt)).template hmore)
  · exact absurd h (by simp)
  · exact absurd h (by simp)

theorem follows_further (ih : FollowsBelow tokens) {entries : List Item}
    (h : outcome (objectRest tokens) = .ok (entries, rest)) : ReadsFurther tokens entries rest := by
  rw [outcome_objectRest] at h
  split at h
  · exact .comma (ih.next.entries h)
  · obtain ⟨_, rfl, hok⟩ := of_expect_bind h
    obtain ⟨rfl, rfl⟩ := Prod.mk.inj (Except.ok.inj hok)
    exact .done _

/-- The value of an entry, and the entries after it. -/
theorem follows_entry (ih : FollowsBelow tokens) {after : List Token} {place : Term → Item}
    {entries : List Item} (hlt : after.length < tokens.length)
    (h : (do
      let ⟨value, rest⟩ ← outcome (expression after)
      let ⟨more, rest⟩ ← outcome (objectRest rest)
      .ok (place value :: more, rest)) = (.ok (entries, rest) : Checked _)) :
    ∃ value more middle, ReadsExpression after value middle ∧ ReadsFurther middle more rest
      ∧ entries = place value :: more := by
  obtain ⟨value, _, hvalue, hlt₁, hnext⟩ := of_outcome_bind h
  obtain ⟨more, _, hmore, -, hok⟩ := of_outcome_bind hnext
  obtain ⟨rfl, rfl⟩ := Prod.mk.inj (Except.ok.inj hok)
  exact ⟨value, more, _, (ih _ hlt).expression hvalue,
    (ih _ (Nat.lt_trans hlt₁ hlt)).further hmore, rfl⟩

theorem follows_entries (ih : FollowsBelow tokens) {entries : List Item}
    (h : outcome (object tokens) = .ok (entries, rest)) : ReadsEntries tokens entries rest := by
  by_cases hclose : tokens.head? = some .closeBrace
  · obtain ⟨more, rfl⟩ := List.head?_eq_some_iff.mp hclose
    rw [outcome_object_close] at h
    obtain ⟨rfl, rfl⟩ := Prod.mk.inj (Except.ok.inj h)
    exact .done _
  rw [outcome_object hclose] at h
  split at h
  · next name after hkey =>
    obtain ⟨sign, hsign, rfl⟩ : ∃ sign, IsSign sign ∧ tokens = .ident name :: sign :: after :=
      (eq_of_bareKey hkey).elim (fun heq => ⟨_, .inl rfl, heq⟩) fun heq => ⟨_, .inr rfl, heq⟩
    obtain ⟨value, more, _, hvalue, hmore, rfl⟩ :=
      follows_entry ih (Nat.lt_succ_of_lt (Nat.lt_succ_self _)) h
    exact .named hsign hvalue hmore
  · next hbare =>
    obtain ⟨key, after, hkey, hlt, hnext⟩ := of_outcome_bind h
    have hkey := follows_expression ih hkey
    dsimp only at hnext
    split at hnext
    · obtain ⟨value, more, _, hvalue, hmore, rfl⟩ :=
        follows_entry ih (Nat.lt_of_succ_lt hlt) hnext
      exact .computed hclose hbare hkey (.inl rfl) hvalue hmore
    · obtain ⟨_, rfl, hentry⟩ := of_expect_bind hnext
      obtain ⟨value, more, _, hvalue, hmore, rfl⟩ :=
        follows_entry ih (Nat.lt_of_succ_lt hlt) hentry
      exact .computed hclose hbare hkey (.inr rfl) hvalue hmore

theorem followsAt_of_below (ih : FollowsBelow tokens) : FollowsAt tokens where
  expression := follows_expression ih
  binary := follows_binary ih
  operators := follows_operators ih
  unary := follows_unary ih
  steps := follows_steps ih
  items := follows_items ih
  template := follows_template ih
  entries := follows_entries ih
  further := follows_further ih

end Step

theorem followsAt (tokens : List Token) : FollowsAt tokens :=
  followsAt_of_below fun shorter _ => followsAt shorter
termination_by tokens.length

/-! ## What follows the rules is read -/

theorem outcome_steps_nil {tokens : List Token} (hdot : tokens.head? ≠ some .dot)
    (hbracket : tokens.head? ≠ some .openBracket) : outcome (steps tokens) = .ok ([], tokens) := by
  rw [outcome_steps]
  split <;> first | rfl | exact absurd rfl hdot | exact absurd rfl hbracket

/-- A value that stands by itself starts with no sign and with no traversal. -/
theorem ReadsPrimary.outcome_unary_eq {tokens rest : List Token} {t : Term}
    (h : ReadsPrimary tokens t rest) :
    outcome (unary tokens) = outcome (steppedValue tokens) := by
  rw [outcome_unary]
  cases h with
  | bool value =>
    cases value <;> exact (outcome_stepped _).trans (if_neg (by simp [startsTraversal, isReserved]))
  | null => exact (outcome_stepped _).trans (if_neg (by simp [startsTraversal, isReserved]))
  | call => exact (outcome_stepped _).trans (if_neg (by simp [startsTraversal]))
  | _ => exact outcome_stepped _

mutual

theorem ReadsExpression.outcome_eq {tokens rest : List Token} {t : Term} :
    ReadsExpression tokens t rest → outcome (expression tokens) = .ok (t, rest)
  | .plain hread hend => by
    rw [outcome_expression, hread.outcome_eq]
    dsimp only [Bind.bind, Except.bind]
    split
    · exact absurd rfl hend
    · rfl
  | .conditional hcondition hyes hno => by
    have hyes := hyes.outcome_eq
    have hno := hno.outcome_eq
    rw [outcome_expression, hcondition.outcome_eq]
    simp only [Bind.bind, Except.bind, hyes, outcome_expect_self, hno]

theorem ReadsBinary.outcome_eq {least : Nat} {tokens rest : List Token} {t : Term} :
    ReadsBinary least tokens t rest → outcome (binary least tokens) = .ok (t, rest)
  | .operand hleft hmore => by
    rw [outcome_binary, hleft.outcome_eq]
    exact hmore.outcome_eq

theorem ReadsOperators.outcome_eq {least : Nat} {left : Term} {tokens rest : List Token}
    {t : Term} :
    ReadsOperators least left tokens t rest → outcome (binaryRest least left tokens) = .ok (t, rest)
  | .done hend => by
    by_cases hop : ∃ op more, tokens = .operator op :: more
    · obtain ⟨op, more, rfl⟩ := hop
      rw [outcome_binaryRest_operator, if_pos (hend op more rfl)]
    · exact outcome_binaryRest fun op more heq => hop ⟨op, more, heq⟩
  | .operator hle hright hmore => by
    rw [outcome_binaryRest_operator, if_neg (Nat.not_lt.mpr hle), hright.outcome_eq]
    exact hmore.outcome_eq

theorem ReadsUnary.outcome_eq {tokens rest : List Token} {t : Term} :
    ReadsUnary tokens t rest → outcome (unary tokens) = .ok (t, rest)
  | .sign op hread => by
    have hread := hread.outcome_eq
    rw [outcome_unary]
    cases op <;> simp only [UnaryOperator.token, Bind.bind, Except.bind, hread]
  | @ReadsUnary.traversal root tokens _ _ hroot hcall hsteps => by
    have hsteps := hsteps.outcome_eq
    have hstarts : startsTraversal (.ident root :: tokens) := by
      simp [startsTraversal, hroot, hcall]
    rw [outcome_unary]
    show outcome (stepped (.ident root :: tokens)) = _
    rw [outcome_stepped]
    simp only [hstarts, if_true, Bind.bind, Except.bind, hsteps]
  | .value hread hend => by
    have hend := hend.outcome_eq
    rw [hread.outcome_unary_eq, outcome_steppedValue, hread.outcome_eq]
    simp only [Bind.bind, Except.bind, hend, List.isEmpty_nil, if_true]
  | .relative hread hsteps => by
    have hsteps := hsteps.outcome_eq
    rw [hread.outcome_unary_eq, outcome_steppedValue, hread.outcome_eq]
    simp only [Bind.bind, Except.bind, hsteps, List.isEmpty_cons, Bool.false_eq_true, if_false]

theorem ReadsPrimary.outcome_eq {tokens rest : List Token} {t : Term} :
    ReadsPrimary tokens t rest → outcome (primary tokens) = .ok (t, rest)
  | .number .. | .null .. => outcome_primary _
  | .bool value _ => by cases value <;> exact outcome_primary _
  | .call hname hargs => by
    have hargs := hargs.outcome_eq
    rw [outcome_primary_ident (Bool.eq_false_iff.mp hname)]
    simp only [Bind.bind, Except.bind, outcome_expect_self, hargs]
  | .template hparts => by
    have hparts := hparts.outcome_eq
    rw [outcome_primary]
    simp only [Bind.bind, Except.bind, hparts]
  | .parens hinner => by
    have hinner := hinner.outcome_eq
    rw [outcome_primary]
    simp only [Bind.bind, Except.bind, hinner, outcome_expect_self]
  | .tuple hitems => by
    have hitems := hitems.outcome_eq
    rw [outcome_primary]
    simp only [Bind.bind, Except.bind, hitems]
  | .object hentries => by
    have hentries := hentries.outcome_eq
    rw [outcome_primary]
    simp only [Bind.bind, Except.bind, hentries]

theorem ReadsSteps.outcome_eq {tokens rest : List Token} {list : List Step} :
    ReadsSteps tokens list rest → outcome (steps tokens) = .ok (list, rest)
  | .done hdot hbracket => outcome_steps_nil hdot hbracket
  | .member hsteps => by
    have hsteps := hsteps.outcome_eq
    rw [outcome_steps]
    simp only [Bind.bind, Except.bind, hsteps]
  | .position hsteps => by
    have hsteps := hsteps.outcome_eq
    rw [outcome_steps]
    simp only [Bind.bind, Except.bind, hsteps]
  | .index hindex hsteps => by
    have hindex := hindex.outcome_eq
    have hsteps := hsteps.outcome_eq
    rw [outcome_steps]
    simp only [Bind.bind, Except.bind, hindex, outcome_expect_self, hsteps]

theorem ReadsItems.outcome_eq {close : Token} {tokens rest : List Token} {list : List Term} :
    ReadsItems close tokens list rest → outcome (items close tokens) = .ok (list, rest)
  | .done close rest => outcome_items_close close rest
  | .last hopen hcomma hread => by
    have hread := hread.outcome_eq
    rw [outcome_items hopen]
    cases close with
    | comma => exact absurd rfl hcomma
    | _ => simp only [Bind.bind, Except.bind, hread, outcome_expect_self]
  | .more hopen hread hmore => by
    have hread := hread.outcome_eq
    have hmore := hmore.outcome_eq
    rw [outcome_items hopen]
    simp only [Bind.bind, Except.bind, hread, hmore]

theorem ReadsTemplate.outcome_eq {tokens rest : List Token} {parts : List Part} :
    ReadsTemplate tokens parts rest → outcome (template tokens) = .ok (parts, rest)
  | .done _ => outcome_template _
  | .literal hparts => by
    have hparts := hparts.outcome_eq
    rw [outcome_template]
    simp only [Bind.bind, Except.bind, hparts]
  | .interpolation hread hparts => by
    have hread := hread.outcome_eq
    have hparts := hparts.outcome_eq
    rw [outcome_template]
    simp only [Bind.bind, Except.bind, hread, outcome_expect_self, hparts]

theorem ReadsEntries.outcome_eq {tokens rest : List Token} {entries : List Item} :
    ReadsEntries tokens entries rest → outcome (object tokens) = .ok (entries, rest)
  | .done rest => outcome_object_close rest
  | .named hsign hvalue hmore => by
    have hvalue := hvalue.outcome_eq
    have hmore := hmore.outcome_eq
    rw [outcome_object (by simp)]
    rcases hsign with rfl | rfl <;>
      simp only [bareKey, bareKey?, Option.map_some, Bind.bind, Except.bind, hvalue, hmore]
  | .computed hopen hbare hkey hsign hvalue hmore => by
    have hkey := hkey.outcome_eq
    have hvalue := hvalue.outcome_eq
    have hmore := hmore.outcome_eq
    rw [outcome_object hopen, hbare]
    rcases hsign with rfl | rfl <;>
      simp only [Bind.bind, Except.bind, hkey, outcome_expect_self, hvalue, hmore]

theorem ReadsFurther.outcome_eq {tokens rest : List Token} {entries : List Item} :
    ReadsFurther tokens entries rest → outcome (objectRest tokens) = .ok (entries, rest)
  | .done rest => outcome_objectRest_close rest
  | .comma hentries => (outcome_objectRest _).trans hentries.outcome_eq

end

theorem ReadsExpression.length_lt {tokens rest : List Token} {t : Term}
    (h : ReadsExpression tokens t rest) : rest.length < tokens.length :=
  length_of_outcome h.outcome_eq

/-- Tokens spell a tree if it is read from them by the rules and takes all of them. -/
theorem ofTokens_eq_ok {tokens : List Token} {t : Term} :
    Term.ofTokens tokens = .ok t ↔ ReadsExpression tokens t [] :=
  ofTokens_eq_ok_iff.trans ⟨(followsAt tokens).expression, ReadsExpression.outcome_eq⟩

end ClusterBlueprint.Parser
