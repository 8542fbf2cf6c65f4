import ClusterBlueprint.Proofs.Expression.Canonical
import ClusterBlueprint.Proofs.Expression.Outcome

/-!
Parsing the tokens of a canonical tree gives the tree.

A reader stops at the end of the tree if the tokens after it do not go on with it.  How tightly the
tree holds together says which operators may come next, and the induction over trees carries one
statement for each level of the grammar.
-/

namespace ClusterBlueprint

namespace Parser

/-- Whether tokens after a tree of some tightness leave it as it is: they are no steps into it, no
arguments of it, and no operator that binds tighter. -/
def MayFollow (tightness : Nat) : List Token → Prop
  | .dot :: _ | .openBracket :: _ | .openParen :: _ => False
  | .operator op :: _ => op.precedence ≤ tightness
  | _ => True

/-- Whether a whole expression ends before some tokens. -/
def IsFinal (rest : List Token) : Prop := MayFollow 0 rest ∧ rest.head? ≠ some .question

theorem MayFollow.mono {low high : Nat} {rest : List Token} (h : MayFollow low rest)
    (hle : low ≤ high) : MayFollow high rest := by
  unfold MayFollow at *
  split at h
  · exact h
  · exact h
  · exact h
  · exact Nat.le_trans h hle
  · simp only [*]

theorem outcome_steps_of_mayFollow {n : Nat} {rest : List Token} (h : MayFollow n rest) :
    outcome (steps rest) = .ok ([], rest) := by
  rw [outcome_steps]
  split
  · exact h.elim
  · exact h.elim
  · exact h.elim
  · exact h.elim
  · exact h.elim
  · rfl

/-- Operators that bind no tighter than an operand are left to the operators before it. -/
theorem outcome_binaryRest_of_mayFollow {n least : Nat} {rest : List Token} (h : MayFollow n rest)
    (hlt : n < least) (left : Term) :
    outcome (binaryRest least left rest) = .ok (left, rest) := by
  by_cases hop : ∃ op more, rest = .operator op :: more
  · obtain ⟨op, more, rfl⟩ := hop
    have hle : op.precedence ≤ n := h
    rw [outcome_binaryRest_operator, if_pos (by omega)]
  · exact outcome_binaryRest fun op more heq => hop ⟨op, more, heq⟩

def isClosing : Token → Bool
  | .closeParen | .closeBracket | .closeBrace => true
  | _ => false

end Parser

open ClusterBlueprint.Parser

namespace Term

/-- A tree does not start with a closing token. -/
theorem head_tokens_not_isClosing :
    ∀ (t : Term) (rest : List Token), ∀ token ∈ (t.tokens ++ rest).head?, ¬ isClosing token
  | .null, rest | .bool _, rest | .number _, rest | .template _, rest | .traversal .., rest
  | .call .., rest | .tuple _, rest | .object _, rest | .parens _, rest => by
    simp [tokens, isClosing]
  | .unary op _, rest => by cases op <;> simp [tokens, UnaryOperator.token, isClosing]
  | .relative source steps, rest => by
    rw [tokens, List.append_assoc]
    exact head_tokens_not_isClosing source _
  | .binary op left right, rest => by
    rw [tokens, List.append_assoc]
    exact head_tokens_not_isClosing left _
  | .conditional condition yes no, rest => by
    rw [tokens, List.append_assoc]
    exact head_tokens_not_isClosing condition _
termination_by structural t => t

theorem head_tokens_ne {token : Token} (h : isClosing token) (t : Term) (rest : List Token) :
    (t.tokens ++ rest).head? ≠ some token := fun heq =>
  head_tokens_not_isClosing t rest token heq h

/-- Only a single word before an equals sign or a colon is read as a bare key. -/
theorem bareKey_tokens :
    ∀ (t : Term), t.Canonical → ∀ {rest : List Token},
      (t.isBareWord → rest.head? ≠ some .assign ∧ rest.head? ≠ some .colon) →
        bareKey (t.tokens ++ rest) = none
  | .null, _, rest, h | .bool _, _, rest, h | .traversal _ [], _, rest, h => by
    exact bareKey_ident (h rfl).1 (h rfl).2
  | .traversal _ (.attribute _ :: _), _, rest, _ => rfl
  | .traversal _ (.index _ :: _), _, rest, _ => rfl
  | .number _, _, rest, _ | .template _, _, rest, _ | .call .., _, rest, _ | .tuple _, _, rest, _
  | .object _, _, rest, _ | .parens _, _, rest, _ => rfl
  | .unary op _, _, rest, _ => by cases op <;> rfl
  | .relative source (.attribute _ :: _), hc, rest, _ => by
    rw [tokens, List.append_assoc]
    exact bareKey_tokens source hc.2.2.1 fun _ => by simp [stepsTokens]
  | .relative source (.index _ :: _), hc, rest, _ => by
    rw [tokens, List.append_assoc]
    exact bareKey_tokens source hc.2.2.1 fun _ => by simp [stepsTokens]
  | .relative source [], hc, rest, _ => absurd rfl hc.1
  | .binary op left right, hc, rest, _ => by
    rw [tokens, List.append_assoc]
    exact bareKey_tokens left hc.2.2.1 fun _ => by simp
  | .conditional condition yes no, hc, rest, _ => by
    rw [tokens, List.append_assoc]
    exact bareKey_tokens condition hc.2.1 fun _ => by simp
termination_by structural t => t

/-- What is read from the tokens of a tree at each level of the grammar that it belongs to. -/
structure Parses (t : Term) : Prop where
  primary : t.isSource → ∀ rest, outcome (Parser.primary (t.tokens ++ rest)) = .ok (t, rest)
  unary : t.tightness = 7 → ∀ {rest}, MayFollow 7 rest →
    outcome (Parser.unary (t.tokens ++ rest)) = .ok (t, rest)
  binary : ∀ {least}, 0 < least → least ≤ t.tightness → ∀ {rest}, MayFollow t.tightness rest →
    outcome (Parser.binary least (t.tokens ++ rest)) = outcome (binaryRest least t rest)
  expression : ∀ {rest}, IsFinal rest →
    outcome (Parser.expression (t.tokens ++ rest)) = .ok (t, rest)

/-- The tokens of a value that stands by itself start with no sign and with no traversal. -/
theorem unary_tokens_of_isSource {t : Term} (h : t.isSource) (rest : List Token) :
    outcome (Parser.unary (t.tokens ++ rest)) = outcome (steppedValue (t.tokens ++ rest)) := by
  rw [outcome_unary]
  cases t with
  | null => exact (outcome_stepped _).trans (if_neg (by simp [startsTraversal, isReserved]))
  | bool value =>
    refine (outcome_stepped _).trans (if_neg ?_)
    cases value <;> simp [startsTraversal, isReserved]
  | call => exact (outcome_stepped _).trans (if_neg (by simp [startsTraversal]))
  | traversal | relative | unary | binary | conditional => exact absurd h Bool.false_ne_true
  | _ => exact outcome_stepped _

theorem outcome_expression_of_binary {t : Term} {tokens rest : List Token} (hrest : IsFinal rest)
    (h : outcome (Parser.binary 1 tokens) = outcome (binaryRest 1 t rest)) :
    outcome (Parser.expression tokens) = .ok (t, rest) := by
  obtain ⟨hfollow, hquestion⟩ := hrest
  rw [outcome_expression, h, outcome_binaryRest_of_mayFollow hfollow Nat.one_pos]
  dsimp only [Bind.bind, Except.bind]
  split
  · exact absurd rfl hquestion
  · rfl

namespace Parses

variable {t : Term}

theorem of_binary (hsource : ¬ t.isSource) (hpos : 0 < t.tightness) (hlt : t.tightness < 7)
    (h : ∀ {least}, 0 < least → least ≤ t.tightness → ∀ {rest}, MayFollow t.tightness rest →
      outcome (Parser.binary least (t.tokens ++ rest)) = outcome (binaryRest least t rest)) :
    t.Parses where
  primary hs := absurd hs hsource
  unary h7 := absurd h7 (Nat.ne_of_lt hlt)
  binary := h
  expression hrest :=
    outcome_expression_of_binary hrest (h Nat.one_pos hpos (hrest.1.mono (Nat.zero_le _)))

theorem of_unary
    (hprimary : t.isSource → ∀ rest, outcome (Parser.primary (t.tokens ++ rest)) = .ok (t, rest))
    (htight : t.tightness = 7)
    (hunary : ∀ {rest}, MayFollow 7 rest →
      outcome (Parser.unary (t.tokens ++ rest)) = .ok (t, rest)) : t.Parses :=
  have hbinary : ∀ {least rest}, MayFollow 7 rest →
      outcome (Parser.binary least (t.tokens ++ rest)) = outcome (binaryRest least t rest) := by
    intro least rest hrest
    rw [outcome_binary, hunary hrest]
    rfl
  { primary := hprimary
    unary := fun _ => hunary
    binary := fun _ _ _ hrest => hbinary (htight ▸ hrest)
    expression := fun hrest =>
      outcome_expression_of_binary hrest (hbinary (hrest.1.mono (Nat.zero_le _))) }

theorem of_primary (hsource : t.isSource)
    (h : ∀ rest, outcome (Parser.primary (t.tokens ++ rest)) = .ok (t, rest)) : t.Parses := by
  refine of_unary (fun _ => h) (tightness_of_isSource hsource) fun {rest} hrest => ?_
  have hsteps := outcome_steps_of_mayFollow hrest
  rw [unary_tokens_of_isSource hsource, outcome_steppedValue, h]
  simp only [Bind.bind, Except.bind, hsteps, List.isEmpty_nil, if_true]

end Parses

theorem isFinal_of_isClosing {close : Token} (h : isClosing close) (rest : List Token) :
    IsFinal (close :: rest) := by
  cases close <;> first | exact absurd h Bool.false_ne_true | exact ⟨trivial, by simp⟩

theorem isFinal_comma (rest : List Token) : IsFinal (.comma :: rest) := ⟨trivial, by simp⟩

theorem head_stepsTokens_ne_openParen (steps : List Step) {n : Nat} {rest : List Token}
    (h : MayFollow n rest) : (stepsTokens steps ++ rest).head? ≠ some .openParen := by
  match steps with
  | .attribute _ :: _ | .index _ :: _ => simp [stepsTokens]
  | [] =>
    intro heq
    obtain ⟨more, rfl⟩ := List.head?_eq_some_iff.mp heq
    exact h

section Entries

variable {key value : Term} {tail rest : List Token} {more : List Item}

theorem object_named (name : String) (hvalue : value.Parses) (hfinal : IsFinal tail)
    (htail : outcome (objectRest tail) = .ok (more, rest)) :
    outcome (Parser.object (.ident name :: .assign :: (value.tokens ++ tail)))
      = .ok (.named name value :: more, rest) := by
  have hread := hvalue.expression hfinal
  have hkey : bareKey (.ident name :: .assign :: (value.tokens ++ tail))
      = some (name, value.tokens ++ tail) := rfl
  rw [outcome_object (by simp), hkey]
  simp only [Bind.bind, Except.bind, hread, htail]

theorem object_computed (hword : ¬ key.isBareWord) (hc : key.Canonical) (hkey : key.Parses)
    (hvalue : value.Parses) (hfinal : IsFinal tail)
    (htail : outcome (objectRest tail) = .ok (more, rest)) :
    outcome (Parser.object (key.tokens ++ .assign :: (value.tokens ++ tail)))
      = .ok (.computed key value :: more, rest) := by
  have hassign : IsFinal (.assign :: (value.tokens ++ tail)) := ⟨trivial, by simp⟩
  have hfirst := hkey.expression hassign
  have hread := hvalue.expression hfinal
  rw [outcome_object (head_tokens_ne rfl key _), bareKey_tokens key hc (absurd · hword)]
  simp only [Bind.bind, Except.bind, hfirst, hread, htail]

end Entries

mutual

/-- The tokens of a canonical tree are read as the tree. -/
theorem parses : ∀ (t : Term), t.Canonical → t.Parses
  | .null, _ => .of_primary rfl fun rest => outcome_primary _
  | .bool value, _ => .of_primary rfl fun rest => by cases value <;> exact outcome_primary _
  | .number value, _ => .of_primary rfl fun rest => outcome_primary _
  | .template parts, h => .of_primary rfl fun rest => by
    have htokens : (template parts).tokens ++ rest
        = .openQuote :: (partsTokens parts ++ .closeQuote :: rest) := by simp [tokens]
    have hparts := template_partsTokens parts h rest
    rw [htokens, outcome_primary]
    simp only [Bind.bind, Except.bind, hparts]
  | .traversal root steps, h => .of_unary (absurd · Bool.false_ne_true) rfl fun {rest} hrest => by
    have hsteps := steps_stepsTokens steps h.2 hrest
    have hstarts : startsTraversal (.ident root :: (stepsTokens steps ++ rest)) := by
      refine Bool.and_eq_true_iff.mpr ⟨(Bool.and_eq_true_iff.mp h.1).2, decide_eq_true ?_⟩
      exact head_stepsTokens_ne_openParen steps hrest
    rw [outcome_unary]
    show outcome (stepped (.ident root :: (stepsTokens steps ++ rest))) = _
    rw [outcome_stepped]
    simp only [hstarts, if_true, Bind.bind, Except.bind, hsteps]
  | .relative source steps, h => .of_unary (absurd · Bool.false_ne_true) rfl fun {rest} hrest => by
    obtain ⟨hne, hsource, hc, hsteps⟩ := h
    have hprimary := (parses source hc).primary hsource (stepsTokens steps ++ rest)
    have hread := steps_stepsTokens steps hsteps hrest
    have hempty : steps.isEmpty = false := by simpa using hne
    rw [tokens, List.append_assoc, unary_tokens_of_isSource hsource, outcome_steppedValue]
    simp only [Bind.bind, Except.bind, hprimary, hread, hempty, Bool.false_eq_true, if_false]
  | .call name args, h => .of_primary rfl fun rest => by
    have htokens : (call name args).tokens ++ rest
        = .ident name :: .openParen :: (listTokens args ++ .closeParen :: rest) := by simp [tokens]
    have hclose : isClosing .closeParen := rfl
    have hargs := items_listTokens hclose args h.2 rest
    have hreserved : ¬ isReserved name := by simpa using (Bool.and_eq_true_iff.mp h.1).2
    rw [htokens, outcome_primary_ident hreserved]
    simp only [Bind.bind, Except.bind, outcome_expect_self, hargs]
  | .tuple items, h => .of_primary rfl fun rest => by
    have htokens : (tuple items).tokens ++ rest
        = .openBracket :: (listTokens items ++ .closeBracket :: rest) := by simp [tokens]
    have hclose : isClosing .closeBracket := rfl
    have hitems := items_listTokens hclose items h rest
    rw [htokens, outcome_primary]
    simp only [Bind.bind, Except.bind, hitems]
  | .object items, h => .of_primary rfl fun rest => by
    have htokens : (object items).tokens ++ rest
        = .openBrace :: (itemsTokens items ++ .closeBrace :: rest) := by simp [tokens]
    have hitems := object_itemsTokens items h rest
    rw [htokens, outcome_primary]
    simp only [Bind.bind, Except.bind, hitems]
  | .unary op operand, h => .of_unary (absurd · Bool.false_ne_true) rfl fun {rest} hrest => by
    have hoperand := (parses operand h.2).unary h.1 hrest
    rw [outcome_unary]
    cases op <;> simp only [tokens, UnaryOperator.token, List.cons_append, Bind.bind, Except.bind,
      hoperand]
  | .binary op left right, h =>
    .of_binary Bool.false_ne_true op.precedence_pos op.precedence_lt
      fun {least} hpos hle {rest} hrest => by
    obtain ⟨hleft, hright, hcleft, hcright⟩ := h
    have hop : MayFollow left.tightness (.operator op :: (right.tokens ++ rest)) := hleft
    have hread := (parses left hcleft).binary hpos (hle.trans hleft) hop
    have hnext := (parses right hcright).binary (Nat.succ_pos _) hright
      (hrest.mono (Nat.le_of_lt hright))
    have hafter : MayFollow op.precedence rest := hrest
    have hstop := outcome_binaryRest_of_mayFollow hafter (Nat.lt_succ_self _) right
    have hbinds : ¬ op.precedence < least := Nat.not_lt.mpr hle
    rw [tokens, List.append_assoc, List.cons_append, hread, outcome_binaryRest_operator,
      if_neg hbinds, hnext, hstop]
    rfl
  | .conditional condition yes no, h => by
    obtain ⟨hpos, hccondition, hcyes, hcno⟩ := h
    refine ⟨(absurd · Bool.false_ne_true), (absurd · (Nat.zero_ne_add_one 6)), ?_, ?_⟩
    · intro least hleast hle
      exact absurd (Nat.lt_of_lt_of_le hleast hle) (Nat.lt_irrefl 0)
    · intro rest hrest
      have htokens : (conditional condition yes no).tokens ++ rest
          = condition.tokens ++ .question :: (yes.tokens ++ .colon :: (no.tokens ++ rest)) := by
        simp [tokens]
      have hfollow {n : Nat} (more : List Token) : MayFollow n (.question :: more) := trivial
      have hcondition := (parses condition hccondition).binary Nat.one_pos hpos
        (hfollow (yes.tokens ++ .colon :: (no.tokens ++ rest)))
      have hfinal : IsFinal (.colon :: (no.tokens ++ rest)) := ⟨trivial, by simp⟩
      have hyes := (parses yes hcyes).expression hfinal
      have hno := (parses no hcno).expression hrest
      rw [htokens, outcome_expression, hcondition,
        outcome_binaryRest_of_mayFollow (hfollow _) Nat.one_pos]
      simp only [Bind.bind, Except.bind, hyes, outcome_expect_self, hno]
  | .parens inner, h => .of_primary rfl fun rest => by
    have htokens : (parens inner).tokens ++ rest
        = .openParen :: (inner.tokens ++ .closeParen :: rest) := by simp [tokens]
    have hfinal : IsFinal (.closeParen :: rest) := isFinal_of_isClosing rfl rest
    have hinner := (parses inner h).expression hfinal
    rw [htokens, outcome_primary]
    simp only [Bind.bind, Except.bind, hinner, outcome_expect_self]
termination_by structural t => t

theorem template_partsTokens : ∀ (parts : List Part), CanonicalParts parts → ∀ rest,
    outcome (Parser.template (partsTokens parts ++ .closeQuote :: rest)) = .ok (parts, rest)
  | [], _, rest => outcome_template _
  | .literal text :: parts, h, rest => by
    have hparts := template_partsTokens parts h.2.2 rest
    rw [outcome_template]
    simp only [partsTokens, List.cons_append, Bind.bind, Except.bind, hparts]
  | .interpolation t :: parts, h, rest => by
    have htokens : partsTokens (.interpolation t :: parts) ++ .closeQuote :: rest
        = .openInterpolation :: (t.tokens
          ++ .closeInterpolation :: (partsTokens parts ++ .closeQuote :: rest)) := by
      simp [partsTokens]
    have hfinal : IsFinal (.closeInterpolation :: (partsTokens parts ++ .closeQuote :: rest)) :=
      ⟨trivial, by simp⟩
    have hterm := (parses t h.1).expression hfinal
    have hparts := template_partsTokens parts h.2 rest
    rw [htokens, outcome_template]
    simp only [Bind.bind, Except.bind, hterm, outcome_expect_self, hparts]
termination_by structural t => t

theorem steps_stepsTokens : ∀ (steps : List Step), CanonicalSteps steps → ∀ {rest},
    MayFollow 7 rest → outcome (Parser.steps (stepsTokens steps ++ rest)) = .ok (steps, rest)
  | [], _, rest, hrest => outcome_steps_of_mayFollow hrest
  | .attribute name :: steps, h, rest, hrest => by
    have hsteps := steps_stepsTokens steps h.2 hrest
    rw [outcome_steps]
    simp only [stepsTokens, List.cons_append, Bind.bind, Except.bind, hsteps]
  | .index t :: steps, h, rest, hrest => by
    have htokens : stepsTokens (.index t :: steps) ++ rest
        = .openBracket :: (t.tokens ++ .closeBracket :: (stepsTokens steps ++ rest)) := by
      simp [stepsTokens]
    have hfinal : IsFinal (.closeBracket :: (stepsTokens steps ++ rest)) :=
      isFinal_of_isClosing rfl _
    have hterm := (parses t h.1).expression hfinal
    have hsteps := steps_stepsTokens steps h.2 hrest
    rw [htokens, outcome_steps]
    simp only [Bind.bind, Except.bind, hterm, outcome_expect_self, hsteps]
termination_by structural t => t

theorem items_listTokens {close : Token} (hclose : isClosing close) :
    ∀ (items : List Term), CanonicalList items → ∀ rest,
      outcome (Parser.items close (listTokens items ++ close :: rest)) = .ok (items, rest)
  | [], _, rest => outcome_items_close close rest
  | [t], h, rest => by
    have hterm := (parses t h.1).expression (isFinal_of_isClosing hclose rest)
    rw [listTokens, outcome_items (head_tokens_ne hclose t _)]
    cases close <;> first
      | exact absurd hclose Bool.false_ne_true
      | simp only [Bind.bind, Except.bind, hterm, outcome_expect_self]
  | t :: next :: items, h, rest => by
    have htokens : listTokens (t :: next :: items) ++ close :: rest
        = t.tokens ++ .comma :: (listTokens (next :: items) ++ close :: rest) := by
      simp [listTokens]
    have hterm := (parses t h.1).expression
      (isFinal_comma (listTokens (next :: items) ++ close :: rest))
    have hitems := items_listTokens hclose (next :: items) h.2 rest
    rw [htokens, outcome_items (head_tokens_ne hclose t _)]
    simp only [Bind.bind, Except.bind, hterm, hitems]
termination_by structural t => t

theorem object_itemsTokens : ∀ (items : List Item), CanonicalItems items → ∀ rest,
    outcome (Parser.object (itemsTokens items ++ .closeBrace :: rest)) = .ok (items, rest)
  | [], _, rest => outcome_object_close rest
  | [.named name value], h, rest =>
    object_named name (parses value h.2.1) (isFinal_of_isClosing rfl rest)
      (outcome_objectRest_close rest)
  | [.computed key value], h, rest => by
    obtain ⟨hword, hkey, hvalue, -⟩ := h
    rw [itemsTokens, List.append_assoc]
    exact object_computed hword hkey (parses key hkey) (parses value hvalue)
      (isFinal_of_isClosing rfl rest) (outcome_objectRest_close rest)
  | .named name value :: next :: items, h, rest => by
    have htokens : itemsTokens (.named name value :: next :: items) ++ .closeBrace :: rest
        = .ident name :: .assign :: (value.tokens
          ++ .comma :: (itemsTokens (next :: items) ++ .closeBrace :: rest)) := by
      simp [itemsTokens]
    obtain ⟨-, hvalue, hitems⟩ := h
    have hmore := object_itemsTokens (next :: items) hitems rest
    rw [htokens]
    exact object_named name (parses value hvalue) (isFinal_comma _)
      ((outcome_objectRest _).trans hmore)
  | .computed key value :: next :: items, h, rest => by
    have htokens : itemsTokens (.computed key value :: next :: items) ++ .closeBrace :: rest
        = key.tokens ++ .assign :: (value.tokens
          ++ .comma :: (itemsTokens (next :: items) ++ .closeBrace :: rest)) := by
      simp [itemsTokens]
    obtain ⟨hword, hkey, hvalue, hitems⟩ := h
    have hmore := object_itemsTokens (next :: items) hitems rest
    rw [htokens]
    exact object_computed hword hkey (parses key hkey) (parses value hvalue) (isFinal_comma _)
      ((outcome_objectRest _).trans hmore)
termination_by structural t => t

end

theorem ofTokens_tokens {t : Term} (h : t.Canonical) : Term.ofTokens t.tokens = .ok t := by
  have hfinal : IsFinal [] := ⟨trivial, by simp⟩
  have hread := (parses t h).expression hfinal
  rw [List.append_nil] at hread
  exact ofTokens_eq_ok_iff.mpr hread

end Term

end ClusterBlueprint
