import ClusterBlueprint.Proofs.Expression.Advance

/-!
Scanning the text of a tree gives the tokens of the tree.

`Lexer.Reads` is the step lemma's relation made into runs: from one state and input the lexer reads
some tokens and arrives at another state and input.  Runs are composed along the printer's text, so
the induction over trees needs to know of the text after a tree only that it ends words and numbers.
-/

namespace ClusterBlueprint

namespace Lexer

/-- From a state, the lexer reads the tokens and arrives at another state before the rest. -/
def Reads (state : State) (input : List Char) (tokens : List Token) (after : State)
    (rest : List Char) : Prop :=
  scanFrom state input = (scanFrom after rest).map (tokens ++ ·)

/-- A space in code is not read. -/
theorem scanFrom_blank {state : State} (hstate : state.isCode) (input : List Char) :
    scanFrom state (' ' :: input) = scanFrom state input := by
  rw [scanFrom_eq, scanFrom_eq, advance_blank hstate rfl]

namespace Reads

variable {state middle after : State} {input between rest : List Char} {tokens more : List Token}

theorem refl (state : State) (input : List Char) : Reads state input [] state input := by
  unfold Reads
  cases scanFrom state input <;> rfl

theorem trans (hfirst : Reads state input tokens middle between)
    (hsecond : Reads middle between more after rest) :
    Reads state input (tokens ++ more) after rest := by
  unfold Reads at *
  rw [hfirst, hsecond]
  cases scanFrom after rest with
  | error fault => rfl
  | ok last => simp [Except.map]

theorem cons {token : Token} (hfirst : advance state input = .ok (some (token, middle, between)))
    (hsecond : Reads middle between more after rest) :
    Reads state input (token :: more) after rest := by
  have hone : Reads state input [token] middle between := scanFrom_of_advance hfirst
  exact hone.trans hsecond

theorem single {token : Token} (h : advance state input = .ok (some (token, after, rest))) :
    Reads state input [token] after rest := cons h (refl after rest)

theorem blank (hstate : state.isCode) (h : Reads state input tokens after rest) :
    Reads state (' ' :: input) tokens after rest := by
  unfold Reads at *
  rw [scanFrom_blank hstate, h]

theorem assign (hstate : state.isCode) (h : Reads state input tokens after rest) :
    Reads state (' ' :: '=' :: ' ' :: input) (.assign :: tokens) after rest :=
  .blank hstate (.cons (advance_sign hstate rfl) (.blank hstate h))

theorem comma (hstate : state.isCode) (h : Reads state input tokens after rest) :
    Reads state (',' :: ' ' :: input) (.comma :: tokens) after rest :=
  .cons (advance_sign hstate rfl) (.blank hstate h)

end Reads

theorem isCode_openBrace {state : State} (h : state.isCode) : state.openBrace.isCode := by
  cases state with
  | template outer => exact h
  | _ => rfl

/-- The brace that closes the one just opened. -/
theorem closeBrace?_openBrace {state : State} (h : state.isCode) :
    state.openBrace.closeBrace? = some (.closeBrace, state) := by
  cases state with
  | template outer => exact absurd h Bool.false_ne_true
  | _ => rfl

/-- An operator before a blank; without the blank its sign might be read as a longer one. -/
theorem advance_operator {state : State} (hstate : state.isCode) (op : BinaryOperator)
    (rest : List Char) :
    advance state (op.text.toList ++ ' ' :: rest)
      = .ok (some (.operator op, state, ' ' :: rest)) := by
  cases op <;> exact advance_sign hstate rfl

/-- The sign before an operand; an equals sign after it would make it a longer one. -/
theorem advance_unary {state : State} (hstate : state.isCode) (op : UnaryOperator)
    {rest : List Char} (h : rest.head? ≠ some '=') :
    advance state (op.text.toList ++ rest) = .ok (some (op.token, state, rest)) := by
  cases op with
  | neg => exact advance_sign hstate rfl
  | not =>
    have hsign : scanSign ('!' :: rest) = some (.bang, rest) := by
      unfold scanSign
      split <;> simp_all
    exact advance_sign hstate hsign

theorem head_word_ne_assign {name : String} (hname : isIdentifier name) (rest : List Char) :
    (name.toList ++ rest).head? ≠ some '=' := by
  obtain ⟨first, more, heq, hfirst, -⟩ := exists_cons_of_isIdentifier hname
  rw [heq]
  rintro ⟨⟩
  exact absurd hfirst (by decide)

theorem ends_word {name : String} (hname : isIdentifier name) (rest : List Char) :
    Ends ('.' :: (name.toList ++ rest)) := by
  obtain ⟨first, more, heq, hfirst, -⟩ := exists_cons_of_isIdentifier hname
  rw [heq]
  exact ends_dot (not_isDigit_of_isIdentStart hfirst) _

end Lexer

open Lexer

namespace Term

/-- The first character of a tree's text is no equals sign, so a sign may stand before it. -/
theorem head_text_ne_assign :
    ∀ (t : Term), t.Canonical → ∀ (rest : List Char), (t.text.toList ++ rest).head? ≠ some '='
  | .null, _, rest => by simp [text]
  | .bool value, _, rest => by cases value <;> simp [text]
  | .number value, h, rest => by
    obtain ⟨first, more, htext, hdigit, -⟩ := scanNumber_source h ends_nil
    rw [text, htext]
    rintro ⟨⟩
    exact absurd hdigit (by decide)
  | .template parts, _, rest => by simp [text]
  | .traversal root steps, h, rest => by
    have htext : (traversal root steps).text.toList ++ rest
        = root.toList ++ ((stepsText steps).toList ++ rest) := by simp [text]
    rw [htext]
    exact head_word_ne_assign (Bool.and_eq_true_iff.mp h.1).1 _
  | .relative source steps, h, rest => by
    have htext : (relative source steps).text.toList ++ rest
        = source.text.toList ++ ((stepsText steps).toList ++ rest) := by simp [text]
    rw [htext]
    exact head_text_ne_assign source h.2.2.1 _
  | .call name args, h, rest => by
    have htext : (call name args).text.toList ++ rest
        = name.toList ++ '(' :: ((listText args).toList ++ ')' :: rest) := by simp [text]
    rw [htext]
    exact head_word_ne_assign (Bool.and_eq_true_iff.mp h.1).1 _
  | .tuple items, _, rest => by simp [text]
  | .object items, _, rest => by simp [text]
  | .unary op operand, _, rest => by cases op <;> simp [text, UnaryOperator.text]
  | .binary op left right, h, rest => by
    have htext : (binary op left right).text.toList ++ rest
        = left.text.toList ++ ' ' :: (op.text.toList ++ ' ' :: (right.text.toList ++ rest)) := by
      simp [text]
    rw [htext]
    exact head_text_ne_assign left h.2.2.1 _
  | .conditional condition yes no, h, rest => by
    have htext : (conditional condition yes no).text.toList ++ rest
        = condition.text.toList ++ ' ' :: '?' :: ' ' :: (yes.text.toList
          ++ ' ' :: ':' :: ' ' :: (no.text.toList ++ rest)) := by
      simp [text]
    rw [htext]
    exact head_text_ne_assign condition h.2.1 _
  | .parens inner, _, rest => by simp [text]
termination_by structural t => t

theorem ends_stepsText {steps : List Step} (h : CanonicalSteps steps) {rest : List Char}
    (hrest : Ends rest) : Ends ((stepsText steps).toList ++ rest) := by
  rcases steps with _ | ⟨⟨name⟩ | ⟨t⟩, steps⟩
  · exact hrest
  · have htext : (stepsText (.attribute name :: steps)).toList ++ rest
        = '.' :: (name.toList ++ ((stepsText steps).toList ++ rest)) := by simp [stepsText]
    rw [htext]
    exact ends_word h.1 _
  · have htext : (stepsText (.index t :: steps)).toList ++ rest
        = '[' :: (t.text.toList ++ ']' :: ((stepsText steps).toList ++ rest)) := by
      simp [stepsText]
    rw [htext]
    exact ends_cons (by decide) (by decide) _

theorem endsText_partsText {text : String} {parts : List Part} (h : mayPrecede text parts)
    (rest : List Char) : EndsText text.toList ((partsText parts).toList ++ '"' :: rest) := by
  cases parts with
  | nil => exact .inl ⟨rest, rfl⟩
  | cons part parts =>
    cases part with
    | literal next => exact h.elim
    | interpolation t =>
      refine .inr ⟨⟨t.text.toList ++ '}' :: ((partsText parts).toList ++ '"' :: rest), ?_⟩, h⟩
      simp [partsText]

mutual

/-- The text of a tree is read as its tokens. -/
theorem reads_text {state : State} (hstate : state.isCode) :
    ∀ (t : Term), t.Canonical → ∀ {rest : List Char}, Ends rest →
      Reads state (t.text.toList ++ rest) t.tokens state rest
  | .null, _, rest, hrest => .single (advance_ident hstate (by decide) hrest)
  | .bool value, _, rest, hrest => by
    cases value with
    | false => exact .single (advance_ident hstate (by decide) hrest)
    | true => exact .single (advance_ident hstate (by decide) hrest)
  | .number value, h, rest, hrest => .single (advance_number hstate h hrest)
  | .template parts, h, rest, hrest => by
    have htext : (template parts).text.toList ++ rest
        = '"' :: ((partsText parts).toList ++ '"' :: rest) := by simp [text]
    rw [htext]
    exact .cons (advance_openQuote hstate _)
      (.trans (reads_partsText parts h rest) (.single (advance_closeQuote state rest)))
  | .traversal root steps, h, rest, hrest => by
    have htext : (traversal root steps).text.toList ++ rest
        = root.toList ++ ((stepsText steps).toList ++ rest) := by simp [text]
    have hroot := (Bool.and_eq_true_iff.mp h.1).1
    rw [htext]
    exact .cons (advance_ident hstate hroot (ends_stepsText h.2 hrest))
      (reads_stepsText hstate steps h.2 hrest)
  | .relative source steps, h, rest, hrest => by
    have htext : (relative source steps).text.toList ++ rest
        = source.text.toList ++ ((stepsText steps).toList ++ rest) := by simp [text]
    obtain ⟨-, -, hsource, hsteps⟩ := h
    rw [htext]
    exact .trans (reads_text hstate source hsource (ends_stepsText hsteps hrest))
      (reads_stepsText hstate steps hsteps hrest)
  | .call name args, h, rest, hrest => by
    have htext : (call name args).text.toList ++ rest
        = name.toList ++ '(' :: ((listText args).toList ++ ')' :: rest) := by simp [text]
    have hname := (Bool.and_eq_true_iff.mp h.1).1
    rw [htext]
    exact .cons (advance_ident hstate hname (ends_cons (by decide) (by decide) _))
      (.cons (advance_sign hstate rfl)
        (.trans (reads_listText hstate args h.2 (ends_cons (by decide) (by decide) _))
          (.single (advance_sign hstate rfl))))
  | .tuple items, h, rest, hrest => by
    have htext : (tuple items).text.toList ++ rest
        = '[' :: ((listText items).toList ++ ']' :: rest) := by simp [text]
    rw [htext]
    exact .cons (advance_sign hstate rfl)
      (.trans (reads_listText hstate items h (ends_cons (by decide) (by decide) _))
        (.single (advance_sign hstate rfl)))
  | .object items, h, rest, hrest => by
    have htext : (object items).text.toList ++ rest
        = '{' :: ((itemsText items).toList ++ '}' :: rest) := by simp [text]
    have hinner := isCode_openBrace hstate
    rw [htext]
    exact .cons (advance_openBrace hstate _)
      (.trans (reads_itemsText hinner items h (ends_cons (by decide) (by decide) _))
        (.single (advance_closeBrace hinner (closeBrace?_openBrace hstate) rest)))
  | .unary op operand, h, rest, hrest => by
    have htext : (unary op operand).text.toList ++ rest
        = op.text.toList ++ (operand.text.toList ++ rest) := by simp [text]
    rw [htext]
    exact .cons (advance_unary hstate op (head_text_ne_assign operand h.2 rest))
      (reads_text hstate operand h.2 hrest)
  | .binary op left right, h, rest, hrest => by
    have htext : (binary op left right).text.toList ++ rest
        = left.text.toList ++ ' ' :: (op.text.toList ++ ' ' :: (right.text.toList ++ rest)) := by
      simp [text]
    obtain ⟨-, -, hleft, hright⟩ := h
    rw [htext]
    exact .trans (reads_text hstate left hleft (ends_cons (by decide) (by decide) _))
      (.blank hstate (.cons (advance_operator hstate op _)
        (.blank hstate (reads_text hstate right hright hrest))))
  | .conditional condition yes no, h, rest, hrest => by
    have htext : (conditional condition yes no).text.toList ++ rest
        = condition.text.toList ++ ' ' :: '?' :: ' ' :: (yes.text.toList
          ++ ' ' :: ':' :: ' ' :: (no.text.toList ++ rest)) := by
      simp [text]
    obtain ⟨-, hcondition, hyes, hno⟩ := h
    rw [htext]
    exact .trans (reads_text hstate condition hcondition (ends_cons (by decide) (by decide) _))
      (.blank hstate (.cons (advance_sign hstate rfl) (.blank hstate
        (.trans (reads_text hstate yes hyes (ends_cons (by decide) (by decide) _))
          (.blank hstate (.cons (advance_sign hstate rfl)
            (.blank hstate (reads_text hstate no hno hrest))))))))
  | .parens inner, h, rest, hrest => by
    have htext : (parens inner).text.toList ++ rest
        = '(' :: (inner.text.toList ++ ')' :: rest) := by simp [text]
    rw [htext]
    exact .cons (advance_sign hstate rfl)
      (.trans (reads_text hstate inner h (ends_cons (by decide) (by decide) _))
        (.single (advance_sign hstate rfl)))
termination_by structural t => t

theorem reads_partsText {state : State} :
    ∀ (parts : List Part), CanonicalParts parts → ∀ (rest : List Char),
      Reads (.template state) ((partsText parts).toList ++ '"' :: rest) (partsTokens parts)
        (.template state) ('"' :: rest)
  | [], _, rest => .refl _ _
  | .literal text :: parts, h, rest => by
    obtain ⟨hne, hprecede, hparts⟩ := h
    have htext : (partsText (.literal text :: parts)).toList ++ '"' :: rest
        = (Token.literalText text).toList ++ ((partsText parts).toList ++ '"' :: rest) := by
      simp [partsText]
    rw [htext]
    exact .cons (advance_literal state hne (endsText_partsText hprecede rest))
      (reads_partsText parts hparts rest)
  | .interpolation t :: parts, h, rest => by
    have htext : (partsText (.interpolation t :: parts)).toList ++ '"' :: rest
        = '$' :: '{' :: (t.text.toList ++ '}' :: ((partsText parts).toList ++ '"' :: rest)) := by
      simp [partsText]
    rw [htext]
    exact .cons (advance_openInterpolation state _)
      (.trans (reads_text rfl t h.1 (ends_cons (by decide) (by decide) _))
        (.cons (advance_closeBrace rfl rfl _) (reads_partsText parts h.2 rest)))
termination_by structural t => t

theorem reads_stepsText {state : State} (hstate : state.isCode) :
    ∀ (steps : List Step), CanonicalSteps steps → ∀ {rest : List Char}, Ends rest →
      Reads state ((stepsText steps).toList ++ rest) (stepsTokens steps) state rest
  | [], _, rest, hrest => .refl state rest
  | .attribute name :: steps, h, rest, hrest => by
    have htext : (stepsText (.attribute name :: steps)).toList ++ rest
        = '.' :: (name.toList ++ ((stepsText steps).toList ++ rest)) := by simp [stepsText]
    rw [htext]
    exact .cons (advance_sign hstate rfl)
      (.cons (advance_ident hstate h.1 (ends_stepsText h.2 hrest))
        (reads_stepsText hstate steps h.2 hrest))
  | .index t :: steps, h, rest, hrest => by
    have htext : (stepsText (.index t :: steps)).toList ++ rest
        = '[' :: (t.text.toList ++ ']' :: ((stepsText steps).toList ++ rest)) := by
      simp [stepsText]
    rw [htext]
    exact .cons (advance_sign hstate rfl)
      (.trans (reads_text hstate t h.1 (ends_cons (by decide) (by decide) _))
        (.cons (advance_sign hstate rfl) (reads_stepsText hstate steps h.2 hrest)))
termination_by structural t => t

theorem reads_listText {state : State} (hstate : state.isCode) :
    ∀ (items : List Term), CanonicalList items → ∀ {rest : List Char}, Ends rest →
      Reads state ((listText items).toList ++ rest) (listTokens items) state rest
  | [], _, rest, hrest => .refl state rest
  | [t], h, rest, hrest => reads_text hstate t h.1 hrest
  | t :: next :: items, h, rest, hrest => by
    have htext : (listText (t :: next :: items)).toList ++ rest
        = t.text.toList ++ ',' :: ' ' :: ((listText (next :: items)).toList ++ rest) := by
      simp [listText]
    rw [htext]
    exact .trans (reads_text hstate t h.1 (ends_cons (by decide) (by decide) _))
      (.comma hstate (reads_listText hstate (next :: items) h.2 hrest))
termination_by structural t => t

theorem reads_itemsText {state : State} (hstate : state.isCode) :
    ∀ (items : List Item), CanonicalItems items → ∀ {rest : List Char}, Ends rest →
      Reads state ((itemsText items).toList ++ rest) (itemsTokens items) state rest
  | [], _, rest, hrest => .refl state rest
  | [.named name value], h, rest, hrest => by
    have htext : (itemsText [.named name value]).toList ++ rest
        = name.toList ++ ' ' :: '=' :: ' ' :: (value.text.toList ++ rest) := by simp [itemsText]
    rw [htext]
    exact .cons (advance_ident hstate h.1 (ends_cons (by decide) (by decide) _))
      (.assign hstate (reads_text hstate value h.2.1 hrest))
  | [.computed key value], h, rest, hrest => by
    have htext : (itemsText [.computed key value]).toList ++ rest
        = key.text.toList ++ ' ' :: '=' :: ' ' :: (value.text.toList ++ rest) := by
      simp [itemsText]
    rw [htext]
    exact .trans (reads_text hstate key h.2.1 (ends_cons (by decide) (by decide) _))
      (.assign hstate (reads_text hstate value h.2.2.1 hrest))
  | .named name value :: next :: items, h, rest, hrest => by
    have htext : (itemsText (.named name value :: next :: items)).toList ++ rest
        = name.toList ++ ' ' :: '=' :: ' ' :: (value.text.toList
          ++ ',' :: ' ' :: ((itemsText (next :: items)).toList ++ rest)) := by simp [itemsText]
    obtain ⟨hname, hvalue, hitems⟩ := h
    rw [htext]
    exact .cons (advance_ident hstate hname (ends_cons (by decide) (by decide) _))
      (.assign hstate
        (.trans (reads_text hstate value hvalue (ends_cons (by decide) (by decide) _))
          (.comma hstate (reads_itemsText hstate (next :: items) hitems hrest))))
  | .computed key value :: next :: items, h, rest, hrest => by
    have htext : (itemsText (.computed key value :: next :: items)).toList ++ rest
        = key.text.toList ++ ' ' :: '=' :: ' ' :: (value.text.toList
          ++ ',' :: ' ' :: ((itemsText (next :: items)).toList ++ rest)) := by simp [itemsText]
    obtain ⟨-, hkey, hvalue, hitems⟩ := h
    rw [htext]
    exact .trans (reads_text hstate key hkey (ends_cons (by decide) (by decide) _))
      (.assign hstate
        (.trans (reads_text hstate value hvalue (ends_cons (by decide) (by decide) _))
          (.comma hstate (reads_itemsText hstate (next :: items) hitems hrest))))
termination_by structural t => t

end

/-- Scanning the text of a tree gives the tokens of the tree. -/
theorem scan_text {t : Term} (h : t.Canonical) : Token.scan t.text = .ok t.tokens := by
  have hread : Reads (.source 0) (t.text.toList ++ []) t.tokens (.source 0) [] :=
    reads_text rfl t h ends_nil
  have hend : scanFrom (.source 0) [] = .ok [] := by
    rw [scanFrom_eq, advance_eq rfl]
    rfl
  rw [List.append_nil, Reads, hend] at hread
  rw [Token.scan, hread, Except.map, List.append_nil]

end Term

end ClusterBlueprint
