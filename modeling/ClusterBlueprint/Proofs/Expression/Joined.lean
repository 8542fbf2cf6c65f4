import ClusterBlueprint.Proofs.Expression.Lexed
import ClusterBlueprint.Proofs.Expression.Scanning

/-!
Joined tokens are read as the same tokens.

Which token a piece of text is depends on what the lexer is reading: the closing brace of an
interpolation is written like any other, and a space is text within the quotes of a template.
`Lexer.Moves` is the stack of states seen from the tokens alone, so that the tokens of one text take
the lexer through the same states in another text.  There a token is followed by a space wherever
the lexer is in code, and by the next piece of the template wherever it is not.
-/

namespace ClusterBlueprint

def Token.staysInCode : Token → Bool
  | openQuote | closeQuote | literal _ | openInterpolation | closeInterpolation
  | openBrace | closeBrace => false
  | _ => true

def Token.isInTemplate : Token → Bool
  | closeQuote | literal _ | openInterpolation => true
  | _ => false

namespace Lexer

/-! ## The states along some tokens -/

/-- A token that may be read in a state, and the state after it. -/
inductive Moves : State → Token → State → Prop
  | closeQuote {outer : State} : Moves (.template outer) .closeQuote outer
  | openInterpolation {outer : State} :
    Moves (.template outer) .openInterpolation (.interpolation 0 (.template outer))
  | literal {outer : State} {text : String} :
    Moves (.template outer) (.literal text) (.template outer)
  | openQuote {state : State} (hcode : state.isCode) : Moves state .openQuote (.template state)
  | openBrace {state : State} (hcode : state.isCode) : Moves state .openBrace state.openBrace
  | closeBrace {state after : State} {token : Token}
    (hclose : state.closeBrace? = some (token, after)) : Moves state token after
  | stay {state : State} {token : Token} (hcode : state.isCode) (htoken : token.staysInCode) :
    Moves state token state

/-- The tokens may be read one after the other from a state on, up to where a source may end. -/
inductive Runs : State → List Token → Prop
  | done {state : State} (hend : state.mayEnd) : Runs state []
  | step {state after : State} {token : Token} {tokens : List Token}
    (hmoves : Moves state token after) (hruns : Runs after tokens) : Runs state (token :: tokens)

variable {state after : State} {token : Token} {tokens : List Token}

theorem staysInCode_of_scanSign {input rest : List Char}
    (h : scanSign input = some (token, rest)) : token.staysInCode := by
  unfold scanSign at h
  split at h <;> simp at h <;> obtain ⟨rfl, -⟩ := h <;> rfl

theorem moves_codeStep {c : Char} {input : List Char} {step : Step (c :: input)}
    (hcode : state.isCode) (h : codeStep state c input = .ok step) :
    Moves state step.token step.state := by
  unfold codeStep at h
  split at h
  · obtain rfl := Except.ok.inj h
    exact .openQuote hcode
  split at h
  · obtain rfl := Except.ok.inj h
    exact .openBrace hcode
  split at h
  · split at h
    · next hclose =>
      obtain rfl := Except.ok.inj h
      exact .closeBrace hclose
    · exact absurd h (by simp)
  split at h
  · obtain rfl := Except.ok.inj h
    exact .stay hcode rfl
  split at h
  · obtain rfl := Except.ok.inj h
    exact .stay hcode rfl
  split at h
  · next hsign =>
    obtain rfl := Except.ok.inj h
    exact .stay hcode (staysInCode_of_scanSign hsign)
  · exact absurd h (by simp)

theorem moves_templateStep {outer : State} {input : List Char} {step : Step input}
    (h : templateStep outer input = .ok step) : Moves (.template outer) step.token step.state := by
  unfold templateStep at h
  split at h
  · obtain rfl := Except.ok.inj h
    exact .closeQuote
  split at h
  · obtain rfl := Except.ok.inj h
    exact .openInterpolation
  split at h
  · exact absurd h (by simp)
  · obtain rfl := Except.ok.inj h
    exact .literal

/-- What the lexer reads takes it along. -/
theorem moves_of_advance {input rest : List Char}
    (h : advance state input = .ok (some (token, after, rest))) : Moves state token after := by
  rcases exists_step_of_advance h with ⟨hcode, _, _, -, step, hstep, rfl, rfl, -⟩
    | ⟨_, step, rfl, hstep, rfl, rfl, -⟩
  · exact moves_codeStep hcode hstep
  · exact moves_templateStep hstep

theorem mayEnd_of_advance {input : List Char} (h : advance state input = .ok none) :
    state.mayEnd := by
  by_cases hcode : state.isCode
  · rw [advance_eq hcode] at h
    split at h
    · split at h
      · next hend => exact hend
      · exact absurd h (by simp)
    · next c more _ => cases hstep : codeStep state c more <;> simp [hstep, Except.map] at h
  · cases state with
    | template outer =>
      have heq : advance (.template outer) input = ((templateStep outer input).map some).map
        (Option.map fun step => (step.token, step.state, step.rest)) := rfl
      rw [heq] at h
      cases hstep : templateStep outer input <;> simp [hstep, Except.map] at h
    | _ => exact absurd rfl hcode

/-- What the lexer reads up to the end of its input. -/
theorem Scans.runs {input : List Char} (h : Scans state input tokens) : Runs state tokens := by
  induction h with
  | done hend => exact .done (mayEnd_of_advance hend)
  | step hstep _ ih => exact .step (moves_of_advance hstep) ih

/-! ## The text of some tokens -/

theorem joinAfter_cons (before token : Token) (tokens : List Token) :
    (Token.joinAfter before (token :: tokens)).toList
      = (if Token.glued before token then [] else [' '])
        ++ (Token.join (token :: tokens)).toList := by
  rw [Token.joinAfter, Token.join]
  split <;> simp

theorem glued_of_isInTemplate {next : Token} (h : next.isInTemplate) (token : Token) :
    Token.glued token next := by
  cases next <;> first | exact absurd h Bool.false_ne_true | (cases token <;> rfl)

theorem glued_of_staysInCode (h : token.staysInCode) (next : Token) :
    Token.glued token next = next.isInTemplate := by
  cases token <;> first | exact absurd h Bool.false_ne_true | (cases next <;> rfl)

theorem eq_of_closeBrace? (h : state.closeBrace? = some (token, after)) :
    token = .closeBrace ∨ token = .closeInterpolation := by
  unfold State.closeBrace? at h
  split at h <;> simp at h <;> simp [← h.1]

/-- The token tells whether the lexer is in code. -/
theorem Moves.isCode (h : Moves state token after) : state.isCode = !token.isInTemplate := by
  cases h with
  | closeQuote => rfl
  | openInterpolation => rfl
  | literal => rfl
  | openQuote hcode => exact hcode
  | openBrace hcode => exact hcode
  | closeBrace hclose =>
    have hcode : state.isCode := by
      cases state with
      | template outer => exact absurd hclose.symm (Option.some_ne_none _)
      | _ => rfl
    rcases eq_of_closeBrace? hclose with rfl | rfl <;> exact hcode
  | stay hcode htoken =>
    rw [hcode]
    cases token <;> first | rfl | exact absurd htoken Bool.false_ne_true

/-- Where the lexer stays in code, a space follows unless the source ends. -/
theorem joinAfter_of_staysInCode (htoken : token.staysInCode) (hcode : state.isCode)
    (hruns : Runs state tokens) :
    (Token.joinAfter token tokens).toList = []
      ∨ ∃ rest, (Token.joinAfter token tokens).toList = ' ' :: rest := by
  cases hruns with
  | done => exact .inl rfl
  | @step _ _ next tokens hmoves _ =>
    have hnext : next.isInTemplate = false := by
      rw [← Bool.not_eq_true', ← hmoves.isCode, hcode]
    rw [joinAfter_cons, glued_of_staysInCode htoken, hnext]
    exact .inr ⟨_, rfl⟩

theorem ends_of_space {rest : List Char} (h : rest = [] ∨ ∃ more, rest = ' ' :: more) :
    Ends rest := by
  rcases h with rfl | ⟨more, rfl⟩
  · exact ends_nil
  · exact ends_cons (by decide) (by decide) more

/-- A sign is read as it is where nothing or a space follows. -/
theorem scanSign_text (htoken : token.staysInCode) (hident : ∀ name, token ≠ .ident name)
    (hnumber : ∀ value, token ≠ .number value) {rest : List Char}
    (hrest : rest = [] ∨ ∃ more, rest = ' ' :: more) :
    scanSign (token.text.toList ++ rest) = some (token, rest) := by
  cases token with
  | ident name => exact absurd rfl (hident name)
  | number value => exact absurd rfl (hnumber value)
  | operator op => rcases hrest with rfl | ⟨more, rfl⟩ <;> cases op <;> rfl
  | openQuote | closeQuote | literal | openInterpolation | closeInterpolation | openBrace
  | closeBrace => exact absurd htoken Bool.false_ne_true
  | _ => rcases hrest with rfl | ⟨more, rfl⟩ <;> rfl

theorem advance_staysInCode (hcode : state.isCode) (htoken : token.staysInCode)
    (hspelled : token.IsSpelled) {rest : List Char}
    (hrest : rest = [] ∨ ∃ more, rest = ' ' :: more) :
    advance state (token.text.toList ++ rest) = .ok (some (token, state, rest)) := by
  by_cases hident : ∃ name, token = .ident name
  · obtain ⟨name, rfl⟩ := hident
    exact advance_ident hcode hspelled (ends_of_space hrest)
  by_cases hnumber : ∃ value, token = .number value
  · obtain ⟨value, rfl⟩ := hnumber
    exact advance_number hcode hspelled (ends_of_space hrest)
  have hsign := scanSign_text htoken (not_exists.mp hident) (not_exists.mp hnumber) hrest
  cases htext : token.text.toList ++ rest with
  | nil =>
    rw [htext] at hsign
    exact absurd hsign nofun
  | cons c input =>
    rw [htext] at hsign
    exact advance_sign hcode hsign

/-- What literal text of a template is followed by. -/
theorem endsText_joinAfter {outer : State} {text : String}
    (hlexed : Lexed (.literal text :: tokens)) (hruns : Runs (.template outer) tokens) :
    EndsText text.toList (Token.joinAfter (.literal text) tokens).toList := by
  cases hruns with
  | done hend => exact absurd hend Bool.false_ne_true
  | @step _ _ next tokens hmoves _ =>
    have hprecedes := (List.isChain_cons_cons.mp hlexed.2).1
    have hglued : Token.glued (.literal text) next := by cases next <;> rfl
    rw [joinAfter_cons, if_pos hglued, List.nil_append, Token.join, String.toList_append]
    cases hmoves with
    | closeQuote => exact .inl ⟨_, rfl⟩
    | openInterpolation => exact .inr ⟨⟨_, rfl⟩, hprecedes⟩
    | literal => exact hprecedes.elim
    | openQuote hcode => exact absurd hcode Bool.false_ne_true
    | openBrace hcode => exact absurd hcode Bool.false_ne_true
    | closeBrace hclose => exact absurd hclose.symm (Option.some_ne_none _)
    | stay hcode => exact absurd hcode Bool.false_ne_true

/-- A token is read from the text that joining gives it, in the state that it was read in. -/
theorem advance_join (hmoves : Moves state token after) (hruns : Runs after tokens)
    (hlexed : Lexed (token :: tokens)) :
    advance state (Token.join (token :: tokens)).toList
      = .ok (some (token, after, (Token.joinAfter token tokens).toList)) := by
  rw [Token.join, String.toList_append]
  cases hmoves with
  | closeQuote => rfl
  | openInterpolation => rfl
  | literal => exact advance_literal _ hlexed.head (endsText_joinAfter hlexed hruns)
  | openQuote hcode => exact advance_openQuote hcode _
  | openBrace hcode => exact advance_openBrace hcode _
  | closeBrace hclose =>
    have hcode : state.isCode := by
      cases state with
      | template outer => exact absurd hclose.symm (Option.some_ne_none _)
      | _ => rfl
    have htext : token.text = "\x7d" := by
      rcases eq_of_closeBrace? hclose with rfl | rfl <;> rfl
    rw [htext]
    exact advance_closeBrace hcode hclose _
  | stay hcode htoken =>
    exact advance_staysInCode hcode htoken hlexed.head (joinAfter_of_staysInCode htoken hcode hruns)

theorem scanFrom_nil (hend : state.mayEnd) : scanFrom state [] = .ok [] := by
  cases state with
  | source braces =>
    rw [scanFrom_eq, advance_eq rfl]
    rfl
  | _ => exact absurd hend Bool.false_ne_true

/-- The space before a token does not matter, since there is none within a template. -/
theorem scanFrom_joinAfter (before : Token) (hruns : Runs state tokens) :
    scanFrom state (Token.joinAfter before tokens).toList
      = scanFrom state (Token.join tokens).toList := by
  cases hruns with
  | done => rfl
  | @step _ _ token tokens hmoves _ =>
    rw [joinAfter_cons]
    split
    · rfl
    · next hglued =>
      have hcode : state.isCode := by
        rw [hmoves.isCode, Bool.not_eq_true']
        exact Bool.eq_false_iff.mpr fun h => hglued (glued_of_isInTemplate h before)
      exact scanFrom_blank hcode _

/-- Joined tokens are read again, from the state in which they were read. -/
theorem scanFrom_join (hruns : Runs state tokens) (hlexed : Lexed tokens) :
    scanFrom state (Token.join tokens).toList = .ok tokens := by
  induction hruns with
  | done hend => exact scanFrom_nil hend
  | @step state after token tokens hmoves hruns ih =>
    rw [scanFrom_of_advance (advance_join hmoves hruns hlexed), scanFrom_joinAfter token hruns,
      ih hlexed.tail]
    rfl

end Lexer

/-- Tokens that were read from a source text are read again from the text that joins them, unless a
number among them is too large to be written. -/
theorem Token.scan_join {source : String} {tokens : List Token} (hscan : scan source = .ok tokens)
    (hfinite : ∀ value, .number value ∈ tokens → value.isFinite) :
    scan (join tokens) = .ok tokens :=
  Lexer.scanFrom_join (Lexer.scans_of_scanFrom hscan).runs (lexed_of_scan hscan hfinite)

/-- Braces of an object, of an interpolation and in literal text stand in one template. -/
theorem Token.scan_join_of_nested :
    let tokens := [.ident "max", .openParen, .openQuote, .literal "a$\x7bx\x7d", .openInterpolation,
      .openBrace, .ident "k", .assign, .ident "b", .closeBrace, .closeInterpolation, .closeQuote,
      .comma, .number (.ofInt 2), .closeParen]
    scan "max(\"a$$\x7bx\x7d$\x7b\x7bk = b\x7d\x7d\", 2)" = .ok tokens
      ∧ (∀ value, .number value ∈ tokens → value.isFinite)
      ∧ join tokens = "max ( \"a$$\x7bx\x7d$\x7b \x7b k = b \x7d \x7d\" , 2 )"
      ∧ scan (join tokens) = .ok tokens := by
  intro tokens
  let object : Term := .object [.named "k" (.traversal "b" [])]
  let t : Term :=
    .call "max" [.template [.literal "a$\x7bx\x7d", .interpolation object], .number (.ofInt 2)]
  have hlast : "a$\x7bx\x7d".toList.getLast? ≠ some '$' := by decide
  have hobject : object.Canonical := ⟨by decide, ⟨by decide, trivial⟩, trivial⟩
  have hnumber : (Number.ofInt 2).isWritable := by decide +kernel
  have ht : t.Canonical :=
    ⟨by decide, ⟨by decide, hlast, hobject, trivial⟩, hnumber, trivial⟩
  have htext : t.text = "max(\"a$$\x7bx\x7d$\x7b\x7bk = b\x7d\x7d\", 2)" := by decide +kernel
  have hscan : scan "max(\"a$$\x7bx\x7d$\x7b\x7bk = b\x7d\x7d\", 2)" = .ok tokens :=
    htext ▸ Term.scan_text ht
  have hfinite : ∀ value, .number value ∈ tokens → value.isFinite := by
    simp only [tokens, List.mem_cons, reduceCtorEq, false_or, Token.number.injEq, List.not_mem_nil,
      or_false]
    rintro _ rfl
    decide +kernel
  exact ⟨hscan, hfinite, by decide +kernel, scan_join hscan hfinite⟩

end ClusterBlueprint
