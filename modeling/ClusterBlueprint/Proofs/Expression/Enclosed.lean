import ClusterBlueprint.Proofs.Expression.Joined
import ClusterBlueprint.Proofs.Expression.Renumbered
import ClusterBlueprint.Proofs.References

/-!
Source text in parentheses.

No token goes on with a closing parenthesis, so the lexer reads the same tokens where one is put
after the text.  The parser leaves it after a whole tree.  So an expression that can be read can be
read in parentheses.
-/

namespace ClusterBlueprint

namespace Lexer

/-! ## A closing parenthesis after the input -/

variable {state after : State} {token : Token} {input rest : List Char}

theorem takeWhile_concat {p : Char → Bool} {c : Char} (hc : p c = false) (cs : List Char) :
    (cs ++ [c]).takeWhile p = cs.takeWhile p := by
  induction cs with
  | nil => exact List.takeWhile_cons_of_neg (Bool.eq_false_iff.mp hc)
  | cons d cs ih => simp only [List.cons_append, List.takeWhile_cons, ih]

theorem dropWhile_concat {p : Char → Bool} {c : Char} (hc : p c = false) (cs : List Char) :
    (cs ++ [c]).dropWhile p = cs.dropWhile p ++ [c] := by
  induction cs with
  | nil => exact List.dropWhile_cons_of_neg (Bool.eq_false_iff.mp hc)
  | cons d cs ih =>
    simp only [List.cons_append, List.dropWhile_cons, ih]
    split <;> rfl

theorem digits_concat (cs : List Char) :
    (cs ++ [')']).takeWhile Char.isDigit = cs.takeWhile Char.isDigit
      ∧ (cs ++ [')']).dropWhile Char.isDigit = cs.dropWhile Char.isDigit ++ [')'] :=
  ⟨takeWhile_concat (by decide) cs, dropWhile_concat (by decide) cs⟩

theorem scanFraction_concat (input : List Char) :
    scanFraction (input ++ [')']) = ((scanFraction input).1, (scanFraction input).2 ++ [')']) := by
  cases input with
  | nil => rfl
  | cons c rest =>
    by_cases hc : c = '.'
    · subst hc
      simp only [List.cons_append, scanFraction, digits_concat]
      split <;> rfl
    · simp [scanFraction, hc]

theorem scanExponent_concat (input : List Char) :
    scanExponent (input ++ [')']) = ((scanExponent input).1, (scanExponent input).2 ++ [')']) := by
  cases input with
  | nil => rfl
  | cons mark rest =>
    simp only [List.cons_append, scanExponent]
    split
    · cases rest with
      | nil => rfl
      | cons c rest =>
        by_cases hplus : c = '+'
        · subst hplus
          simp only [List.cons_append, digits_concat]
          split <;> rfl
        by_cases hminus : c = '-'
        · subst hminus
          simp only [List.cons_append, digits_concat]
          split <;> rfl
        have hdigits := digits_concat (c :: rest)
        split <;> simp_all
    · rfl

theorem scanNumber_concat (first : Char) (input : List Char) :
    scanNumber first (input ++ [')'])
      = ((scanNumber first input).1, (scanNumber first input).2 ++ [')']) := by
  simp only [scanNumber, digits_concat, scanFraction_concat, scanExponent_concat]

theorem ne_cons_concat {d : Char} (hd : ')' ≠ d) (h : ∀ more, rest = d :: more → False)
    (more : List Char) : rest ++ [')'] = d :: more → False := by
  intro heq
  cases rest with
  | nil => exact hd (List.cons.inj heq).1
  | cons c rest => exact h rest (congrArg (· :: rest) (List.cons.inj heq).1)

theorem scanSign_concat (h : scanSign input = some (token, rest)) :
    scanSign (input ++ [')']) = some (token, rest ++ [')']) := by
  -- A sign that another one goes on from is not followed by its second character.
  have hequal {more : List Char} (hnot : ∀ rest, more = '=' :: rest → False) :
      ∀ rest, more ++ [')'] = '=' :: rest → False := ne_cons_concat (by decide) hnot
  unfold scanSign at h
  split at h <;> cases h
  case h_7 hnot => exact scanSign.eq_7 _ (hequal hnot)
  case h_8 hnot => exact scanSign.eq_8 _ (hequal hnot)
  case h_9 hnot => exact scanSign.eq_9 _ (hequal hnot)
  case h_10 hnot => exact scanSign.eq_10 _ (hequal hnot)
  all_goals rfl

/-- Literal text that ends does so before the parenthesis. -/
theorem scanLiteral_concat {text : List Char} (h : scanLiteral input = .ok (text, rest)) :
    scanLiteral (input ++ [')']) = .ok (text, rest ++ [')']) := by
  fun_induction scanLiteral input generalizing text with
  | case1 => exact absurd h (by simp)
  | case2 tail =>
    obtain ⟨rfl, rfl⟩ := Prod.mk.inj (Except.ok.inj h)
    rfl
  | case3 tail =>
    obtain ⟨rfl, rfl⟩ := Prod.mk.inj (Except.ok.inj h)
    rfl
  | case4 tail ih =>
    obtain ⟨_, rfl, hbrace⟩ := withChar_eq_ok h
    obtain ⟨_, rfl, htail⟩ := withChar_eq_ok hbrace
    show withChar '$' (withChar '{' (scanLiteral (tail ++ [')']))) = _
    rw [ih htail]
    rfl
  | case5 => exact absurd h (by simp)
  | case6 letter tail c hletter ih =>
    obtain ⟨_, rfl, htail⟩ := withChar_eq_ok h
    rw [List.cons_append, List.cons_append, scanLiteral, hletter, ih htail]
    rfl
  | case7 => exact absurd h (by simp)
  | case8 c tail hquote hopen hdollar hslash hescape ih =>
    obtain ⟨_, rfl, htail⟩ := withChar_eq_ok h
    -- Text that goes on does not end here, so a character follows.
    cases tail with
    | nil => exact absurd htail (by simp [scanLiteral])
    | cons d tail =>
      rw [List.cons_append, List.cons_append, scanLiteral.eq_7 c _ hquote, ← List.cons_append,
        ih htail]
      · rfl
      · rintro more rfl heq
        obtain ⟨rfl, -⟩ := List.cons.inj heq
        exact hopen tail rfl rfl
      · rintro more rfl heq
        obtain ⟨rfl, hmore⟩ := List.cons.inj heq
        cases tail with
        | nil => exact absurd (List.cons.inj hmore).1 (by decide)
        | cons e tail =>
          obtain ⟨rfl, -⟩ := List.cons.inj hmore
          exact hdollar tail rfl rfl
      · exact fun _ => List.cons_ne_nil _ _
      · rintro letter more rfl heq
        obtain ⟨rfl, -⟩ := List.cons.inj heq
        exact hescape _ tail rfl rfl

/-- What a step reads, the state after it and the input that is left. -/
def Step.read (step : Step input) : Token × State × List Char := (step.token, step.state, step.rest)

theorem exists_append_of_take {front : List Char} {n : Nat} (h : input.take n = front) :
    ∃ rest, input = front ++ rest := ⟨input.drop n, by rw [← h, List.take_append_drop]⟩

theorem templateStep_concat {outer : State} {step : Step input}
    (h : templateStep outer input = .ok step) :
    ∃ next, templateStep outer (input ++ [')']) = .ok next
      ∧ next.read = (step.token, step.state, step.rest ++ [')']) := by
  have hscanned := (advanced_templateStep h).1
  unfold templateStep at h
  split at h
  · next hquote =>
    obtain rfl := Except.ok.inj h
    obtain ⟨rest, rfl⟩ := exists_append_of_take hquote
    exact ⟨_, rfl, rfl⟩
  split at h
  · next hopen =>
    obtain rfl := Except.ok.inj h
    obtain ⟨rest, rfl⟩ := exists_append_of_take hopen
    exact ⟨_, rfl, rfl⟩
  split at h
  · exact absurd h (by simp)
  · next text rest hscan =>
    obtain rfl := Except.ok.inj h
    have htext : text ≠ [] := fun heq => hscanned (String.ofList_eq_empty_iff.mpr heq)
    have hread := templateStep_of_scanLiteral outer (scanLiteral_concat hscan) htext
    cases hnext : templateStep outer (input ++ [')']) with
    | error fault => simp [hnext, Except.map] at hread
    | ok next =>
      rw [hnext] at hread
      exact ⟨next, rfl, Except.ok.inj hread⟩

theorem codeStep_concat {c : Char} {step : Step (c :: input)}
    (h : codeStep state c input = .ok step) :
    ∃ next, codeStep state c (input ++ [')']) = .ok next
      ∧ next.read = (step.token, step.state, step.rest ++ [')']) := by
  unfold codeStep at h ⊢
  split at h
  · next hquote =>
    obtain rfl := Except.ok.inj h
    rw [if_pos hquote]
    exact ⟨_, rfl, rfl⟩
  next hquote =>
  rw [if_neg hquote]
  split at h
  · next hopen =>
    obtain rfl := Except.ok.inj h
    rw [if_pos hopen]
    exact ⟨_, rfl, rfl⟩
  next hopen =>
  rw [if_neg hopen]
  split at h
  · next hclose =>
    rw [if_pos hclose]
    split at h
    · obtain rfl := Except.ok.inj h
      exact ⟨_, rfl, rfl⟩
    · exact absurd h (by simp)
  next hclose =>
  rw [if_neg hclose]
  split at h
  · next hdigit =>
    obtain rfl := Except.ok.inj h
    rw [if_pos hdigit]
    exact ⟨_, rfl, by simp only [Step.read, scanNumber_concat]⟩
  next hdigit =>
  rw [if_neg hdigit]
  split at h
  · next hstart =>
    obtain rfl := Except.ok.inj h
    have hparen : isIdentContinue ')' = false := by decide
    rw [if_pos hstart]
    exact ⟨_, rfl, by simp only [Step.read, takeWhile_concat hparen, dropWhile_concat hparen]⟩
  next hstart =>
  rw [if_neg hstart]
  split at h
  · next hsign =>
    obtain rfl := Except.ok.inj h
    have hsame := scanSign_concat hsign
    rw [List.cons_append] at hsame
    split
    · next heq =>
      obtain ⟨rfl, rfl⟩ := Prod.mk.inj (Option.some.inj (hsame.symm.trans heq))
      exact ⟨_, rfl, rfl⟩
    · next heq => exact absurd (hsame.symm.trans heq) (by simp)
  · exact absurd h (by simp)

/-- A token is read before the parenthesis as it is read at the end. -/
theorem advance_concat (h : advance state input = .ok (some (token, after, rest))) :
    advance state (input ++ [')']) = .ok (some (token, after, rest ++ [')'])) := by
  by_cases hstate : state.isCode
  · rw [advance_eq hstate] at h ⊢
    rw [dropWhile_concat (by decide)]
    cases hdrop : input.dropWhile isBlank with
    | nil =>
      rw [hdrop] at h
      dsimp only at h
      split at h <;> exact absurd h (by simp)
    | cons c more =>
      rw [hdrop] at h
      cases hstep : codeStep state c more with
      | error fault => simp [hstep, Except.map] at h
      | ok step =>
        simp only [hstep, Except.map, Except.ok.injEq, Option.some.injEq, Prod.mk.injEq] at h
        obtain ⟨rfl, rfl, rfl⟩ := h
        obtain ⟨next, hnext, hread⟩ := codeStep_concat hstep
        show (codeStep state c (more ++ [')'])).map (fun step => some step.read) = _
        rw [hnext, Except.map, hread]
  · rcases exists_step_of_advance h with ⟨hcode, -⟩ | ⟨outer, step, rfl, hstep, rfl, rfl, rfl⟩
    · exact absurd hcode hstate
    obtain ⟨next, hnext, hread⟩ := templateStep_concat hstep
    show ((templateStep outer (input ++ [')'])).map some).map (Option.map Step.read) = _
    rw [hnext, Except.map, Except.map, Option.map, hread]

/-- At the end of the input the parenthesis is the next token. -/
theorem advance_closeParen (h : advance state input = .ok none) :
    advance state (input ++ [')']) = .ok (some (.closeParen, state, [])) := by
  have hcode : state.isCode := by
    have hend := mayEnd_of_advance h
    cases state with
    | source braces => rfl
    | _ => exact absurd hend Bool.false_ne_true
  rw [advance_eq hcode] at h ⊢
  rw [dropWhile_concat (by decide)]
  cases hdrop : input.dropWhile isBlank with
  | nil => rfl
  | cons c more =>
    rw [hdrop] at h
    cases hstep : codeStep state c more <;> simp [hstep, Except.map] at h

/-- What is read up to the end is read up to the parenthesis. -/
theorem Scans.concat {tokens : List Token} (h : Scans state input tokens) :
    scanFrom state (input ++ [')']) = .ok (tokens ++ [.closeParen]) := by
  induction h with
  | done hend =>
    rw [scanFrom_of_advance (advance_closeParen hend), scanFrom_nil (mayEnd_of_advance hend)]
    rfl
  | step hstep _ ih =>
    rw [scanFrom_of_advance (advance_concat hstep), ih]
    rfl

end Lexer

/-! ## Parentheses around source text -/

def parenthesised (source : String) : String := "(" ++ source ++ ")"

theorem Token.scan_parenthesised {source : String} {tokens : List Token}
    (h : scan source = .ok tokens) :
    scan (parenthesised source) = .ok (.openParen :: (tokens ++ [.closeParen])) := by
  have htext : (parenthesised source).toList = '(' :: (source.toList ++ [')']) := by
    simp [parenthesised]
  rw [scan, htext, Lexer.scanFrom_of_advance (Lexer.advance_sign rfl rfl),
    (Lexer.scans_of_scanFrom h).concat]
  rfl

/-- An expression is also read in parentheses. -/
theorem Expression.parse_parenthesised {source : String} {e : Expression}
    (h : parse source = .ok e) : parse (parenthesised source) = .ok ⟨.parens e.term⟩ := by
  obtain ⟨hterm, hreferences⟩ := parse_eq_ok.mp h
  obtain ⟨tokens, hscan, htokens⟩ := Checked.bind_eq_ok.mp hterm
  refine parse_eq_ok.mpr ⟨?_, fun root steps hmem => ?_⟩
  · exact Checked.bind_eq_ok.mpr ⟨_, Token.scan_parenthesised hscan, Term.ofTokens_parens htokens⟩
  · exact hreferences root steps ((List.mem_cons.mp hmem).resolve_left nofun)

theorem Expression.references_parens (t : Term) :
    (⟨.parens t⟩ : Expression).references = (⟨t⟩ : Expression).references := by
  rw [references_eq, references_eq]
  rfl

end ClusterBlueprint
