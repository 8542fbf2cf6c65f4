import ClusterBlueprint.Proofs.Expression.Canonical
import Mathlib.Data.List.Basic

/-!
What the lexer reads at the front of its input.

`Lexer.advance` is a step of the lexer without the proof that its rest is shorter.  For each kind of
token there is a lemma that says which characters in front of the input are read as that token, and
what has to follow them so that the lexer stops there.
-/

namespace ClusterBlueprint.Lexer

/-- The next token, the state after it and the input that is left, or nothing at the end of the
input. -/
def advance (state : State) (input : List Char) :
    Checked (Option (Token × State × List Char)) :=
  (step? state input).map (Option.map fun step => (step.token, step.state, step.rest))

theorem scanFrom_eq (state : State) (input : List Char) :
    scanFrom state input =
      match advance state input with
      | .error fault => .error fault
      | .ok none => .ok []
      | .ok (some (token, after, rest)) => (scanFrom after rest).map (token :: ·) := by
  rw [scanFrom, advance]
  cases step? state input with
  | error fault => rfl
  | ok found =>
    cases found with
    | none => rfl
    | some step =>
      show (scanFrom step.state step.rest).bind (fun tokens => .ok (step.token :: tokens))
        = (scanFrom step.state step.rest).map (step.token :: ·)
      cases scanFrom step.state step.rest <;> rfl

theorem scanFrom_of_advance {state after : State} {input rest : List Char} {token : Token}
    (h : advance state input = .ok (some (token, after, rest))) :
    scanFrom state input = (scanFrom after rest).map (token :: ·) := by
  rw [scanFrom_eq, h]

theorem length_of_advance {state after : State} {input rest : List Char} {token : Token}
    (h : advance state input = .ok (some (token, after, rest))) : rest.length < input.length := by
  unfold advance at h
  cases hstep : step? state input with
  | error fault => simp [hstep, Except.map] at h
  | ok found =>
    cases found with
    | none => simp [hstep, Except.map] at h
    | some step =>
      simp only [hstep, Except.map, Except.ok.injEq, Option.map_some, Option.some.injEq,
        Prod.mk.injEq] at h
      obtain ⟨-, -, rfl⟩ := h
      exact step.shorter

/-- The tokens that the lexer reads from a state up to the end of its input, one by one. -/
inductive Scans : State → List Char → List Token → Prop
  | done {state : State} {input : List Char} (hend : advance state input = .ok none) :
    Scans state input []
  | step {state after : State} {input rest : List Char} {token : Token} {tokens : List Token}
    (hstep : advance state input = .ok (some (token, after, rest)))
    (hmore : Scans after rest tokens) : Scans state input (token :: tokens)

theorem scans_of_scanFrom {state : State} {input : List Char} {tokens : List Token}
    (h : scanFrom state input = .ok tokens) : Scans state input tokens := by
  rw [scanFrom_eq] at h
  cases hstep : advance state input with
  | error fault => simp [hstep] at h
  | ok found =>
    match found with
    | none =>
      simp only [hstep, Except.ok.injEq] at h
      obtain rfl := h
      exact .done hstep
    | some (token, after, rest) =>
      have hlt := length_of_advance hstep
      cases hmore : scanFrom after rest with
      | error fault => simp [hstep, hmore, Except.map] at h
      | ok more =>
        simp only [hstep, hmore, Except.map, Except.ok.injEq] at h
        obtain rfl := h
        exact .step hstep (scans_of_scanFrom hmore)
termination_by input.length

/-! ## Code -/

/-- Whether the lexer is in code, where blanks do not count. -/
def State.isCode : State → Bool
  | .template _ => false
  | _ => true

theorem advance_eq {state : State} (hstate : state.isCode) (input : List Char) :
    advance state input =
      match input.dropWhile isBlank with
      | [] =>
        if state.mayEnd then .ok none
        else .error (Cause.expression "unterminated template string or interpolation")
      | c :: rest =>
        (codeStep state c rest).map fun step => some (step.token, step.state, step.rest) := by
  have hnot : ∀ outer, state = State.template outer → False := by
    rintro outer rfl
    exact Bool.false_ne_true hstate
  unfold advance
  rw [step?.eq_2 state _ hnot]
  split
  · next heq =>
    simp only [heq]
    cases state.mayEnd <;> rfl
  · next c rest heq =>
    simp only [heq]
    cases codeStep state c rest <;> rfl

theorem advance_blank {state : State} (hstate : state.isCode) {c : Char} (hc : isBlank c)
    (input : List Char) : advance state (c :: input) = advance state input := by
  rw [advance_eq hstate, advance_eq hstate, List.dropWhile_cons_of_pos hc]

theorem advance_code {state : State} (hstate : state.isCode) {c : Char} (hc : ¬ isBlank c)
    (input : List Char) :
    advance state (c :: input)
      = (codeStep state c input).map fun step => some (step.token, step.state, step.rest) := by
  rw [advance_eq hstate, List.dropWhile_cons_of_neg hc]

theorem advance_openQuote {state : State} (hstate : state.isCode) (input : List Char) :
    advance state ('"' :: input) = .ok (some (.openQuote, .template state, input)) :=
  advance_code hstate (by decide) input

theorem advance_openBrace {state : State} (hstate : state.isCode) (input : List Char) :
    advance state ('{' :: input) = .ok (some (.openBrace, state.openBrace, input)) :=
  advance_code hstate (by decide) input

theorem advance_closeBrace {state after : State} {token : Token} (hstate : state.isCode)
    (hclose : state.closeBrace? = some (token, after)) (input : List Char) :
    advance state ('}' :: input) = .ok (some (token, after, input)) := by
  rw [advance_code hstate (by decide)]
  simp [codeStep, hclose, Except.map]

/-- What a sign starts with starts nothing else. -/
theorem plain_of_scanSign {c : Char} {input rest : List Char} {token : Token}
    (h : scanSign (c :: input) = some (token, rest)) :
    ¬ isBlank c ∧ c ≠ '"' ∧ c ≠ '{' ∧ c ≠ '}' ∧ ¬ c.isDigit ∧ ¬ isIdentStart c := by
  unfold scanSign at h
  split at h
  all_goals first
    | (rename_i heq; obtain ⟨rfl, -⟩ := List.cons.inj heq; decide)
    | (simp at h)

theorem advance_sign {state : State} (hstate : state.isCode) {c : Char}
    {input rest : List Char} {token : Token} (h : scanSign (c :: input) = some (token, rest)) :
    advance state (c :: input) = .ok (some (token, state, rest)) := by
  obtain ⟨hblank, hquote, hopen, hclose, hdigit, hstart⟩ := plain_of_scanSign h
  rw [advance_code hstate hblank, codeStep]
  rw [if_neg hquote, if_neg hopen, if_neg hclose, if_neg hdigit, if_neg hstart]
  split
  · next heq =>
    obtain ⟨rfl, rfl⟩ := Prod.mk.inj (Option.some.inj (h.symm.trans heq))
    rfl
  · next heq => exact absurd (h.symm.trans heq) (Option.some_ne_none _)

/-! ## Words and numbers -/

/-- What follows a word or a number in code and belongs to neither. -/
def Ends (rest : List Char) : Prop :=
  (∀ c ∈ rest.head?, ¬ isIdentContinue c) ∧ ∀ c more, rest = '.' :: c :: more → ¬ c.isDigit

theorem ends_nil : Ends [] := by simp [Ends]

theorem ends_cons {c : Char} (hcontinue : ¬ isIdentContinue c) (hdot : c ≠ '.')
    (rest : List Char) : Ends (c :: rest) := by
  constructor
  · intro d hd
    rwa [← Option.some.inj hd]
  · intro d more heq
    exact absurd (List.cons.inj heq).1 hdot

theorem ends_dot {c : Char} (hc : ¬ c.isDigit) (rest : List Char) : Ends ('.' :: c :: rest) := by
  constructor
  · intro d hd
    rw [← Option.some.inj hd]
    decide
  · intro d more heq
    rw [← (List.cons.inj (List.cons.inj heq).2).1]
    exact hc

/-- The characters of a class without blanks are no blanks. -/
theorem not_isBlank_of {p : Char → Bool} (hp : [' ', '\t', '\r', '\n'].any p = false) {c : Char}
    (hc : p c) : ¬ isBlank c := by
  intro hblank
  have hmem : c ∈ [' ', '\t', '\r', '\n'] := by simpa [isBlank, or_assoc] using hblank
  exact absurd hc (List.any_eq_false.mp hp c hmem)

theorem isIdentContinue_of_isDigit {c : Char} (h : c.isDigit) : isIdentContinue c := by
  simp [isIdentContinue, Char.isAlphanum, h]

theorem not_isDigit_of_isIdentStart {c : Char} (h : isIdentStart c) : ¬ c.isDigit := by
  rw [isIdentStart, Bool.or_eq_true] at h
  rcases h with h | h
  · have hletter : (decide (c.val ≥ 'A'.val ∧ c.val ≤ 'Z'.val)
        || (decide (c.val ≥ 'a'.val) && decide (c.val ≤ 'z'.val))) = true := h
    show ¬ (decide (c.val ≥ '0'.val) && decide (c.val ≤ '9'.val)) = true
    simp only [Bool.or_eq_true, Bool.and_eq_true, decide_eq_true_eq, UInt32.le_iff_toNat_le,
      ge_iff_le] at hletter ⊢
    have hA : 'A'.val.toNat = 65 := rfl
    have ha : 'a'.val.toNat = 97 := rfl
    have h9 : '9'.val.toNat = 57 := rfl
    omega
  · rw [of_decide_eq_true h]
    decide

theorem takeWhile_eq_nil_of_ends {p : Char → Bool} {rest : List Char}
    (hp : ∀ c, p c → isIdentContinue c) (h : Ends rest) : rest.takeWhile p = [] := by
  cases rest with
  | nil => rfl
  | cons c rest => exact List.takeWhile_cons_of_neg fun hc => h.1 c rfl (hp c hc)

theorem dropWhile_eq_self_of_ends {p : Char → Bool} {rest : List Char}
    (hp : ∀ c, p c → isIdentContinue c) (h : Ends rest) : rest.dropWhile p = rest := by
  cases rest with
  | nil => rfl
  | cons c rest => exact List.dropWhile_cons_of_neg fun hc => h.1 c rfl (hp c hc)

theorem exists_cons_of_isIdentifier {name : String} (h : isIdentifier name) :
    ∃ first more, name.toList = first :: more ∧ isIdentStart first
      ∧ ∀ c ∈ more, isIdentContinue c := by
  unfold isIdentifier at h
  split at h
  · exact absurd h Bool.false_ne_true
  · next first more heq =>
    obtain ⟨hfirst, hmore⟩ := Bool.and_eq_true_iff.mp h
    exact ⟨first, more, heq, hfirst, List.all_eq_true.mp hmore⟩

theorem advance_ident {state : State} (hstate : state.isCode) {name : String}
    (hname : isIdentifier name) {rest : List Char} (hrest : Ends rest) :
    advance state (name.toList ++ rest) = .ok (some (.ident name, state, rest)) := by
  obtain ⟨first, more, heq, hfirst, hall⟩ := exists_cons_of_isIdentifier hname
  have hne {c : Char} (hc : ¬ isIdentStart c) : first ≠ c := fun h => hc (h ▸ hfirst)
  have hblank := not_isBlank_of (by decide) hfirst
  rw [heq, List.cons_append, advance_code hstate hblank, codeStep,
    if_neg (hne (by decide)), if_neg (hne (by decide)), if_neg (hne (by decide)),
    if_neg (not_isDigit_of_isIdentStart hfirst), if_pos hfirst]
  simp only [Except.map, Except.ok.injEq, Option.some.injEq, Prod.mk.injEq, true_and,
    Token.ident.injEq]
  constructor
  · rw [List.takeWhile_append_of_pos hall, takeWhile_eq_nil_of_ends (fun _ => id) hrest,
      List.append_nil, ← heq, String.ofList_toList]
  · rw [List.dropWhile_append_of_pos hall, dropWhile_eq_self_of_ends (fun _ => id) hrest]

theorem scanFraction_pointed {fraction rest : List Char} (hfraction : AreDigits fraction)
    (hrest : Ends rest) : scanFraction (pointed fraction ++ rest) = (fraction, rest) := by
  have htake := takeWhile_eq_nil_of_ends (fun _ => isIdentContinue_of_isDigit) hrest
  have hdrop := dropWhile_eq_self_of_ends (fun _ => isIdentContinue_of_isDigit) hrest
  cases fraction with
  | nil =>
    show scanFraction rest = ([], rest)
    unfold scanFraction
    split
    · next more =>
      cases more with
      | nil => rfl
      | cons c more => rw [List.takeWhile_cons_of_neg (hrest.2 c more rfl)]
    · rfl
  | cons c more =>
    show scanFraction ('.' :: (c :: more ++ rest)) = (c :: more, rest)
    unfold scanFraction
    simp only [List.takeWhile_append_of_pos hfraction, List.dropWhile_append_of_pos hfraction,
      htake, hdrop, List.append_nil]

theorem scanExponent_of_ends {rest : List Char} (hrest : Ends rest) :
    scanExponent rest = (0, rest) := by
  cases rest with
  | nil => rfl
  | cons c rest =>
    have hc := hrest.1 c rfl
    have hmark : ¬ (c = 'e' || c = 'E') := by
      rw [Bool.or_eq_true, decide_eq_true_eq, decide_eq_true_eq]
      rintro (rfl | rfl) <;> exact hc (by decide)
    exact if_neg hmark

theorem scanNumber_of_spells {m : Magnitude} {cs : List Char} (h : Spells cs m)
    {rest : List Char} (hrest : Ends rest) :
    ∃ first more, cs = first :: more ∧ first.isDigit
      ∧ scanNumber first (more ++ rest) = (.signed false m, rest) := by
  obtain ⟨whole, fraction, hne, hwhole, hfraction, rfl, hvalue⟩ := h
  obtain ⟨first, more, rfl⟩ := List.exists_cons_of_ne_nil hne
  refine ⟨first, more ++ pointed fraction, rfl, hwhole first List.mem_cons_self, ?_⟩
  have hmore : ∀ c ∈ more, c.isDigit := fun c hc => hwhole c (List.mem_cons_of_mem _ hc)
  have hstop : (pointed fraction ++ rest).takeWhile Char.isDigit = []
      ∧ (pointed fraction ++ rest).dropWhile Char.isDigit = pointed fraction ++ rest := by
    cases fraction with
    | nil =>
      exact ⟨takeWhile_eq_nil_of_ends (fun _ => isIdentContinue_of_isDigit) hrest,
        dropWhile_eq_self_of_ends (fun _ => isIdentContinue_of_isDigit) hrest⟩
    | cons c more => exact ⟨rfl, rfl⟩
  unfold scanNumber
  rw [List.append_assoc]
  simp only [List.takeWhile_append_of_pos hmore, List.dropWhile_append_of_pos hmore, hstop,
    List.append_nil, scanFraction_pointed hfraction hrest, scanExponent_of_ends hrest]
  rw [← hvalue, Number.ofDecimal, Decimal.ofDigits, Int.zero_sub]
  rfl

/-- A number that can be written starts with a digit and is read back from its text. -/
theorem scanNumber_source {value : Number} (hvalue : value.isWritable) {rest : List Char}
    (hrest : Ends rest) :
    ∃ first more, value.source.toList = first :: more ∧ first.isDigit
      ∧ scanNumber first (more ++ rest) = (value, rest) := by
  cases value with
  | nan => exact absurd hvalue Bool.false_ne_true
  | signed negative m =>
    obtain ⟨hsign, hfinite⟩ := Bool.and_eq_true_iff.mp hvalue
    obtain rfl : negative = false := by simpa using hsign
    exact scanNumber_of_spells (Number.source_spelled hfinite) hrest

theorem advance_number {state : State} (hstate : state.isCode) {value : Number}
    (hvalue : value.isWritable) {rest : List Char} (hrest : Ends rest) :
    advance state (value.source.toList ++ rest) = .ok (some (.number value, state, rest)) := by
  obtain ⟨first, more, htext, hdigit, hscan⟩ := scanNumber_source hvalue hrest
  have hne {c : Char} (hc : ¬ c.isDigit) : first ≠ c := fun h => hc (h ▸ hdigit)
  have hblank := not_isBlank_of (by decide) hdigit
  rw [htext, List.cons_append, advance_code hstate hblank, codeStep,
    if_neg (hne (by decide)), if_neg (hne (by decide)), if_neg (hne (by decide)),
    if_pos hdigit]
  simp only [Except.map, hscan]

/-! ## Templates -/

theorem advance_closeQuote (outer : State) (input : List Char) :
    advance (.template outer) ('"' :: input) = .ok (some (.closeQuote, outer, input)) := rfl

theorem advance_openInterpolation (outer : State) (input : List Char) :
    advance (.template outer) ('$' :: '{' :: input)
      = .ok (some (.openInterpolation, .interpolation 0 (.template outer), input)) := rfl

/-- What follows literal text in a template: the closing quote, or an interpolation unless the text
ends in a dollar. -/
def EndsText (text rest : List Char) : Prop :=
  (∃ more, rest = '"' :: more) ∨ ((∃ more, rest = '$' :: '{' :: more) ∧ text.getLast? ≠ some '$')

theorem EndsText.of_tail {c : Char} {text rest : List Char} (h : EndsText (c :: text) rest) :
    EndsText text rest := by
  refine h.imp id (And.imp_right fun hlast => ?_)
  cases text with
  | nil => simp
  | cons d text => rwa [List.getLast?_cons_cons] at hlast

/-- Escaped text starts with a brace only if the text does. -/
theorem escapeLiteral_ne_brace {text rest : List Char} (htext : ∀ more, text ≠ '{' :: more)
    (hrest : EndsText text rest) (more : List Char) :
    Token.escapeLiteral text ++ rest ≠ '{' :: more := by
  intro heq
  fun_cases Token.escapeLiteral text with
  | case1 => rcases hrest with ⟨_, rfl⟩ | ⟨⟨_, rfl⟩, -⟩ <;> simp [Token.escapeLiteral] at heq
  | case8 c text =>
    rw [Token.escapeLiteral.eq_8 c text (by assumption) (by assumption) (by assumption)
      (by assumption) (by assumption) (by assumption)] at heq
    exact htext text (congrArg (· :: text) (List.cons.inj heq).1)
  | _ => simp [Token.escapeLiteral] at heq

/-- Escaped text never starts an interpolation. -/
theorem escapeLiteral_ne_opening {text rest : List Char} (htext : text ≠ [])
    (hrest : EndsText text rest) (more : List Char) :
    Token.escapeLiteral text ++ rest ≠ '$' :: '{' :: more := by
  intro heq
  fun_cases Token.escapeLiteral text with
  | case1 => exact htext rfl
  | case8 c text _ _ _ _ _ hopen =>
    rw [Token.escapeLiteral.eq_8 c text (by assumption) (by assumption) (by assumption)
      (by assumption) (by assumption) (by assumption)] at heq
    obtain ⟨rfl, htail⟩ := List.cons.inj heq
    exact escapeLiteral_ne_brace (fun more h => hopen more rfl h) hrest.of_tail more htail
  | _ => simp [Token.escapeLiteral] at heq

theorem scanLiteral_escapeLiteral {text rest : List Char} (hrest : EndsText text rest) :
    scanLiteral (Token.escapeLiteral text ++ rest) = .ok (text, rest) := by
  fun_induction Token.escapeLiteral text with
  | case1 => rcases hrest with ⟨_, rfl⟩ | ⟨⟨_, rfl⟩, -⟩ <;> rfl
  | case8 c text hslash hquote _ _ _ hopen ih =>
    have hbrace : ∀ more, c = '$' → Token.escapeLiteral text ++ rest = '{' :: more → False :=
      fun more hc => escapeLiteral_ne_brace (fun more h => hopen more hc h) hrest.of_tail more
    have hopening :
        ∀ more, c = '$' → Token.escapeLiteral text ++ rest = '$' :: '{' :: more → False := by
      rintro more rfl heq
      cases text with
      | nil =>
        rcases hrest with ⟨_, rfl⟩ | ⟨-, hlast⟩
        · simp [Token.escapeLiteral] at heq
        · exact hlast rfl
      | cons d text =>
        exact escapeLiteral_ne_opening (List.cons_ne_nil d text) hrest.of_tail more heq
    rw [List.cons_append, scanLiteral.eq_7 c _ hquote hbrace hopening (fun h _ => hslash h)
      (fun _ _ h _ => hslash h), ih hrest.of_tail]
    rfl
  | case7 text ih =>
    show withChar '$' (withChar '{' (scanLiteral (Token.escapeLiteral text ++ rest))) = _
    rw [ih hrest.of_tail.of_tail]
    rfl
  | case2 text ih | case3 text ih | case4 text ih | case5 text ih | case6 text ih =>
    show withChar _ (scanLiteral (Token.escapeLiteral text ++ rest)) = _
    rw [ih hrest.of_tail]
    rfl

/-- Literal text that is not empty is a token. -/
theorem templateStep_of_scanLiteral (outer : State) {input text rest : List Char}
    (h : scanLiteral input = .ok (text, rest)) (htext : text ≠ []) :
    (templateStep outer input).map (fun step => (step.token, step.state, step.rest))
      = .ok (.literal (String.ofList text), .template outer, rest) := by
  have hquote : ¬ input.take 1 = ['"'] := by
    intro htake
    match input, htake with
    | _ :: _, rfl => exact htext (Prod.mk.inj (Except.ok.inj h)).1.symm
  have hopen : ¬ input.take 2 = ['$', '{'] := by
    intro htake
    match input, htake with
    | _ :: _ :: _, rfl => exact htext (Prod.mk.inj (Except.ok.inj h)).1.symm
  rw [templateStep, dif_neg hquote, dif_neg hopen]
  split
  · next heq => exact absurd (h.symm.trans heq) (by simp)
  · next heq =>
    obtain ⟨rfl, rfl⟩ := Prod.mk.inj (Except.ok.inj (h.symm.trans heq))
    rfl

theorem advance_literal (outer : State) {text : String} (htext : text ≠ "") {rest : List Char}
    (hrest : EndsText text.toList rest) :
    advance (.template outer) ((Token.literalText text).toList ++ rest)
      = .ok (some (.literal text, .template outer, rest)) := by
  have hne : text.toList ≠ [] := fun h => htext (String.toList_eq_nil_iff.mp h)
  have hstep := templateStep_of_scanLiteral outer (scanLiteral_escapeLiteral hrest) hne
  rw [String.ofList_toList] at hstep
  rw [Token.literalText, String.toList_ofList]
  show ((templateStep outer _).map some).map _ = _
  cases hfound : templateStep outer (Token.escapeLiteral text.toList ++ rest) with
  | error fault => simp [hfound, Except.map] at hstep
  | ok step =>
    rw [hfound] at hstep
    exact congrArg (Except.map some) hstep

end ClusterBlueprint.Lexer
