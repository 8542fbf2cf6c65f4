import ClusterBlueprint.Proofs.Expression.Advance
import Mathlib.Data.List.Chain

/-!
What is true of every list of tokens that the lexer reads.

Words are identifiers, numbers have no sign of their own, and the pieces of a template stand in an
order that a printer can keep: `Scanned`, and `Lexed` if no number is too large.  The parser only
takes tokens away from the front, so this is true of whatever it has left.
-/

namespace ClusterBlueprint

namespace Token

/-- Whether a token can stand in source text. -/
def IsSpelled : Token → Prop
  | ident name => Lexer.isIdentifier name
  | number value => value.isWritable
  | literal text => text ≠ ""
  | _ => True

/-- Whether the lexer can read a token: numbers too large are read, but cannot be written. -/
def IsScanned : Token → Prop
  | number value => ∃ m, value = .signed false m
  | token => token.IsSpelled

theorem isSpelled_of_isScanned {token : Token} (h : token.IsScanned)
    (hfinite : ∀ value, token = .number value → value.isFinite) : token.IsSpelled := by
  cases token with
  | number value =>
    obtain ⟨m, rfl⟩ := h
    exact hfinite _ rfl
  | _ => exact h

/-- Whether a token can stand before another one. -/
def MayPrecede : Token → Token → Prop
  | literal _, literal _ => False
  | literal text, openInterpolation => text.toList.getLast? ≠ some '$'
  | _, _ => True

end Token

/-- Whether tokens can have been read from source text, be numbers in it too large or not. -/
def Scanned (tokens : List Token) : Prop :=
  (∀ token ∈ tokens, token.IsScanned) ∧ tokens.IsChain Token.MayPrecede

/-- Whether tokens can have been read from source text without numbers that are too large. -/
def Lexed (tokens : List Token) : Prop :=
  (∀ token ∈ tokens, token.IsSpelled) ∧ tokens.IsChain Token.MayPrecede

theorem Lexed.tail {token : Token} {tokens : List Token} (h : Lexed (token :: tokens)) :
    Lexed tokens :=
  ⟨fun t ht => h.1 t (List.mem_cons_of_mem _ ht), h.2.tail⟩

theorem Lexed.head {token : Token} {tokens : List Token} (h : Lexed (token :: tokens)) :
    token.IsSpelled := h.1 token List.mem_cons_self

namespace Lexer

variable {state after : State} {input rest : List Char} {token : Token}

theorem EndsText.cons {c : Char} {text : List Char} (h : EndsText text rest)
    (hc : c = '$' → text = [] → ∀ more, rest ≠ '$' :: '{' :: more) : EndsText (c :: text) rest := by
  rcases h with hquote | ⟨⟨more, rfl⟩, hlast⟩
  · exact .inl hquote
  · refine .inr ⟨⟨more, rfl⟩, ?_⟩
    cases text with
    | nil =>
      intro heq
      exact hc (Option.some.inj heq) rfl more rfl
    | cons d text => rwa [List.getLast?_cons_cons]

/-- Literal text stops where a template goes on with something else. -/
theorem endsText_of_scanLiteral {text : List Char} (h : scanLiteral input = .ok (text, rest)) :
    EndsText text rest ∧ (text = [] → rest = input) := by
  fun_induction scanLiteral input generalizing text with
  | case1 => simp at h
  | case2 more =>
    obtain ⟨rfl, rfl⟩ := Prod.mk.inj (Except.ok.inj h)
    exact ⟨.inl ⟨more, rfl⟩, fun _ => rfl⟩
  | case3 more =>
    obtain ⟨rfl, rfl⟩ := Prod.mk.inj (Except.ok.inj h)
    exact ⟨.inr ⟨⟨more, rfl⟩, by simp⟩, fun _ => rfl⟩
  | case4 tail ih =>
    obtain ⟨_, rfl, hbrace⟩ := withChar_eq_ok h
    obtain ⟨_, heq, hmore⟩ := withChar_eq_ok hbrace
    rw [heq]
    exact ⟨((ih hmore).1.cons (by simp)).cons (by simp), by simp⟩
  | case5 => simp at h
  | case6 letter tail c hletter ih =>
    obtain ⟨_, rfl, hmore⟩ := withChar_eq_ok h
    refine ⟨(ih hmore).1.cons ?_, by simp⟩
    rintro rfl
    unfold unescape? at hletter
    split at hletter <;> simp at hletter
  | case7 => simp at h
  | case8 c tail _ _ hopen _ _ ih =>
    obtain ⟨_, rfl, hmore⟩ := withChar_eq_ok h
    refine ⟨(ih hmore).1.cons ?_, by simp⟩
    rintro rfl rfl more rfl
    exact hopen more rfl ((ih hmore).2 rfl).symm

/-- A token that the lexer read, where literal text is followed by what ends it. -/
def Advanced (token : Token) (after : State) (rest : List Char) : Prop :=
  token.IsScanned ∧ ∀ text, token = .literal text →
    (∃ outer, after = .template outer) ∧ EndsText text.toList rest

theorem advanced_templateStep {outer : State} {step : Step input}
    (h : templateStep outer input = .ok step) : Advanced step.token step.state step.rest := by
  unfold templateStep at h
  split at h
  · obtain rfl := Except.ok.inj h
    exact ⟨trivial, fun _ heq => Token.noConfusion heq⟩
  split at h
  · obtain rfl := Except.ok.inj h
    exact ⟨trivial, fun _ heq => Token.noConfusion heq⟩
  next hquote hopen =>
  split at h
  · exact absurd h (by simp)
  · next text rest hscan =>
    obtain rfl := Except.ok.inj h
    obtain ⟨hends, hempty⟩ := endsText_of_scanLiteral hscan
    constructor
    · intro heq
      obtain rfl := String.ofList_eq_empty_iff.mp heq
      obtain rfl := hempty rfl
      rcases hends with ⟨_, rfl⟩ | ⟨⟨_, rfl⟩, -⟩
      · exact hquote rfl
      · exact hopen rfl
    · rintro _ ⟨⟩
      rw [String.toList_ofList]
      exact ⟨⟨outer, rfl⟩, hends⟩

theorem isScanned_of_scanSign (h : scanSign input = some (token, rest)) :
    token.IsScanned ∧ ∀ text, token ≠ .literal text := by
  unfold scanSign at h
  split at h <;> simp at h <;> obtain ⟨rfl, -⟩ := h <;> exact ⟨trivial, nofun⟩

theorem isScanned_of_closeBrace? (h : state.closeBrace? = some (token, after)) :
    token.IsScanned ∧ ∀ text, token ≠ .literal text := by
  unfold State.closeBrace? at h
  split at h <;> simp at h <;> obtain ⟨rfl, -⟩ := h <;> exact ⟨trivial, nofun⟩

theorem isScanned_codeStep {c : Char} {step : Step (c :: input)}
    (h : codeStep state c input = .ok step) :
    step.token.IsScanned ∧ ∀ text, step.token ≠ .literal text := by
  unfold codeStep at h
  split at h
  · obtain rfl := Except.ok.inj h
    exact ⟨trivial, fun _ heq => Token.noConfusion heq⟩
  split at h
  · obtain rfl := Except.ok.inj h
    exact ⟨trivial, fun _ heq => Token.noConfusion heq⟩
  split at h
  · split at h
    · next hclose =>
      obtain rfl := Except.ok.inj h
      exact isScanned_of_closeBrace? hclose
    · exact absurd h (by simp)
  split at h
  · obtain rfl := Except.ok.inj h
    exact ⟨⟨_, rfl⟩, fun _ heq => Token.noConfusion heq⟩
  split at h
  · next hstart =>
    obtain rfl := Except.ok.inj h
    refine ⟨?_, fun _ heq => Token.noConfusion heq⟩
    show isIdentifier (String.ofList _)
    rw [isIdentifier, String.toList_ofList]
    refine Bool.and_eq_true_iff.mpr ⟨hstart, List.all_takeWhile⟩
  split at h
  · next hsign =>
    obtain rfl := Except.ok.inj h
    exact isScanned_of_scanSign hsign
  · exact absurd h (by simp)

/-- A token is read by a step in code, behind blanks, or by a step in a template. -/
theorem exists_step_of_advance (h : advance state input = .ok (some (token, after, rest))) :
    (state.isCode ∧ ∃ c more, input.dropWhile isBlank = c :: more
        ∧ ∃ step : Step (c :: more), codeStep state c more = .ok step
          ∧ step.token = token ∧ step.state = after ∧ step.rest = rest)
      ∨ ∃ outer, ∃ step : Step input, state = .template outer ∧ templateStep outer input = .ok step
        ∧ step.token = token ∧ step.state = after ∧ step.rest = rest := by
  by_cases hstate : state.isCode
  · left
    rw [advance_eq hstate] at h
    split at h
    · split at h <;> simp at h
    · next c more hblanks =>
      cases hstep : codeStep state c more with
      | error fault => simp [hstep, Except.map] at h
      | ok step =>
        simp only [hstep, Except.map, Except.ok.injEq, Option.some.injEq, Prod.mk.injEq] at h
        exact ⟨hstate, c, more, hblanks, step, hstep, h⟩
  · right
    cases state with
    | template outer =>
      have heq : advance (.template outer) input = ((templateStep outer input).map some).map
        (Option.map fun step => (step.token, step.state, step.rest)) := rfl
      rw [heq] at h
      cases hstep : templateStep outer input with
      | error fault => simp [hstep, Except.map] at h
      | ok step =>
        simp only [hstep, Except.map, Except.ok.injEq, Option.map_some, Option.some.injEq,
          Prod.mk.injEq] at h
        exact ⟨outer, step, rfl, hstep, h⟩
    | _ => exact absurd rfl hstate

theorem advanced_of_advance (h : advance state input = .ok (some (token, after, rest))) :
    Advanced token after rest := by
  rcases exists_step_of_advance h with ⟨-, _, _, -, step, hstep, rfl, rfl, rfl⟩
    | ⟨_, step, -, hstep, rfl, rfl, rfl⟩
  · obtain ⟨hscanned, hliteral⟩ := isScanned_codeStep hstep
    exact ⟨hscanned, fun text heq => absurd heq (hliteral text)⟩
  · exact advanced_templateStep hstep

/-- A token that was read may precede the token that is read next. -/
theorem mayPrecede_of_advanced {next : Token} {later : State} {last : List Char}
    (h : Advanced token after rest) (hnext : advance after rest = .ok (some (next, later, last))) :
    token.MayPrecede next := by
  cases token with
  | literal text =>
    obtain ⟨⟨outer, rfl⟩, hends⟩ := h.2 text rfl
    rcases hends with ⟨more, rfl⟩ | ⟨⟨more, rfl⟩, hlast⟩
    · obtain ⟨rfl, -⟩ := Prod.mk.inj (Option.some.inj (Except.ok.inj hnext))
      trivial
    · obtain ⟨rfl, -⟩ := Prod.mk.inj (Option.some.inj (Except.ok.inj hnext))
      exact hlast
  | _ => trivial

/-- The tokens read from a state on, and that a token read before them may precede them. -/
theorem Scans.scanned {tokens : List Token} (h : Scans state input tokens) :
    Scanned tokens ∧ ∀ {before}, Advanced before state input →
      ∀ next ∈ tokens.head?, before.MayPrecede next := by
  induction h with
  | done _ => exact ⟨⟨by simp, .nil⟩, by simp⟩
  | step hstep _ ih =>
    have hadvanced := advanced_of_advance hstep
    obtain ⟨hscanned, hhead⟩ := ih
    refine ⟨⟨?_, hscanned.2.cons (hhead hadvanced)⟩, ?_⟩
    · exact List.forall_mem_cons.mpr ⟨hadvanced.1, hscanned.1⟩
    · rintro before hbefore _ ⟨⟩
      exact mayPrecede_of_advanced hbefore hstep

end Lexer

/-- What the lexer reads from source text. -/
theorem scanned_of_scan {source : String} {tokens : List Token}
    (h : Token.scan source = .ok tokens) : Scanned tokens := (Lexer.scans_of_scanFrom h).scanned.1

/-- What the lexer reads from source text, if none of the numbers in it is too large. -/
theorem lexed_of_scan {source : String} {tokens : List Token} (h : Token.scan source = .ok tokens)
    (hfinite : ∀ value, .number value ∈ tokens → value.isFinite) : Lexed tokens := by
  obtain ⟨hscanned, hchain⟩ := scanned_of_scan h
  refine ⟨fun token hmem => ?_, hchain⟩
  exact Token.isSpelled_of_isScanned (hscanned token hmem)
    fun value heq => hfinite value (heq ▸ hmem)

end ClusterBlueprint
