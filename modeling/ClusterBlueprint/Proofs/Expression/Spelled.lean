import ClusterBlueprint.Proofs.Expression.Lexed
import ClusterBlueprint.Proofs.Expression.Shown

/-!
Calls are spelled out in the text.

The lexer makes the name of a call and the parenthesis after it of neighbouring characters, in code
and in whatever template that code stands.  So tokens show a call only if the characters of the text
spell it, with blanks between the name and the parenthesis at most.
-/

namespace ClusterBlueprint.Lexer

open ClusterBlueprint.Parser (ShowsCall showsCall_cons)

variable {state after : State} {input rest : List Char} {token : Token} {name : String}

/-! ## What is left of the input -/

theorem suffix_scanFraction (input : List Char) : (scanFraction input).2 <:+ input := by
  unfold scanFraction
  split
  · next rest =>
    split
    · exact List.suffix_rfl
    · exact (List.dropWhile_suffix _).trans (List.suffix_cons _ rest)
  · exact List.suffix_rfl

theorem suffix_scanExponent (input : List Char) : (scanExponent input).2 <:+ input := by
  unfold scanExponent
  split
  · exact List.suffix_rfl
  · next mark rest =>
    split
    · have hdigits {more : List Char} (h : more <:+ rest) :
          more.dropWhile Char.isDigit <:+ mark :: rest :=
        ((List.dropWhile_suffix _).trans h).trans (List.suffix_cons mark rest)
      dsimp only
      split
      · exact List.suffix_rfl
      · split
        · exact hdigits (List.suffix_cons _ _)
        · exact hdigits (List.suffix_cons _ _)
        · exact hdigits List.suffix_rfl
    · exact List.suffix_rfl

theorem suffix_scanNumber (first : Char) (input : List Char) :
    (scanNumber first input).2 <:+ input :=
  (suffix_scanExponent _).trans ((suffix_scanFraction _).trans (List.dropWhile_suffix _))

theorem suffix_scanLiteral {text : List Char} (h : scanLiteral input = .ok (text, rest)) :
    rest <:+ input := by
  fun_induction scanLiteral input generalizing text with
  | case1 => simp at h
  | case2 => exact (Prod.mk.inj (Except.ok.inj h)).2 ▸ List.suffix_rfl
  | case3 => exact (Prod.mk.inj (Except.ok.inj h)).2 ▸ List.suffix_rfl
  | case4 tail ih =>
    obtain ⟨_, -, h⟩ := withChar_eq_ok h
    obtain ⟨_, -, h⟩ := withChar_eq_ok h
    exact (ih h).trans (List.suffix_append ['$', '$', '{'] tail)
  | case5 => simp at h
  | case6 letter tail _ _ ih =>
    obtain ⟨_, -, h⟩ := withChar_eq_ok h
    exact (ih h).trans (List.suffix_append ['\\', letter] tail)
  | case7 => simp at h
  | case8 c tail _ _ _ _ _ ih =>
    obtain ⟨_, -, h⟩ := withChar_eq_ok h
    exact (ih h).trans (List.suffix_cons c tail)

def spelling? : Token → Option (List Char)
  | .ident name => some name.toList
  | .openParen => some ['(']
  | _ => none

/-- Whether a token was made of the front of some input, if it is spelled, and what is left. -/
structure Takes (input : List Char) (token : Token) (rest : List Char) : Prop where
  suffix : rest <:+ input
  front : ∀ spelling, spelling? token = some spelling → input = spelling ++ rest

theorem Takes.of_suffix (hspelling : spelling? token = none) (h : rest <:+ input) :
    Takes input token rest :=
  ⟨h, fun _ hfront => absurd (hspelling.symm.trans hfront) nofun⟩

theorem takes_of_scanSign (h : scanSign input = some (token, rest)) : Takes input token rest := by
  unfold scanSign at h
  split at h <;> simp at h <;> obtain ⟨rfl, rfl⟩ := h
  all_goals
    refine ⟨?_, by rintro _ ⟨⟩ <;> rfl⟩
    first
      | exact List.suffix_cons _ _
      | exact (List.suffix_cons _ _).trans (List.suffix_cons _ _)

theorem takes_of_closeBrace? (h : state.closeBrace? = some (token, after)) (c : Char) :
    Takes (c :: input) token input := by
  unfold State.closeBrace? at h
  split at h <;> simp at h <;> obtain ⟨rfl, -⟩ := h <;>
    exact .of_suffix rfl (List.suffix_cons c input)

theorem takes_of_codeStep {c : Char} {step : Step (c :: input)}
    (h : codeStep state c input = .ok step) : Takes (c :: input) step.token step.rest := by
  unfold codeStep at h
  split at h
  · obtain rfl := Except.ok.inj h
    exact .of_suffix rfl (List.suffix_cons c input)
  split at h
  · obtain rfl := Except.ok.inj h
    exact .of_suffix rfl (List.suffix_cons c input)
  split at h
  · split at h
    · next hclose =>
      obtain rfl := Except.ok.inj h
      exact takes_of_closeBrace? hclose c
    · exact absurd h (by simp)
  split at h
  · obtain rfl := Except.ok.inj h
    exact .of_suffix rfl ((suffix_scanNumber c input).trans (List.suffix_cons c input))
  split at h
  · obtain rfl := Except.ok.inj h
    refine ⟨(List.dropWhile_suffix _).trans (List.suffix_cons c input), ?_⟩
    rintro _ ⟨⟩
    rw [String.toList_ofList, List.cons_append, List.takeWhile_append_dropWhile]
  split at h
  · next hsign =>
    obtain rfl := Except.ok.inj h
    exact takes_of_scanSign hsign
  · exact absurd h (by simp)

theorem takes_of_templateStep {outer : State} {step : Step input}
    (h : templateStep outer input = .ok step) : Takes input step.token step.rest := by
  unfold templateStep at h
  split at h
  · obtain rfl := Except.ok.inj h
    exact .of_suffix rfl (List.drop_suffix 1 input)
  split at h
  · obtain rfl := Except.ok.inj h
    exact .of_suffix rfl (List.drop_suffix 2 input)
  split at h
  · exact absurd h (by simp)
  · next hscan =>
    obtain rfl := Except.ok.inj h
    exact .of_suffix rfl (suffix_scanLiteral hscan)

/-! ## Words and parentheses in the input -/

/-- A token is made of what stands behind blanks. -/
theorem exists_takes_of_advance (h : advance state input = .ok (some (token, after, rest))) :
    ∃ blanks more, (∀ c ∈ blanks, isBlank c) ∧ input = blanks ++ more ∧ Takes more token rest := by
  rcases exists_step_of_advance h with ⟨-, c, more, hblanks, step, hstep, rfl, rfl, rfl⟩
    | ⟨_, step, -, hstep, rfl, rfl, rfl⟩
  · refine ⟨input.takeWhile isBlank, c :: more, List.all_eq_true.mp List.all_takeWhile, ?_,
      takes_of_codeStep hstep⟩
    rw [← hblanks, List.takeWhile_append_dropWhile]
  · exact ⟨[], input, List.forall_mem_nil _, rfl, takes_of_templateStep hstep⟩

/-- Whether a name stands before an opening parenthesis somewhere in some text, with nothing but
blanks between them. -/
def SpellsCall (name : String) (text : List Char) : Prop :=
  ∃ blanks, (∀ c ∈ blanks, isBlank c) ∧ name.toList ++ (blanks ++ ['(']) <:+: text

theorem SpellsCall.of_suffix {text more : List Char} (h : SpellsCall name more)
    (hsuffix : more <:+ text) : SpellsCall name text := by
  obtain ⟨blanks, hblanks, hinfix⟩ := h
  exact ⟨blanks, hblanks, hinfix.trans hsuffix.isInfix⟩

/-- Text spells the calls that its tokens show. -/
theorem Scans.spellsCall {tokens : List Token} (h : Scans state input tokens)
    (hshows : ShowsCall name tokens) : SpellsCall name input := by
  induction h with
  | done _ => exact absurd hshows (by simp [ShowsCall])
  | step hstep hmore ih =>
    rcases showsCall_cons.mp hshows with ⟨rfl, hopen⟩ | hshows
    · cases hmore with
      | done _ => exact absurd hopen nofun
      | @step _ _ _ rest _ _ hnext _ =>
        obtain rfl := Option.some.inj hopen
        obtain ⟨before, _, -, rfl, hword⟩ := exists_takes_of_advance hstep
        obtain ⟨blanks, _, hblanks, rfl, hparen⟩ := exists_takes_of_advance hnext
        refine ⟨blanks, hblanks, before, rest, ?_⟩
        rw [hword.front _ rfl, hparen.front _ rfl]
        simp only [List.append_assoc]
    · obtain ⟨blanks, more, -, rfl, htakes⟩ := exists_takes_of_advance hstep
      exact (ih hshows).of_suffix (htakes.suffix.trans (List.suffix_append blanks more))

/-! ## Calls in parts of a text -/

theorem SpellsCall.length_lt {text : List Char} (h : SpellsCall name text) :
    name.length < text.length := by
  obtain ⟨blanks, -, hinfix⟩ := h
  have hle := hinfix.length_le
  simp only [List.length_append, List.length_singleton, String.length_toList] at hle
  omega

/-- A call that does not start with a character is spelled behind it. -/
theorem SpellsCall.of_cons {c : Char} {text : List Char} (h : SpellsCall name (c :: text))
    {first : Char} {more : List Char} (hname : name.toList = first :: more) (hne : first ≠ c) :
    SpellsCall name text := by
  obtain ⟨blanks, hblanks, hinfix⟩ := h
  refine ⟨blanks, hblanks, (List.infix_cons_iff.mp hinfix).resolve_left fun hprefix => ?_⟩
  rw [hname, List.cons_append] at hprefix
  exact hne (List.cons_prefix_cons.mp hprefix).1

/-- What a mark does not stand in is on one side of the mark. -/
theorem infix_of_append_cons {α : Type} {mark : α} {part xs ys : List α}
    (h : part <:+: xs ++ mark :: ys) (hmark : mark ∉ part) : part <:+: xs ∨ part <:+: ys := by
  have hfirst {back : List α} (hmem : ∀ c ∈ back, c ∈ part) (hback : back <+: mark :: ys) :
      back = [] := by
    rcases List.prefix_cons_iff.mp hback with rfl | ⟨more, rfl, -⟩
    · rfl
    · exact absurd (hmem mark List.mem_cons_self) hmark
  rcases List.infix_append_iff.mp h with hxs | hys | ⟨front, back, rfl, hfront, hback⟩
  · exact .inl hxs
  · rcases List.infix_cons_iff.mp hys with hstart | hys
    · rw [hfirst (fun _ => id) hstart]
      exact .inl (List.nil_infix)
    · exact .inr hys
  · obtain rfl := hfirst (fun _ hmem => List.mem_append_right front hmem) hback
    rw [List.append_nil]
    exact .inl hfront.isInfix

/-- A mark that stands in no call separates the calls before it from those after it. -/
theorem SpellsCall.of_append_cons {xs ys : List Char} {mark : Char}
    (h : SpellsCall name (xs ++ mark :: ys)) (hname : mark ∉ name.toList) (hblank : ¬ isBlank mark)
    (hopen : mark ≠ '(') : SpellsCall name xs ∨ SpellsCall name ys := by
  obtain ⟨blanks, hblanks, hinfix⟩ := h
  have hmark : mark ∉ name.toList ++ (blanks ++ ['(']) := by
    simp only [List.mem_append, List.mem_singleton, not_or]
    exact ⟨hname, fun hmem => hblank (hblanks mark hmem), hopen⟩
  exact (infix_of_append_cons hinfix hmark).imp (⟨blanks, hblanks, ·⟩) (⟨blanks, hblanks, ·⟩)

end ClusterBlueprint.Lexer
