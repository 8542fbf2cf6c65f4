import ClusterBlueprint.Proofs.Literal.Written

/-!
What the texts of documents are read as.

The expressions in a text are read one by one, and text between them is literal.  So a text stands
for a tree that was written in source or for a template that was put together.  Either is known by
its canonical text, with one exception.  Canonical text cannot hold a dollar that stands directly
before an interpolation: it is the text of an escaped brace.
-/

namespace ClusterBlueprint

open Term

/-! ## Dollars before interpolations -/

/-- Whether a piece may stand before another.  A dollar at the end of literal text would escape the
interpolation after it. -/
def Part.MayPrecede : Part → Part → Prop
  | .literal text, .interpolation _ => text.toList.getLast? ≠ some '$'
  | _, _ => True

/-- In a template as a whole, no dollar stands directly before an interpolation. -/
def Expression.HasNoOpenDollar (e : Expression) : Prop :=
  match e.term with
  | .template parts => parts.IsChain Part.MayPrecede
  | _ => True

namespace Literal

/-! ## Expressions in a text -/

variable {body line rest following : List Char} {e : Expression}

theorem isInserted_of_parse {source : String} (h : Expression.parse source = .ok e) :
    e.term.IsInserted := by
  obtain ⟨hread, hreferences⟩ := Expression.parse_eq_ok.mp h
  obtain ⟨tokens, hscan, hparse⟩ := Checked.bind_eq_ok.mp hread
  exact .inl ⟨canonical_bounded_of_scan hscan hparse, hreferences⟩

/-- The words of a dotted path are those of the reference that it names. -/
theorem isDotted_of_parseText {cs : List Char} {reference : Reference} (hpath : isDottedPath cs)
    (h : Reference.parseText (String.ofList cs) = .ok reference) : reference.toTerm.IsDotted := by
  have hwords : ∀ word ∈ Text.split '.' (String.ofList cs), isDottedWord word.toList := by
    intro word hmem
    rw [Text.split, String.toList_ofList] at hmem
    obtain ⟨cs, hcs, rfl⟩ := List.mem_map.mp hmem
    rw [String.toList_ofList]
    exact List.all_eq_true.mp hpath cs hcs
  rcases Reference.cases_of_parseText h with
    ⟨first, name, hsplit, rfl⟩ | ⟨group, module, name, hsplit, -, rfl⟩
  · rw [hsplit] at hwords
    split
    · exact ⟨_, [name], rfl, .inl rfl, (List.forall_mem_cons.mp hwords).2⟩
    · exact ⟨_, [first, name], rfl, .inr rfl, hwords⟩
  · rw [hsplit] at hwords
    exact ⟨_, [module, name], rfl, .inr rfl, (List.forall_mem_cons.mp hwords).2⟩

theorem isInserted_of_readBody (h : readBody body = .ok e) : e.term.IsInserted := by
  unfold readBody at h
  dsimp only at h
  split at h
  · next hpath =>
    obtain ⟨reference, hreference, heq⟩ := Checked.bind_eq_ok.mp h
    obtain rfl := Except.ok.inj heq
    exact .inr (isDotted_of_parseText (Bool.and_eq_true_iff.mp hpath).1 hreference)
  · obtain ⟨_, -, h⟩ := Checked.bind_eq_ok.mp h
    obtain ⟨_, -, h⟩ := Checked.bind_eq_ok.mp h
    obtain ⟨_, -, h⟩ := Checked.bind_eq_ok.mp h
    exact isInserted_of_parse h

/-- The expression in a reference of a document has only references in it. -/
theorem isWellReferenced_of_readBody (h : readBody body = .ok e) : e.IsWellReferenced := by
  unfold readBody at h
  dsimp only at h
  split at h
  · obtain ⟨reference, -, heq⟩ := Checked.bind_eq_ok.mp h
    obtain rfl := Except.ok.inj heq
    exact Value.isWellReferenced_ofReference reference _ List.mem_cons_self
  · obtain ⟨_, -, h⟩ := Checked.bind_eq_ok.mp h
    obtain ⟨_, -, h⟩ := Checked.bind_eq_ok.mp h
    obtain ⟨_, -, h⟩ := Checked.bind_eq_ok.mp h
    exact (Expression.parse_eq_ok.mp h).2

theorem exists_body_of_shortestFrom {passed : List Char} {last : Fault}
    (h : shortestFrom passed last rest = .ok (e, following)) : ∃ body, readBody body = .ok e := by
  fun_induction shortestFrom passed last rest with
  | case1 => exact absurd h (by simp)
  | case2 _ _ _ _ hread =>
    obtain ⟨rfl, -⟩ := Prod.mk.inj (Except.ok.inj h)
    exact ⟨_, hread⟩
  | case3 => exact absurd h (by simp)
  | case4 _ _ _ _ _ _ ih => exact ih h
  | case5 _ _ _ _ _ ih => exact ih h

/-! ## Pieces -/

/-- A piece of a text: text that is not empty, or an expression that was read in it. -/
def IsPiece : Part → Prop
  | .literal text => text ≠ ""
  | .interpolation t => ∃ body, readBody body = .ok ⟨t⟩

theorem textPart_pieces (cs : List Char) : ∀ part ∈ textPart cs, IsPiece part := by
  unfold textPart
  split
  · exact List.forall_mem_nil _
  · next hne =>
    refine List.forall_mem_singleton.mpr fun heq => hne ?_
    rw [String.ofList_eq_empty_iff.mp heq]
    rfl

theorem lineParts_pieces {parts : List Part} (h : lineParts line rest = .ok parts) :
    ∀ part ∈ parts, IsPiece part := by
  fun_induction lineParts line rest generalizing parts with
  | case1 rest =>
    obtain rfl := Except.ok.inj h
    exact textPart_pieces rest
  | case2 =>
    rename_i ih
    obtain ⟨more, hmore, heq⟩ := Checked.bind_eq_ok.mp h
    obtain rfl := Except.ok.inj heq
    exact List.forall_mem_append.mpr ⟨List.forall_mem_append.mpr
      ⟨textPart_pieces _, textPart_pieces _⟩, ih hmore⟩
  | case3 => exact absurd h (by simp)
  | case4 =>
    rename_i hshort _ ih
    obtain ⟨more, hmore, heq⟩ := Checked.bind_eq_ok.mp h
    obtain rfl := Except.ok.inj heq
    exact List.forall_mem_append.mpr ⟨List.forall_mem_append.mpr ⟨textPart_pieces _,
      List.forall_mem_singleton.mpr (exists_body_of_shortestFrom hshort)⟩, ih hmore⟩

theorem linesParts_pieces {lines : List (List Char)} {parts : List Part}
    (h : linesParts lines = .ok parts) : ∀ part ∈ parts, IsPiece part := by
  fun_induction linesParts lines generalizing parts with
  | case1 =>
    obtain rfl := Except.ok.inj h
    exact List.forall_mem_nil _
  | case2 line => exact lineParts_pieces h
  | case3 line rest _ ih =>
    obtain ⟨first, hfirst, h⟩ := Checked.bind_eq_ok.mp h
    obtain ⟨more, hmore, heq⟩ := Checked.bind_eq_ok.mp h
    obtain rfl := Except.ok.inj heq
    exact List.forall_mem_append.mpr ⟨List.forall_mem_append.mpr
      ⟨lineParts_pieces hfirst, textPart_pieces _⟩, ih hmore⟩

/-- Two pieces that are not both text. -/
def Apart : Part → Part → Prop
  | .literal _, .literal _ => False
  | _, _ => True

theorem joinTexts_pieces {parts : List Part} (h : ∀ part ∈ parts, IsPiece part) :
    ∀ part ∈ joinTexts parts, IsPiece part := by
  fun_induction joinTexts parts with
  | case1 a rest b more hjoin ih =>
    obtain ⟨ha, hrest⟩ := List.forall_mem_cons.mp h
    rw [hjoin] at ih
    refine List.forall_mem_cons.mpr ⟨?_, (List.forall_mem_cons.mp (ih hrest)).2⟩
    exact fun heq => ha (String.append_eq_empty_iff.mp heq).1
  | case2 a rest _ ih =>
    obtain ⟨ha, hrest⟩ := List.forall_mem_cons.mp h
    exact List.forall_mem_cons.mpr ⟨ha, ih hrest⟩
  | case3 part rest _ ih =>
    obtain ⟨hpart, hrest⟩ := List.forall_mem_cons.mp h
    exact List.forall_mem_cons.mpr ⟨hpart, ih hrest⟩
  | case4 => exact List.forall_mem_nil _

/-- No two of the joined pieces in a row are text. -/
theorem joinTexts_apart (parts : List Part) : (joinTexts parts).IsChain Apart := by
  fun_induction joinTexts parts with
  | case1 a rest b more hjoin ih =>
    rw [hjoin] at ih
    refine ih.imp_head fun {next} hnext => ?_
    cases next with
    | literal text => exact hnext
    | interpolation t => trivial
  | case2 a rest hnot ih =>
    refine ih.cons fun next hnext => ?_
    cases next with
    | literal text =>
      obtain ⟨more, heq⟩ := List.head?_eq_some_iff.mp hnext
      exact absurd heq (hnot text more)
    | interpolation t => trivial
  | case3 part rest hnot ih =>
    refine ih.cons fun next _ => ?_
    cases part with
    | literal text => exact absurd rfl (hnot text)
    | interpolation t => trivial
  | case4 => exact .nil

theorem writtenParts_of_pieces {parts : List Part} (hpieces : ∀ part ∈ parts, IsPiece part)
    (hapart : parts.IsChain Apart) (hprecede : parts.IsChain Part.MayPrecede) :
    WrittenParts parts := by
  induction parts with
  | nil => trivial
  | cons part parts ih =>
    obtain ⟨hpart, hparts⟩ := List.forall_mem_cons.mp hpieces
    obtain ⟨hhead, happart⟩ := List.isChain_cons.mp hapart
    obtain ⟨hfirst, hprecede⟩ := List.isChain_cons.mp hprecede
    have hwritten := ih hparts happart hprecede
    cases part with
    | literal text =>
      refine ⟨hpart, ?_, hwritten⟩
      rcases parts with _ | ⟨⟨other⟩ | ⟨t⟩, parts⟩
      · trivial
      · exact hhead _ rfl
      · exact hfirst _ rfl
    | interpolation t =>
      obtain ⟨_, hbody⟩ := hpart
      exact ⟨isInserted_of_readBody hbody, hwritten⟩

/-! ## Whole texts -/

theorem isWritten_of_readMixed {s : String} (h : readMixed s = .ok (.expression e))
    (hdollar : e.HasNoOpenDollar) : e.term.IsWritten := by
  obtain ⟨parts, hparts, h⟩ := Checked.bind_eq_ok.mp h
  have hpieces := joinTexts_pieces (linesParts_pieces hparts)
  have hapart := joinTexts_apart parts
  split at h
  · cases Except.ok.inj h
  · cases Except.ok.inj h
  · next t heq =>
    rw [heq] at hpieces
    obtain rfl := Value.expression.inj (Except.ok.inj h)
    obtain ⟨_, hbody⟩ := hpieces _ List.mem_cons_self
    exact .inl (isInserted_of_readBody hbody)
  · next =>
    obtain rfl := Value.expression.inj (Except.ok.inj h)
    exact .inr ⟨_, rfl, writtenParts_of_pieces hpieces hapart hdollar⟩

theorem isWellReferenced_of_readMixed {s : String} (h : readMixed s = .ok (.expression e)) :
    e.IsWellReferenced := by
  obtain ⟨parts, hparts, h⟩ := Checked.bind_eq_ok.mp h
  have hpieces := joinTexts_pieces (linesParts_pieces hparts)
  split at h
  · cases Except.ok.inj h
  · cases Except.ok.inj h
  · next t heq =>
    rw [heq] at hpieces
    obtain rfl := Value.expression.inj (Except.ok.inj h)
    obtain ⟨_, hbody⟩ := hpieces _ List.mem_cons_self
    exact isWellReferenced_of_readBody hbody
  · next =>
    obtain rfl := Value.expression.inj (Except.ok.inj h)
    intro root steps hmem
    rcases List.mem_cons.mp hmem with heq | hmem
    · exact absurd heq nofun
    · obtain ⟨t, ht, hnode⟩ := mem_partsNodes.mp hmem
      obtain ⟨_, hbody⟩ := hpieces _ ht
      exact isWellReferenced_of_readBody hbody root steps hnode

/-- A text stands for a text or for an expression. -/
theorem read_cases {s : String} {value : Value} (h : read s = .ok value) :
    (∃ text, value = .string text) ∨ ∃ e, value = .expression e := by
  unfold read at h
  split at h
  · next inner _ =>
    cases hread : Expression.parse (String.ofList inner) with
    | error fault => simp [hread, Except.map] at h
    | ok found =>
      rw [hread] at h
      exact .inr ⟨found, (Except.ok.inj h).symm⟩
  · split at h
    · exact .inl ⟨_, (Except.ok.inj h).symm⟩
    · obtain ⟨parts, -, h⟩ := Checked.bind_eq_ok.mp h
      split at h
      · exact .inl ⟨_, (Except.ok.inj h).symm⟩
      · exact .inl ⟨_, (Except.ok.inj h).symm⟩
      · exact .inr ⟨_, (Except.ok.inj h).symm⟩
      · exact .inr ⟨_, (Except.ok.inj h).symm⟩

/-- A text that is read as an expression stands in double parentheses, or has expressions in it. -/
theorem read_eq_expression {s : String} (h : read s = .ok (.expression e)) :
    (∃ source, Expression.parse source = .ok e) ∨ readMixed s = .ok (.expression e) := by
  unfold read at h
  split at h
  · next inner _ =>
    cases hread : Expression.parse (String.ofList inner) with
    | error fault => simp [hread, Except.map] at h
    | ok found =>
      rw [hread] at h
      obtain rfl := Value.expression.inj (Except.ok.inj h)
      exact .inl ⟨_, hread⟩
  · split at h
    · exact absurd h (by simp)
    · exact .inr h

theorem isWritten_of_read {s : String} (h : read s = .ok (.expression e))
    (hdollar : e.HasNoOpenDollar) : e.term.IsWritten := by
  rcases read_eq_expression h with ⟨_, hparse⟩ | hmixed
  · exact .inl (isInserted_of_parse hparse)
  · exact isWritten_of_readMixed hmixed hdollar

/-- Every traversal in an expression that was read is a reference. -/
theorem isWellReferenced_of_read {s : String} (h : read s = .ok (.expression e)) :
    e.IsWellReferenced := by
  rcases read_eq_expression h with ⟨_, hparse⟩ | hmixed
  · exact (Expression.parse_eq_ok.mp hparse).2
  · exact isWellReferenced_of_readMixed hmixed

/-! ## Text before a variable -/

theorem takeWhile_slash {before : List Char} (h : before.getLast? ≠ some '\\') :
    before.reverse.takeWhile (· = '\\') = [] := by
  rcases List.eq_nil_or_concat before with rfl | ⟨start, c, rfl⟩
  · rfl
  · rw [List.concat_eq_append, List.getLast?_concat] at h
    rw [List.concat_eq_append, List.reverse_concat, List.takeWhile_cons_of_neg]
    simpa using h

/-- A line that one expression ends. -/
theorem lineParts_of_last {before after : List Char}
    (hsplit : splitAtOpening rest = some (before, after)) (hslash : before.getLast? ≠ some '\\')
    (hshort : shortestExpression after = .ok (e, [])) :
    lineParts line rest = .ok (textPart before ++ [.interpolation e.term]) := by
  have hend : lineParts line [] = .ok [] := by
    unfold lineParts
    rfl
  unfold lineParts
  split
  · next hnone => simp [hsplit] at hnone
  · next _ _ hsome =>
    obtain ⟨rfl, rfl⟩ := Prod.mk.inj (Option.some.inj (hsplit.symm.trans hsome))
    dsimp only
    rw [takeWhile_slash hslash]
    split
    · next hodd => simp at hodd
    · split
      · next herror => simp [hshort] at herror
      · next hok =>
        obtain ⟨rfl, rfl⟩ := Prod.mk.inj (Except.ok.inj (hshort.symm.trans hok))
        rw [hend]
        simp [Bind.bind, Except.bind, pure, Except.pure]

/-- One line of text before one expression. -/
theorem read_before_interpolation {s text : String} {after : List Char} {e : Expression}
    (hwhole : within? ['(', '('] [')', ')'] s.toList = none)
    (hescaped : within? ['\\', '(', '('] [')', ')'] s.toList = none)
    (hline : Text.splitChars '\n' s.toList = [s.toList])
    (hreturn : withoutReturn s.toList = s.toList)
    (hsplit : splitAtOpening s.toList = some (text.toList, after)) (hne : text ≠ "")
    (hslash : text.toList.getLast? ≠ some '\\') (hshort : shortestExpression after = .ok (e, [])) :
    read s = .ok (.expression ⟨.template [.literal text, .interpolation e.term]⟩) := by
  have htext : textPart text.toList = [.literal text] := by
    rw [textPart, if_neg (by simpa using hne), String.ofList_toList]
  unfold read
  rw [hwhole, hescaped]
  show readMixed s = _
  rw [readMixed, hline, linesParts, hreturn, lineParts_of_last hsplit hslash hshort, htext]
  rfl

def beforeVariable (text : String) : Expression :=
  ⟨.template [.literal text, .interpolation (.ofNames Reference.globalRoot ["x"])]⟩

theorem shortestExpression_variable :
    shortestExpression "vars.x)".toList = .ok (.ofReference (.global "x"), []) := rfl

theorem parse_beforeVariable {text : String} (hne : text ≠ "")
    (hdollar : text.toList.getLast? ≠ some '$') :
    Expression.parse (beforeVariable text).text = .ok (beforeVariable text) := by
  refine Expression.parse_text_eq_ok.mpr ⟨?_, fun root steps hmem => ?_⟩
  · exact ⟨hne, hdollar, ⟨by decide, by decide, trivial⟩, trivial⟩
  · obtain ⟨rfl, rfl⟩ : root = Reference.globalRoot ∧ steps = [.attribute "x"] := by
      simpa [beforeVariable, nodes, partsNodes, stepsNodes, ofNames] using hmem
    exact ⟨.global "x", rfl⟩

/-! ## Equal texts -/

/-- Texts that are read as equal expressions are read as expressions with the same references and
the same values, if no dollar stands directly before an interpolation. -/
theorem eq_of_read_of_beq {s₁ s₂ : String} {a b : Expression}
    (ha : read s₁ = .ok (.expression a)) (hb : read s₂ = .ok (.expression b)) (heq : a == b)
    (hdollarA : a.HasNoOpenDollar) (hdollarB : b.HasNoOpenDollar) :
    a.references = b.references ∧ ∀ bindings, a.eval bindings = b.eval bindings := by
  have hwrittenA := isWritten_of_read ha hdollarA
  have hwrittenB := isWritten_of_read hb hdollarB
  exact Expression.eq_of_named_eq (hwrittenA.named_eq_of_text hwrittenB (eq_of_beq heq))
    hwrittenA.isDistinct hwrittenB.isDistinct

theorem eq_of_read_of_beq_of_text :
    ∃ a b : Expression, read "a $(vars.x)" = .ok (.expression a)
      ∧ read "((\"a $\x7bvar.x\x7d\"))" = .ok (.expression b) ∧ (a == b) = true
      ∧ a.HasNoOpenDollar ∧ b.HasNoOpenDollar
      ∧ a.references = b.references ∧ ∀ bindings, a.eval bindings = b.eval bindings := by
  let b : Expression :=
    ⟨.template [.literal "a ", .interpolation (.traversal "var" [.attribute "x"])]⟩
  have hmixed : read "a $(vars.x)" = .ok (.expression (beforeVariable "a ")) :=
    read_before_interpolation rfl rfl rfl rfl rfl (by decide) (by decide)
      shortestExpression_variable
  have hparsed : read "((\"a $\x7bvar.x\x7d\"))" = .ok (.expression b) := by
    show (Expression.parse b.text).map Value.expression = _
    rw [show b = beforeVariable "a " from rfl, parse_beforeVariable (by decide) (by decide)]
    rfl
  have hsame : (beforeVariable "a " == b) = true := beq_self_eq_true b.text
  have hdollar : (beforeVariable "a ").HasNoOpenDollar :=
    .cons_cons (by show ¬ _; decide) (.singleton _)
  have hdollarB : b.HasNoOpenDollar := .cons_cons (by show ¬ _; decide) (.singleton _)
  exact ⟨_, b, hmixed, hparsed, hsame, hdollar, hdollarB,
    eq_of_read_of_beq hmixed hparsed hsame hdollar hdollarB⟩

/-- A dollar before a variable, and the same characters as literal text, are equal as texts. -/
theorem ne_of_read_of_beq_of_dollar :
    ∃ a b : Expression, read "$$(vars.x)" = .ok (.expression a)
      ∧ read "((\"$$\x7bvar.x\x7d\"))" = .ok (.expression b) ∧ (a == b) = true
      ∧ a.references ≠ b.references ∧ ∃ bindings, a.eval bindings ≠ b.eval bindings := by
  let b : Expression := ⟨.ofString "$\x7bvar.x\x7d"⟩
  have hparse : Expression.parse b.text = .ok b := by
    refine Expression.parse_text_eq_ok.mpr ⟨⟨by decide, trivial, trivial⟩, ?_⟩
    intro root steps hmem
    simp [b, ofString, nodes, partsNodes] at hmem
  have hparsed : read "((\"$$\x7bvar.x\x7d\"))" = .ok (.expression b) := by
    show (Expression.parse b.text).map Value.expression = _
    rw [hparse]
    rfl
  let bindings : SortedMap Value := .ofList [("x", .string "A")]
  have hleft : ((beforeVariable "$").eval bindings).result = .ok (.string "$A") := rfl
  have hright : (b.eval bindings).result = .ok (.string "$\x7bvar.x\x7d") := rfl
  have hmixed : read "$$(vars.x)" = .ok (.expression (beforeVariable "$")) :=
    read_before_interpolation rfl rfl rfl rfl rfl (by decide) (by decide)
      shortestExpression_variable
  refine ⟨beforeVariable "$", b, hmixed, hparsed, rfl, List.cons_ne_nil _ _, bindings, fun h => ?_⟩
  have hvalue := congrArg Evaluation.result h
  rw [hleft, hright] at hvalue
  exact absurd (Value.string.inj (Except.ok.inj hvalue)) (by decide)

end Literal

end ClusterBlueprint
