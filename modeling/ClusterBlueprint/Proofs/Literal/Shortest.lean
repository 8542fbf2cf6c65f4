import ClusterBlueprint.Proofs.Expression.Parsing
import ClusterBlueprint.Proofs.Literal.Dotted

/-!
The search for the parenthesis that closes an expression.

The search tries the closing parentheses from the left, so what it finds is the shortest text
before one that is read.  It gives up at a dotted path that is not read.  Nothing is lost by that:
the words and dots of the path are the tokens of a whole tree, and after a whole tree the parser
leaves a closing parenthesis.  So no text is read that goes on with one after a dotted path.
-/

namespace ClusterBlueprint

open Lexer Literal

/-! ## White space -/

namespace Text

theorem exists_trimWhiteSpace (cs : List Char) :
    ∃ leading trailing, cs = leading ++ (trimWhiteSpace cs ++ trailing)
      ∧ leading.all isWhiteSpace ∧ trailing.all isWhiteSpace := by
  let inner := cs.dropWhile isWhiteSpace
  refine ⟨cs.takeWhile isWhiteSpace, (inner.reverse.takeWhile isWhiteSpace).reverse, ?_,
    List.all_takeWhile, by rw [List.all_reverse]; exact List.all_takeWhile⟩
  have hinner : trimWhiteSpace cs ++ (inner.reverse.takeWhile isWhiteSpace).reverse = inner := by
    rw [trimWhiteSpace, ← List.reverse_append, List.takeWhile_append_dropWhile,
      List.reverse_reverse]
  rw [hinner, List.takeWhile_append_dropWhile]

theorem mem_trimWhiteSpace {c : Char} {cs : List Char} (hc : ¬ isWhiteSpace c) (hmem : c ∈ cs) :
    c ∈ trimWhiteSpace cs := by
  obtain ⟨leading, trailing, heq, hleading, htrailing⟩ := exists_trimWhiteSpace cs
  rw [heq, List.mem_append, List.mem_append] at hmem
  rcases hmem with hmem | hmem | hmem
  · exact absurd (List.all_eq_true.mp hleading c hmem) hc
  · exact hmem
  · exact absurd (List.all_eq_true.mp htrailing c hmem) hc

end Text

namespace Lexer

variable {state : State} {tokens : List Token}

theorem isBlank_of_isWhiteSpace {c : Char} (hc : Text.isWhiteSpace c) (hlt : c.toNat < 128) :
    isBlank c ∨ c = '\x0b' ∨ c = '\x0c' := by
  have hn : c.toNat ∈ [9, 10, 11, 12, 13, 32] := by
    simp only [Text.isWhiteSpace, Bool.or_eq_true, Bool.and_eq_true, decide_eq_true_eq] at hc
    simp only [List.mem_cons, List.not_mem_nil, or_false]
    omega
  rw [← Char.ofNat_toNat c]
  revert hn
  generalize c.toNat = n
  revert n
  decide

/-- At white space that is no blank, no token of code starts. -/
theorem advance_of_isWhiteSpace (hstate : state.isCode) {c : Char} (hc : Text.isWhiteSpace c)
    (hblank : ¬ isBlank c) (input : List Char) :
    ∃ fault, advance state (c :: input) = .error fault := by
  by_cases hlt : c.toNat < 128
  · rcases isBlank_of_isWhiteSpace hc hlt with h | rfl | rfl
    · exact absurd h hblank
    · rw [advance_code hstate hblank]
      exact ⟨_, rfl⟩
    · rw [advance_code hstate hblank]
      exact ⟨_, rfl⟩
  · exact advance_of_toNat_ge hstate (Nat.le_of_not_lt hlt) input

/-- What the lexer reads after white space, it reads without the white space. -/
theorem scanFrom_of_whiteSpace (hstate : state.isCode) {blanks : List Char}
    (hblanks : blanks.all Text.isWhiteSpace) {input : List Char}
    (h : scanFrom state (blanks ++ input) = .ok tokens) : scanFrom state input = .ok tokens := by
  induction blanks with
  | nil => exact h
  | cons c blanks ih =>
    obtain ⟨hc, hblanks⟩ := Bool.and_eq_true_iff.mp hblanks
    by_cases hblank : isBlank c
    · rw [List.cons_append, scanFrom_eq, advance_blank hstate hblank, ← scanFrom_eq] at h
      exact ih hblanks h
    · obtain ⟨fault, hfault⟩ := advance_of_isWhiteSpace hstate hc hblank (blanks ++ input)
      exact absurd h (scanFrom_ne_ok_of_advance hfault tokens)

/-- White space goes on with no word and no number. -/
theorem not_isIdentContinue_of_isWhiteSpace {c : Char} (hc : Text.isWhiteSpace c) :
    ¬ isIdentContinue c ∧ c ≠ '.' := by
  by_cases hlt : c.toNat < 128
  · rcases isBlank_of_isWhiteSpace hc hlt with h | rfl | rfl
    · have hblank : c = ' ' ∨ c = '\t' ∨ c = '\r' ∨ c = '\n' := by
        simpa [isBlank, or_assoc] using h
      rcases hblank with rfl | rfl | rfl | rfl <;> decide
    · decide
    · decide
  · refine ⟨fun h => hlt (toNat_lt_of_isIdentContinue h), ?_⟩
    rintro rfl
    exact hlt (by decide)

theorem ends_whiteSpace {blanks : List Char} (hblanks : blanks.all Text.isWhiteSpace)
    {rest : List Char} (hrest : Ends rest) : Ends (blanks ++ rest) := by
  cases blanks with
  | nil => exact hrest
  | cons c blanks =>
    obtain ⟨hcontinue, hdot⟩ :=
      not_isIdentContinue_of_isWhiteSpace (Bool.and_eq_true_iff.mp hblanks).1
    exact ends_cons hcontinue hdot _

end Lexer

/-! ## Dotted paths before a closing parenthesis -/

namespace Literal

variable {cs body : List Char}

theorem intercalate_words (root : String) (names : List String) :
    ['.'].intercalate (root.toList :: names.map String.toList)
      = (Term.ofNames root names).text.toList := by
  rw [Term.toList_text_ofNames]
  induction names generalizing root with
  | nil => simp [Term.stepsText]
  | cons name names ih =>
    rw [List.map_cons, List.intercalate_cons_cons, ih]
    simp [Term.stepsText]

/-- A dotted path is a first word and further ones. -/
theorem exists_words_of_isDottedPath (h : isDottedPath cs) :
    ∃ root names, cs = (Term.ofNames root names).text.toList ∧ isDottedWord root.toList
      ∧ (∀ name ∈ names, isDottedWord name.toList)
      ∧ Text.split '.' (String.ofList cs) = root :: names := by
  have hwords := List.all_eq_true.mp h
  obtain ⟨first, more, hsplit⟩ := List.exists_cons_of_ne_nil (Text.splitChars_ne_nil '.' cs)
  have htext := Text.intercalate_splitChars '.' cs
  rw [hsplit] at htext hwords
  obtain ⟨hfirst, hmore⟩ := List.forall_mem_cons.mp hwords
  have hlists : first :: more
      = (String.ofList first).toList :: (more.map String.ofList).map String.toList := by simp
  refine ⟨String.ofList first, more.map String.ofList, ?_, by rwa [String.toList_ofList], ?_, ?_⟩
  · rw [← intercalate_words, ← hlists, htext]
  · intro name hmem
    obtain ⟨word, hword, rfl⟩ := List.mem_map.mp hmem
    rw [String.toList_ofList]
    exact hmore word hword
  · rw [Text.split, String.toList_ofList, hsplit, List.map_cons]

theorem closeParen_notMem_of_isDottedPath (h : isDottedPath cs) : ')' ∉ cs := by
  obtain ⟨root, names, rfl, hroot, hnames, -⟩ := exists_words_of_isDottedPath h
  exact Term.notMem_text_ofNames (by decide)
    (fun _ => Term.notMem_of_isDottedWord (by decide) (by decide) (by decide)) hroot hnames

structure HasNoRoots (t : Term) : Prop where
  traversals_eq : t.traversals = []
  reroot_eq : ∀ place, t.reroot place = t

/-- The tree is what the parser reads of words with dots between them.  A reserved word is a value
of its own, and what follows are steps into it. -/
structure Spells (t : Term) (root : String) (names : List String) : Prop where
  canonical : t.Canonical
  text_eq : t.text = (Term.ofNames root names).text
  eq_ofNames : ¬ Parser.isReserved root → t = Term.ofNames root names
  hasNoRoots : Parser.isReserved root → HasNoRoots t

/-- A reserved word is the text of a value that stands by itself. -/
theorem exists_source_of_isReserved {word : String} (h : Parser.isReserved word) :
    ∃ source : Term, source.isSource ∧ source.Canonical ∧ source.text = word
      ∧ HasNoRoots source := by
  simp only [Parser.isReserved, Bool.or_eq_true, decide_eq_true_eq] at h
  rcases h with (rfl | rfl) | rfl
  · exact ⟨.bool true, rfl, trivial, rfl, rfl, fun _ => rfl⟩
  · exact ⟨.bool false, rfl, trivial, rfl, rfl, fun _ => rfl⟩
  · exact ⟨.null, rfl, trivial, rfl, rfl, fun _ => rfl⟩

theorem stepsNodes_attributes (names : List String) :
    Term.stepsNodes (names.map Step.attribute) = [] := by
  induction names with
  | nil => rfl
  | cons name names ih => exact ih

theorem rerootSteps_attributes (place : Term.Rerooting) (names : List String) :
    Term.rerootSteps place (names.map Step.attribute) = names.map Step.attribute := by
  induction names with
  | nil => rfl
  | cons name names ih => exact congrArg (Step.attribute name :: ·) ih

theorem HasNoRoots.relative {source : Term} (h : HasNoRoots source) (names : List String) :
    HasNoRoots (.relative source (names.map Step.attribute)) where
  traversals_eq := by
    rw [Term.traversals, Term.nodes, stepsNodes_attributes, List.append_nil,
      List.filterMap_cons_none rfl]
    exact h.traversals_eq
  reroot_eq place := by rw [Term.reroot, h.reroot_eq, rerootSteps_attributes]

/-- Identifiers with dots between them are a whole tree, also where the first one is reserved. -/
theorem exists_spells {root : String} {names : List String} (hroot : isIdentifier root)
    (hnames : ∀ name ∈ names, isIdentifier name) : ∃ t, Spells t root names := by
  have hsteps := Term.canonicalSteps_attributes hnames
  by_cases hreserved : Parser.isReserved root
  · obtain ⟨source, hsource, hcanonical, rfl, hroots⟩ := exists_source_of_isReserved hreserved
    cases names with
    | nil =>
      exact ⟨source, hcanonical, by simp [Term.ofNames, Term.text, Term.stepsText],
        fun h => absurd hreserved h, fun _ => hroots⟩
    | cons name names =>
      exact ⟨.relative source ((name :: names).map Step.attribute),
        ⟨by simp, hsource, hcanonical, hsteps⟩, by simp [Term.ofNames, Term.text],
        fun h => absurd hreserved h, fun _ => hroots.relative _⟩
  · have hname : isName root := by
      rw [isName, hroot, Bool.eq_false_iff.mpr hreserved]
      rfl
    exact ⟨Term.ofNames root names, ⟨hname, hsteps⟩, rfl, fun _ => rfl, fun h => absurd h hreserved⟩

/-- What is read of words with dots between them are the tokens of a whole tree. -/
theorem exists_tokens_ofNames {state : State} (hstate : state.isCode) {root : String}
    {names : List String} (hroot : isDottedWord root.toList)
    (hnames : ∀ name ∈ names, isDottedWord name.toList) {rest : List Char} (hends : Ends rest)
    {tokens : List Token}
    (hscan : scanFrom state ((Term.ofNames root names).text.toList ++ rest) = .ok tokens) :
    ∃ t more, Spells t root names ∧ tokens = t.tokens ++ more ∧ scanFrom state rest = .ok more := by
  by_cases hwords : isIdentifier root ∧ ∀ name ∈ names, isIdentifier name
  · obtain ⟨t, ht⟩ := exists_spells hwords.1 hwords.2
    rw [← ht.text_eq] at hscan
    obtain ⟨more, heq, hmore⟩ :=
      (Term.reads_text hstate t ht.canonical hends).exists_append hscan
    exact ⟨t, more, ht, heq, hmore⟩
  · -- A word that the lexer does not know stops it.
    exact absurd hscan
      (Term.stops_ofNames hroot hnames (fun h hall => hwords ⟨h, hall⟩) state hstate _ tokens)

/-- The parser leaves a closing parenthesis after a whole tree. -/
theorem ofTokens_closeParen {t : Term} (ht : t.Canonical) (more : List Token) (u : Term) :
    Term.ofTokens (t.tokens ++ .closeParen :: more) ≠ .ok u := by
  rw [ne_eq, Parser.ofTokens_eq_ok_iff,
    (Term.parses t ht).expression (Term.isFinal_of_isClosing rfl more)]
  simp

/-- A text that goes on after a dotted path with a closing parenthesis is not read. -/
theorem readBody_ne_ok_of_isDottedPath (hpath : isDottedPath (Text.trimWhiteSpace body))
    (rest : List Char) (e : Expression) : readBody (body ++ ')' :: rest) ≠ .ok e := by
  intro h
  have hmem : ')' ∈ Text.trimWhiteSpace (body ++ ')' :: rest) :=
    Text.mem_trimWhiteSpace (by decide) (List.mem_append_right _ List.mem_cons_self)
  have hnot : isDottedPath (Text.trimWhiteSpace (body ++ ')' :: rest)) = false :=
    Bool.eq_false_iff.mpr fun h => closeParen_notMem_of_isDottedPath h hmem
  -- With a parenthesis in it the text is no dotted path, so it is read as source text.
  rw [readBody, hnot] at h
  obtain ⟨tokens, hscan, hterm⟩ := Checked.bind_eq_ok.mp h
  obtain ⟨term, hparse, -⟩ := Checked.bind_eq_ok.mp hterm
  obtain ⟨leading, trailing, heq, hleading, htrailing⟩ := Text.exists_trimWhiteSpace body
  obtain ⟨root, names, htext, hroot, hnames, -⟩ := exists_words_of_isDottedPath hpath
  rw [Token.scan, String.toList_ofList, heq, htext, List.append_assoc, List.append_assoc] at hscan
  have hcode : (State.source 0).isCode := rfl
  have hends : Ends (trailing ++ ')' :: rest) :=
    ends_whiteSpace htrailing (ends_cons (by decide) (by decide) rest)
  obtain ⟨t, more, ht, rfl, hmore⟩ := exists_tokens_ofNames hcode hroot hnames hends
    (scanFrom_of_whiteSpace hcode hleading hscan)
  have hparen := scanFrom_of_whiteSpace hcode htrailing hmore
  obtain ⟨more, rfl, -⟩ := (Reads.single (advance_sign hcode rfl)).exists_append hparen
  exact ofTokens_closeParen ht.canonical more term hparse

/-! ## The search -/

/-- The characters start with a body that is read and the parenthesis that closes it. -/
structure Accepts (cs body after : List Char) (e : Expression) : Prop where
  eq_append : cs = body ++ ')' :: after
  readBody_eq : readBody body = .ok e

/-- No shorter body of the characters is read. -/
structure IsShortest (cs body after : List Char) (e : Expression) : Prop extends
    Accepts cs body after e where
  length_le : ∀ {other rest : List Char} {found : Expression},
    Accepts cs other rest found → body.length ≤ other.length

/-- Every body of the characters that is read is at least as long as `front`. -/
def NothingBefore (front cs : List Char) : Prop :=
  ∀ {body after : List Char} {e : Expression}, Accepts cs body after e →
    front.length ≤ body.length

variable {front passed rest after : List Char} {c : Char} {e : Expression}

/-- A body that is no shorter than the first characters is these, or it goes on with the next
character. -/
theorem Accepts.eq_or_append (h : Accepts (front ++ c :: rest) body after e)
    (hle : front.length ≤ body.length) :
    (body = front ∧ c = ')') ∨ ∃ more, body = front ++ c :: more := by
  obtain ⟨more, rfl⟩ : front <+: body :=
    List.prefix_of_prefix_length_le (List.prefix_append _ _) ⟨_, h.eq_append.symm⟩ hle
  have heq := h.eq_append
  rw [List.append_assoc] at heq
  have htail := List.append_cancel_left heq
  cases more with
  | nil => exact .inl ⟨List.append_nil _, (List.cons.inj htail).1⟩
  | cons d more =>
    obtain rfl : c = d := (List.cons.inj htail).1
    exact .inr ⟨more, rfl⟩

/-- The search passes one more character if the body before it is not read. -/
theorem NothingBefore.concat (h : NothingBefore front (front ++ c :: rest))
    (hc : c = ')' → ∀ e, readBody front ≠ .ok e) :
    NothingBefore (front ++ [c]) (front ++ c :: rest) := by
  intro body after e haccepts
  rcases haccepts.eq_or_append (h haccepts) with ⟨rfl, hparen⟩ | ⟨more, rfl⟩
  · exact absurd haccepts.readBody_eq (hc hparen e)
  · simp

/-- After a dotted path that is not read, no longer body is read. -/
theorem not_accepts_of_isDottedPath {fault : Fault} (hread : readBody front = .error fault)
    (hpath : isDottedPath (Text.trimWhiteSpace front)) (hle : front.length ≤ body.length) :
    ¬ Accepts (front ++ ')' :: rest) body after e := by
  intro haccepts
  rcases haccepts.eq_or_append hle with ⟨rfl, -⟩ | ⟨more, rfl⟩
  · exact absurd (hread.symm.trans haccepts.readBody_eq) (by simp)
  · exact readBody_ne_ok_of_isDottedPath hpath more e haccepts.readBody_eq

/-- Only a parenthesis can end an expression. -/
theorem shortestFrom_append {cs : List Char} (h : ')' ∉ cs) (passed : List Char) (last : Fault)
    (rest : List Char) :
    shortestFrom passed last (cs ++ rest) = shortestFrom (cs.reverse ++ passed) last rest := by
  induction cs generalizing passed with
  | nil => rfl
  | cons c cs ih =>
    rw [List.mem_cons, not_or] at h
    rw [List.cons_append, shortestFrom, if_neg (Ne.symm h.1), ih h.2, List.reverse_cons,
      List.append_assoc]
    rfl

/-- The search stops at a dotted path that is not read. -/
theorem shortestExpression_of_isDottedPath {fault : Fault} (hread : readBody front = .error fault)
    (hpath : isDottedPath (Text.trimWhiteSpace front)) (rest : List Char) :
    shortestExpression (front ++ ')' :: rest) = .error fault := by
  have hparen : ')' ∉ front := fun hmem =>
    closeParen_notMem_of_isDottedPath hpath (Text.mem_trimWhiteSpace (by decide) hmem)
  rw [shortestExpression, shortestFrom_append hparen, shortestFrom, if_pos rfl, List.append_nil,
    List.reverse_reverse, hread]
  exact if_pos hpath

/-- What the search finds is the shortest body that is read, and it fails only if there is none. -/
theorem shortestFrom_spec {last : Fault}
    (h : NothingBefore passed.reverse (passed.reverse ++ rest)) :
    match shortestFrom passed last rest with
    | .ok (e, after) => ∃ body, IsShortest (passed.reverse ++ rest) body after e
    | .error _ => ∀ body after e, ¬ Accepts (passed.reverse ++ rest) body after e := by
  have hwhole (c : Char) (passed rest : List Char) :
      (c :: passed).reverse ++ rest = passed.reverse ++ c :: rest := by simp
  fun_induction shortestFrom passed last rest with
  | case1 passed last =>
    intro body after e haccepts
    have hlength := congrArg List.length haccepts.eq_append
    have hle := h haccepts
    simp only [List.length_append, List.length_nil, List.length_cons] at hlength
    omega
  | case2 passed last rest e hread => exact ⟨passed.reverse, ⟨rfl, hread⟩, h⟩
  | case3 passed last rest fault hread hpath =>
    exact fun body after e haccepts =>
      not_accepts_of_isDottedPath hread hpath (h haccepts) haccepts
  | case4 passed last rest fault hread hpath ih =>
    rw [hwhole, List.reverse_cons] at ih
    exact ih (h.concat fun _ e => by simp [hread])
  | case5 passed last c rest hc ih =>
    rw [hwhole, List.reverse_cons] at ih
    exact ih (h.concat fun heq => absurd heq hc)

theorem shortestExpression_spec (cs : List Char) :
    match shortestExpression cs with
    | .ok (e, after) => ∃ body, IsShortest cs body after e
    | .error _ => ∀ body after e, ¬ Accepts cs body after e := by
  have hnothing : NothingBefore [].reverse ([].reverse ++ cs) := fun _ => Nat.zero_le _
  exact shortestFrom_spec hnothing

theorem isShortest_of_shortestExpression (h : shortestExpression cs = .ok (e, after)) :
    ∃ body, IsShortest cs body after e := by
  have hspec := shortestExpression_spec cs
  rwa [h] at hspec

theorem exists_found_of_accepts (h : Accepts cs body after e) :
    ∃ found, shortestExpression cs = .ok found := by
  have hspec := shortestExpression_spec cs
  cases hfound : shortestExpression cs with
  | ok found => exact ⟨found, rfl⟩
  | error fault =>
    rw [hfound] at hspec
    exact absurd h (hspec body after e)

theorem IsShortest.unique {other rest : List Char} {found : Expression}
    (h : IsShortest cs body after e) (hother : IsShortest cs other rest found) :
    e = found ∧ after = rest := by
  -- Two bodies of one length at the front of the same characters are the same.
  have hlength := Nat.le_antisymm (h.length_le hother.toAccepts) (hother.length_le h.toAccepts)
  obtain ⟨rfl, hafter⟩ := List.append_inj (h.eq_append.symm.trans hother.eq_append) hlength
  exact ⟨Except.ok.inj (h.readBody_eq.symm.trans hother.readBody_eq), (List.cons.inj hafter).2⟩

/-- The search finds the shortest body that is read before a closing parenthesis, if there is one,
and what follows the parenthesis.  Where it stops at a dotted path, no longer body is read. -/
theorem shortestExpression_iff (cs : List Char) :
    ((∃ found, shortestExpression cs = .ok found) ↔ ∃ body after e, Accepts cs body after e)
    ∧ (∀ e after, shortestExpression cs = .ok (e, after) ↔ ∃ body, IsShortest cs body after e)
    ∧ ∀ body after fault, cs = body ++ ')' :: after → readBody body = .error fault →
      isDottedPath (Text.trimWhiteSpace body) →
      shortestExpression cs = .error fault
        ∧ ∀ longer rest e, body.length < longer.length → ¬ Accepts cs longer rest e := by
  refine ⟨⟨?_, ?_⟩, fun e after => ⟨isShortest_of_shortestExpression, ?_⟩, ?_⟩
  · rintro ⟨⟨e, after⟩, h⟩
    obtain ⟨body, hshortest⟩ := isShortest_of_shortestExpression h
    exact ⟨body, after, e, hshortest.toAccepts⟩
  · rintro ⟨body, after, e, h⟩
    exact exists_found_of_accepts h
  · rintro ⟨body, h⟩
    obtain ⟨⟨found, rest⟩, hfound⟩ := exists_found_of_accepts h.toAccepts
    obtain ⟨other, hother⟩ := isShortest_of_shortestExpression hfound
    obtain ⟨rfl, rfl⟩ := h.unique hother
    exact hfound
  · rintro body after fault rfl hread hpath
    exact ⟨shortestExpression_of_isDottedPath hread hpath after,
      fun longer rest e hlt => not_accepts_of_isDottedPath hread hpath (Nat.le_of_lt hlt)⟩

/-- The search stops at the word `a`, which is no reference, although one follows. -/
theorem shortestExpression_iff_of_word :
    ∃ fault, readBody "a".toList = .error fault
      ∧ isDottedPath (Text.trimWhiteSpace "a".toList)
      ∧ shortestExpression "a) + b.c)".toList = .error fault
      ∧ ∀ longer rest e, "a".toList.length < longer.length →
        ¬ Accepts "a) + b.c)".toList longer rest e := by
  obtain ⟨fault, hread⟩ : ∃ fault, readBody "a".toList = .error fault := by
    have hfails : (readBody "a".toList).isOk = false := by decide +kernel
    cases hread : readBody "a".toList with
    | error fault => exact ⟨fault, rfl⟩
    | ok e => exact absurd (hread ▸ hfails) (by simp [Except.isOk, Except.toBool])
  have hpath : isDottedPath (Text.trimWhiteSpace "a".toList) := by decide +kernel
  have hcs : "a) + b.c)".toList = "a".toList ++ ')' :: " + b.c)".toList := by decide
  exact ⟨fault, hread, hpath, (shortestExpression_iff _).2.2 _ _ fault hcs hread hpath⟩

end Literal

end ClusterBlueprint
