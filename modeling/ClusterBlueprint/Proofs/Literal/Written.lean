import ClusterBlueprint.Proofs.Evaluation.Named
import ClusterBlueprint.Proofs.Literal.Dotted

/-!
Templates put together from expressions that were read one by one.

Such a template is not read itself, and it cannot always be: a dotted path in it may have letters
that the lexer does not know.  Its text still says what stands in it.  The lexer goes from piece to
piece in the same way for all templates of that text, and an expression ends at the first brace that
it did not open.
-/

namespace ClusterBlueprint

open Lexer

namespace Term

/-! ## Expressions in a text -/

/-- A tree that was read in a text: from source, or as a dotted path. -/
def IsInserted (t : Term) : Prop :=
  ((t.mapNumbers Number.bounded).Canonical ∧ (⟨t⟩ : Expression).IsWellReferenced) ∨ t.IsDotted

variable {t u : Term}

theorem namedSteps_attributes (names : List String) :
    namedSteps (names.map Step.attribute) = names.map Step.attribute := by
  induction names with
  | nil => rfl
  | cons name names ih => exact congrArg (_ :: ·) ih

theorem IsDotted.named_eq (h : t.IsDotted) : t.named = t := by
  obtain ⟨root, names, rfl, -⟩ := h
  rw [ofNames, named, namedSteps_attributes]

theorem stepsNodes_attributes (names : List String) :
    stepsNodes (names.map Step.attribute) = [] := by
  induction names with
  | nil => rfl
  | cons name names ih => exact ih

theorem IsInserted.isDistinct (h : t.IsInserted) : ∀ node ∈ t.nodes, node.IsDistinct := by
  rcases h with ⟨hcanonical, hreferences⟩ | ⟨root, names, rfl, hroot, -⟩
  · exact isDistinct_of_canonical hcanonical hreferences
  · rw [ofNames, nodes, stepsNodes_attributes]
    refine List.forall_mem_singleton.mpr ?_
    show root ≠ Number.infinityName
    rcases hroot with rfl | rfl <;> decide

/-- What was read in a text is read back from its own text, or it is a dotted path whose text cannot
be read. -/
theorem IsInserted.canonical_or_stops (h : t.IsInserted) :
    t.named.Canonical ∨ t.IsDotted ∧ Stops t.text.toList := by
  rcases h with ⟨hcanonical, -⟩ | hdotted
  · exact .inl (canonical_named t hcanonical)
  · rcases hdotted.canonical_or_stops with hcanonical | hstops
    · rw [hdotted.named_eq]
      exact .inl hcanonical
    · exact .inr ⟨hdotted, hstops⟩

theorem scan_text_of_named (h : t.named.Canonical) : Token.scan t.text = .ok t.named.tokens := by
  rw [← text_named]
  exact scan_text h

theorem not_stops_of_scan {source : String} {tokens : List Token}
    (h : Token.scan source = .ok tokens) : ¬ Stops source.toList := by
  intro hstops
  refine hstops (.source 0) rfl [] tokens ?_
  rwa [List.append_nil]

/-- Expressions of one text are the same up to the name of infinity. -/
theorem IsInserted.named_eq_of_text (ht : t.IsInserted) (hu : u.IsInserted)
    (h : t.text = u.text) : t.named = u.named := by
  rcases ht.canonical_or_stops with hcanonical | ⟨hdotted, hstops⟩
  · rcases hu.canonical_or_stops with hcanonical' | ⟨-, hstops'⟩
    · have hread := parse_text_named hcanonical
      rw [h, parse_text_named hcanonical'] at hread
      exact (Except.ok.inj hread).symm
    · rw [← h] at hstops'
      exact absurd hstops' (not_stops_of_scan (scan_text_of_named hcanonical))
  · rcases hu.canonical_or_stops with hcanonical' | ⟨hdotted', -⟩
    · rw [h] at hstops
      exact absurd hstops (not_stops_of_scan (scan_text_of_named hcanonical'))
    · rw [hdotted.eq_of_text hdotted' h]

/-! ## The brace after an expression -/

theorem reads_text_of_named {state : State} (hstate : state.isCode) (h : t.named.Canonical)
    {rest : List Char} (hrest : Ends rest) :
    Reads state (t.text.toList ++ rest) t.named.tokens state rest := by
  rw [← text_named]
  exact reads_text hstate t.named h hrest

/-- In the code of a source, nothing opened the brace that closes an interpolation. -/
theorem IsInserted.not_ok_before_closeBrace (h : t.IsInserted) (rest : List Char)
    (tokens : List Token) :
    scanFrom (.source 0) (t.text.toList ++ '}' :: rest) ≠ .ok tokens := by
  rcases h.canonical_or_stops with hcanonical | ⟨-, hstops⟩
  · intro hok
    have hends : Ends ('}' :: rest) := ends_cons (by decide) (by decide) rest
    obtain ⟨more, hmore⟩ := (reads_text_of_named rfl hcanonical hends).exists_ok hok
    have hfault : ∃ fault, advance (.source 0) ('}' :: rest) = .error fault := by
      rw [advance_code rfl (by decide)]
      exact ⟨_, rfl⟩
    obtain ⟨fault, hfault⟩ := hfault
    exact scanFrom_ne_ok_of_advance hfault more hmore
  · exact hstops (.source 0) rfl _ tokens

theorem IsInserted.text_ne (ht : t.IsInserted) (hu : u.IsInserted) (rest : List Char) :
    u.text.toList ≠ t.text.toList ++ '}' :: rest := by
  intro heq
  rcases hu.canonical_or_stops with hcanonical | ⟨hdotted, -⟩
  · have hscan := scan_text_of_named hcanonical
    rw [Token.scan, heq] at hscan
    exact ht.not_ok_before_closeBrace rest _ hscan
  · refine hdotted.closeBrace_notMem ?_
    rw [heq]
    exact List.mem_append_right _ List.mem_cons_self

/-- An expression ends where the brace after it stands. -/
theorem IsInserted.closed_inj (ht : t.IsInserted) (hu : u.IsInserted) {rest others : List Char}
    (h : t.text.toList ++ '}' :: rest = u.text.toList ++ '}' :: others) :
    t.named = u.named ∧ rest = others := by
  have hsame : t.text.toList = u.text.toList := by
    rcases List.append_eq_append_iff.mp h with ⟨middle, hu', hrest⟩ | ⟨middle, ht', hrest⟩
    · cases middle with
      | nil => simpa using hu'.symm
      | cons c middle =>
        obtain ⟨rfl, -⟩ := List.cons.inj hrest
        exact absurd hu' (ht.text_ne hu middle)
    · cases middle with
      | nil => simpa using ht'
      | cons c middle =>
        obtain ⟨rfl, -⟩ := List.cons.inj hrest
        exact absurd ht' (hu.text_ne ht middle)
  rw [hsame] at h
  exact ⟨ht.named_eq_of_text hu (String.toList_inj.mp hsame),
    (List.cons.inj (List.append_cancel_left h)).2⟩

/-! ## Pieces of a template -/

/-- The pieces of a template that stand for a text with expressions in it. -/
def WrittenParts : List Part → Prop
  | [] => True
  | .literal text :: rest => text ≠ "" ∧ mayPrecede text rest ∧ WrittenParts rest
  | .interpolation t :: rest => t.IsInserted ∧ WrittenParts rest

def firstToken : List Part → Token
  | [] => .closeQuote
  | .literal text :: _ => .literal text
  | .interpolation _ :: _ => .openInterpolation

def afterFirst : List Part → List Char → List Char
  | [], rest => rest
  | .literal _ :: parts, rest => (partsText parts).toList ++ '"' :: rest
  | .interpolation t :: parts, rest =>
    t.text.toList ++ '}' :: ((partsText parts).toList ++ '"' :: rest)

variable {parts others : List Part} {rest : List Char}

theorem advance_partsText (h : WrittenParts parts) (outer : State) (rest : List Char) :
    ∃ after, advance (.template outer) ((partsText parts).toList ++ '"' :: rest)
      = .ok (some (firstToken parts, after, afterFirst parts rest)) := by
  match parts with
  | [] => exact ⟨outer, advance_closeQuote outer rest⟩
  | .literal text :: parts =>
    obtain ⟨hne, hprecede, -⟩ := h
    have htext : (partsText (.literal text :: parts)).toList ++ '"' :: rest
        = (Token.literalText text).toList ++ ((partsText parts).toList ++ '"' :: rest) := by
      simp [partsText]
    rw [htext]
    exact ⟨_, advance_literal outer hne (endsText_partsText hprecede rest)⟩
  | .interpolation t :: parts =>
    have htext : (partsText (.interpolation t :: parts)).toList ++ '"' :: rest
        = '$' :: '{' :: (t.text.toList ++ '}' :: ((partsText parts).toList ++ '"' :: rest)) := by
      simp [partsText]
    rw [htext]
    exact ⟨_, advance_openInterpolation outer _⟩

theorem firstToken_eq_of_text (hparts : WrittenParts parts) (hothers : WrittenParts others)
    {more : List Char}
    (h : (partsText parts).toList ++ '"' :: rest = (partsText others).toList ++ '"' :: more) :
    firstToken parts = firstToken others ∧ afterFirst parts rest = afterFirst others more := by
  obtain ⟨_, hfirst⟩ := advance_partsText hparts (.source 0) rest
  obtain ⟨_, hsecond⟩ := advance_partsText hothers (.source 0) more
  rw [h, hsecond] at hfirst
  obtain ⟨htoken, hrest⟩ := Prod.mk.inj (Option.some.inj (Except.ok.inj hfirst))
  exact ⟨htoken.symm, (Prod.mk.inj hrest).2.symm⟩

/-- Pieces of one text are the same up to the name of infinity. -/
theorem namedParts_eq_of_text (hparts : WrittenParts parts) (hothers : WrittenParts others)
    {more : List Char}
    (h : (partsText parts).toList ++ '"' :: rest = (partsText others).toList ++ '"' :: more) :
    namedParts parts = namedParts others := by
  induction parts generalizing others rest more with
  | nil =>
    have htoken := (firstToken_eq_of_text hparts hothers h).1
    rcases others with _ | ⟨⟨text⟩ | ⟨u⟩, others⟩
    · rfl
    · exact absurd htoken Token.noConfusion
    · exact absurd htoken Token.noConfusion
  | cons part parts ih =>
    obtain ⟨htoken, hafter⟩ := firstToken_eq_of_text hparts hothers h
    cases part with
    | literal text =>
      rcases others with _ | ⟨⟨other⟩ | ⟨u⟩, others⟩
      · exact absurd htoken Token.noConfusion
      · rw [namedParts, namedParts, Token.literal.inj htoken,
          ih hparts.2.2 hothers.2.2 hafter]
      · exact absurd htoken Token.noConfusion
    | interpolation t =>
      rcases others with _ | ⟨⟨other⟩ | ⟨u⟩, others⟩
      · exact absurd htoken Token.noConfusion
      · exact absurd htoken Token.noConfusion
      · obtain ⟨hterm, hrest⟩ := hparts.1.closed_inj hothers.1 hafter
        rw [namedParts, namedParts, hterm, ih hparts.2 hothers.2 hrest]

/-- If the lexer reads the pieces to their end, all expressions in them are read back. -/
theorem canonicalParts_of_scan (h : WrittenParts parts) {outer : State} {tokens : List Token}
    (hscan : scanFrom (.template outer) ((partsText parts).toList ++ '"' :: rest) = .ok tokens) :
    CanonicalParts (namedParts parts) := by
  induction parts generalizing tokens with
  | nil => trivial
  | cons part parts ih =>
    cases part with
    | literal text =>
      obtain ⟨hne, hprecede, hparts⟩ := h
      have htext : (partsText (.literal text :: parts)).toList ++ '"' :: rest
          = (Token.literalText text).toList ++ ((partsText parts).toList ++ '"' :: rest) := by
        simp [partsText]
      rw [htext] at hscan
      have hread := advance_literal outer hne (endsText_partsText hprecede rest)
      obtain ⟨_, hmore⟩ := (Reads.single hread).exists_ok hscan
      refine ⟨hne, ?_, ih hparts hmore⟩
      rcases parts with _ | ⟨⟨other⟩ | ⟨t⟩, parts⟩
      · trivial
      · exact hprecede
      · exact hprecede
    | interpolation t =>
      have htext : (partsText (.interpolation t :: parts)).toList ++ '"' :: rest
          = '$' :: '{' :: (t.text.toList ++ '}' :: ((partsText parts).toList ++ '"' :: rest)) := by
        simp [partsText]
      rw [htext] at hscan
      obtain ⟨_, hinside⟩ := (Reads.single (advance_openInterpolation outer _)).exists_ok hscan
      rcases h.1.canonical_or_stops with hcanonical | ⟨-, hstops⟩
      · have hends : Ends ('}' :: ((partsText parts).toList ++ '"' :: rest)) :=
          ends_cons (by decide) (by decide) _
        obtain ⟨_, hclose⟩ := (reads_text_of_named rfl hcanonical hends).exists_ok hinside
        obtain ⟨_, hmore⟩ := (Reads.single (advance_closeBrace rfl rfl _)).exists_ok hclose
        exact ⟨hcanonical, ih h.2 hmore⟩
      · exact absurd hinside (hstops _ rfl _ _)

/-! ## Whole texts -/

/-- A tree that was read from a whole text: an expression, or a template that was put together. -/
def IsWritten (t : Term) : Prop := t.IsInserted ∨ ∃ parts, t = template parts ∧ WrittenParts parts

theorem isDistinct_of_writtenParts (h : WrittenParts parts) :
    ∀ node ∈ partsNodes parts, node.IsDistinct := by
  induction parts with
  | nil => exact List.forall_mem_nil _
  | cons part parts ih =>
    cases part with
    | literal text => exact ih h.2.2
    | interpolation t => exact List.forall_mem_append.mpr ⟨h.1.isDistinct, ih h.2⟩

theorem IsWritten.isDistinct (h : t.IsWritten) : ∀ node ∈ t.nodes, node.IsDistinct := by
  rcases h with hinserted | ⟨parts, rfl, hparts⟩
  · exact hinserted.isDistinct
  · exact List.forall_mem_cons.mpr ⟨trivial, isDistinct_of_writtenParts hparts⟩

theorem toList_text_template (parts : List Part) :
    (template parts).text.toList = '"' :: ((partsText parts).toList ++ ['"']) := by
  simp [text]

/-- A dotted path does not start like a template. -/
theorem IsDotted.text_ne_template (h : t.IsDotted) (parts : List Part) :
    t.text ≠ (template parts).text := by
  obtain ⟨root, names, rfl, hroot, -⟩ := h
  intro heq
  have hlist := congrArg String.toList heq
  rw [toList_text_ofNames, toList_text_template] at hlist
  rcases hroot with rfl | rfl <;> exact absurd (List.cons.inj hlist).1 (by decide)

/-- If the lexer reads the text of a template, the name in place of infinity makes it canonical. -/
theorem canonical_template_of_scan (hparts : WrittenParts parts) {tokens : List Token}
    (hscan : Token.scan (template parts).text = .ok tokens) :
    (template parts).named.Canonical := by
  rw [Token.scan, toList_text_template] at hscan
  obtain ⟨_, hinside⟩ := (Reads.single (advance_openQuote rfl _)).exists_ok hscan
  exact canonicalParts_of_scan hparts hinside

/-- An expression with the text of a template that was put together is that template, up to the name
of infinity. -/
theorem IsInserted.named_eq_template (ht : t.IsInserted) (hparts : WrittenParts parts)
    (h : t.text = (template parts).text) : t.named = (template parts).named := by
  rcases ht.canonical_or_stops with hcanonical | ⟨hdotted, -⟩
  · have hscan := scan_text_of_named hcanonical
    rw [h] at hscan
    have htemplate := canonical_template_of_scan hparts hscan
    have hread := parse_text_named hcanonical
    rw [h, parse_text_named htemplate] at hread
    exact (Except.ok.inj hread).symm
  · exact absurd h (hdotted.text_ne_template parts)

/-- What was read from texts is the same up to the name of infinity if its text is. -/
theorem IsWritten.named_eq_of_text (ht : t.IsWritten) (hu : u.IsWritten) (h : t.text = u.text) :
    t.named = u.named := by
  rcases ht with ht | ⟨parts, rfl, hparts⟩
  · rcases hu with hu | ⟨others, rfl, hothers⟩
    · exact ht.named_eq_of_text hu h
    · exact ht.named_eq_template hothers h
  · rcases hu with hu | ⟨others, rfl, hothers⟩
    · exact (hu.named_eq_template hparts h.symm).symm
    · have hlist := congrArg String.toList h
      rw [toList_text_template, toList_text_template] at hlist
      exact congrArg template (namedParts_eq_of_text hparts hothers (List.cons.inj hlist).2)

/-- If the lexer reads the text of what was read from a text, the name in place of infinity makes it
canonical. -/
theorem IsWritten.canonical_of_scan (h : t.IsWritten) {tokens : List Token}
    (hscan : Token.scan t.text = .ok tokens) : t.named.Canonical := by
  rcases h with hinserted | ⟨parts, rfl, hparts⟩
  · rcases hinserted.canonical_or_stops with hcanonical | ⟨-, hstops⟩
    · exact hcanonical
    · exact absurd hstops (not_stops_of_scan hscan)
  · exact canonical_template_of_scan hparts hscan

/-- What was read from a text is read back from its own text as the same up to the name of infinity,
or not at all. -/
theorem IsWritten.parse_eq_ok (h : t.IsWritten) {e : Expression} :
    Expression.parse t.text = .ok e
      ↔ e.term = t.named ∧ t.named.Canonical ∧ (⟨t.named⟩ : Expression).IsWellReferenced := by
  rw [Expression.parse_eq_ok]
  constructor
  · rintro ⟨hread, hreferences⟩
    obtain ⟨tokens, hscan, -⟩ := Checked.bind_eq_ok.mp hread
    have hcanonical := h.canonical_of_scan hscan
    have hterm : e.term = t.named :=
      Except.ok.inj (hread.symm.trans (parse_text_named hcanonical))
    exact ⟨hterm, hcanonical, hterm ▸ hreferences⟩
  · rintro ⟨hterm, hcanonical, hreferences⟩
    rw [hterm]
    refine ⟨parse_text_named hcanonical, ?_⟩
    intro root steps hmem
    exact hreferences root steps (hterm ▸ hmem)

end Term

end ClusterBlueprint
