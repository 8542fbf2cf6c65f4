import ClusterBlueprint.Proofs.Expression.Enclosed
import ClusterBlueprint.Proofs.Expression.Reread
import ClusterBlueprint.Proofs.Literal.Shortest

/-!
The two readings of what stands in `$(...)`.

A plain dotted path is a reference by its words.  Everything else is source text, whose roots are
named as documents name them.  In parentheses a path is source text too, so the readings can be
compared: they agree except on three words and on reserved words.  `GROUP.MODULE.NAME` is an output
of `MODULE`, while `(GROUP.MODULE.NAME)` is an attribute of an output of `GROUP`.  A path that
starts with `true`, `false` or `null` is a reference, but in parentheses it goes into that value.
-/

namespace ClusterBlueprint

open Lexer Literal

namespace Literal

variable {body : List Char} {words : List String} {e : Expression}

/-! ## The words of a reference -/

/-- The words of a text that is a plain dotted path, and so a reference by its words. -/
def referenceWords? (body : List Char) : Option (List String) :=
  let trimmed := Text.trimWhiteSpace body
  if isDottedPath trimmed && !isGlobalAttribute trimmed
  then some (Text.split '.' (String.ofList trimmed))
  else none

theorem referenceWords?_eq_some (h : referenceWords? body = some words) :
    isDottedPath (Text.trimWhiteSpace body)
      ∧ words = Text.split '.' (String.ofList (Text.trimWhiteSpace body))
      ∧ readBody body = do
          return .ofReference
            (← Reference.parseText (String.ofList (Text.trimWhiteSpace body))) := by
  unfold referenceWords? at h
  dsimp only at h
  split at h
  · next hpath =>
    refine ⟨(Bool.and_eq_true_iff.mp hpath).1, (Option.some.inj h).symm, ?_⟩
    rw [readBody, if_pos hpath]
  · exact absurd h (by simp)

theorem readBody_of_source (h : referenceWords? body = none) :
    readBody body = .ok e
      ↔ ∃ t, (Token.scan (String.ofList body) >>= Term.ofTokens) = .ok t ∧ checkRoots t = .ok ()
        ∧ Expression.parse (t.reroot documentRoot).text = .ok e := by
  unfold referenceWords? at h
  dsimp only at h
  split at h
  · exact absurd h nofun
  · next hpath =>
    rw [readBody, if_neg hpath, Checked.bind_eq_ok]
    constructor
    · rintro ⟨tokens, hscan, h⟩
      obtain ⟨t, hterm, h⟩ := Checked.bind_eq_ok.mp h
      obtain ⟨_, hroots, hparse⟩ := Checked.bind_eq_ok.mp h
      exact ⟨t, Checked.bind_eq_ok.mpr ⟨tokens, hscan, hterm⟩, hroots, hparse⟩
    · rintro ⟨t, h, hroots, hparse⟩
      obtain ⟨tokens, hscan, hterm⟩ := Checked.bind_eq_ok.mp h
      exact ⟨tokens, hscan, Checked.bind_eq_ok.mpr ⟨t, hterm,
        Checked.bind_eq_ok.mpr ⟨(), hroots, hparse⟩⟩⟩

/-! ## Text in parentheses -/

def enclosed (body : List Char) : List Char := '(' :: (body ++ [')'])

theorem ofList_enclosed (body : List Char) :
    String.ofList (enclosed body) = parenthesised (String.ofList body) :=
  String.toList_inj.mp (by simp [enclosed, parenthesised])

/-- In parentheses nothing is a plain dotted path. -/
theorem referenceWords?_enclosed (body : List Char) : referenceWords? (enclosed body) = none := by
  have hmem : ')' ∈ Text.trimWhiteSpace (enclosed body) :=
    Text.mem_trimWhiteSpace (by decide) (by simp [enclosed])
  have hnot : isDottedPath (Text.trimWhiteSpace (enclosed body)) = false :=
    Bool.eq_false_iff.mpr fun h => closeParen_notMem_of_isDottedPath h hmem
  simp [referenceWords?, hnot]

/-- Source text is read in parentheses as a tree in parentheses. -/
theorem readBody_enclosed_of_source {t : Term}
    (hterm : (Token.scan (String.ofList body) >>= Term.ofTokens) = .ok t)
    (hroots : checkRoots t = .ok ())
    (hparse : Expression.parse (t.reroot documentRoot).text = .ok e) :
    readBody (enclosed body) = .ok ⟨.parens e.term⟩ := by
  obtain ⟨tokens, hscan, htokens⟩ := Checked.bind_eq_ok.mp hterm
  refine (readBody_of_source (referenceWords?_enclosed body)).mpr ⟨.parens t, ?_, hroots, ?_⟩
  · rw [ofList_enclosed]
    exact Checked.bind_eq_ok.mpr
      ⟨_, Token.scan_parenthesised hscan, Term.ofTokens_parens htokens⟩
  · exact Expression.parse_parenthesised hparse

/-! ## Dotted paths as source text -/

/-- A dotted path that the lexer reads is a whole tree. -/
theorem exists_spells_of_scan (hwords : referenceWords? body = some words) {tokens : List Token}
    (hscan : Token.scan (String.ofList body) = .ok tokens) :
    ∃ root names t, words = root :: names ∧ Spells t root names
      ∧ (Token.scan (String.ofList body) >>= Term.ofTokens) = .ok t := by
  obtain ⟨hpath, hsplit, -⟩ := referenceWords?_eq_some hwords
  obtain ⟨root, names, htext, hroot, hnames, hlist⟩ := exists_words_of_isDottedPath hpath
  obtain ⟨leading, trailing, heq, hleading, htrailing⟩ := Text.exists_trimWhiteSpace body
  have hcode : (State.source 0).isCode := rfl
  have hlexed := hscan
  rw [Token.scan, String.toList_ofList, heq, htext] at hlexed
  obtain ⟨t, more, ht, rfl, hmore⟩ := exists_tokens_ofNames hcode hroot hnames
    (by simpa using ends_whiteSpace htrailing ends_nil)
    (scanFrom_of_whiteSpace hcode hleading hlexed)
  -- Only white space follows the path, and it has no tokens.
  have hend : scanFrom (.source 0) [] = .ok more :=
    scanFrom_of_whiteSpace hcode htrailing (by rwa [List.append_nil])
  obtain rfl : more = [] := (Except.ok.inj ((scanFrom_nil rfl).symm.trans hend)).symm
  refine ⟨root, names, t, hsplit.trans hlist, ht, Checked.bind_eq_ok.mpr ⟨_, hscan, ?_⟩⟩
  rw [List.append_nil]
  exact Term.ofTokens_tokens ht.canonical

theorem reroot_ofNames (place : Term.Rerooting) (root : String) (names : List String) :
    (Term.ofNames root names).reroot place
      = .ofNames (place root).1 ((place root).2 ++ names) := by
  rw [Term.ofNames, Term.reroot, rerootSteps_attributes, ← List.map_append]
  rfl

/-- The path that stands in an expression for a dotted path of a document. -/
def rerooted (root : String) (names : List String) : Term :=
  .ofNames (documentRoot root).1 ((documentRoot root).2 ++ names)

theorem canonical_rerooted {root : String} {names : List String}
    (h : (Term.ofNames root names).Canonical) : (rerooted root names).Canonical := by
  obtain ⟨hroot, hsteps⟩ := h
  unfold rerooted documentRoot
  split
  · exact ⟨show isName Reference.globalRoot by decide, hsteps⟩
  · exact ⟨show isName Reference.moduleRoot by decide, (Bool.and_eq_true_iff.mp hroot).1, hsteps⟩

theorem nodes_ofNames (root : String) (names : List String) :
    (Term.ofNames root names).nodes = [Term.ofNames root names] :=
  congrArg (Term.ofNames root names :: ·) (stepsNodes_attributes names)

theorem parse_rerooted {root : String} {names : List String} {reference : Reference}
    (hcanonical : (Term.ofNames root names).Canonical)
    (hreference : (rerooted root names).reference? = some reference) :
    Expression.parse (rerooted root names).text = .ok ⟨rerooted root names⟩ := by
  refine Expression.parse_text_eq_ok.mpr ⟨canonical_rerooted hcanonical, fun other steps hmem => ?_⟩
  have hnode : Term.traversal other steps = rerooted root names :=
    List.mem_singleton.mp (nodes_ofNames _ _ ▸ hmem)
  rw [← hnode] at hreference
  cases hread : Reference.ofTraversal other steps with
  | error fault => simp [Term.reference?, hread, Except.toOption] at hreference
  | ok found => exact ⟨found, rfl⟩

/-- A dotted path that starts with a reserved word is a value in parentheses. -/
theorem readBody_enclosed_of_isReserved {root : String} {names : List String} {t : Term}
    (ht : Spells t root names) (hreserved : Parser.isReserved root)
    (hterm : (Token.scan (String.ofList body) >>= Term.ofTokens) = .ok t) :
    ∃ inner, readBody (enclosed body) = .ok inner ∧ inner.references = [] := by
  obtain ⟨htraversals, hreroot⟩ := ht.hasNoRoots hreserved
  have hparse : Expression.parse (t.reroot documentRoot).text = .ok ⟨t⟩ := by
    rw [hreroot]
    refine Expression.parse_text_eq_ok.mpr ⟨ht.canonical, fun root steps hmem => ?_⟩
    have hmem := Term.mem_traversals.mpr hmem
    rw [htraversals] at hmem
    exact absurd hmem List.not_mem_nil
  refine ⟨_, readBody_enclosed_of_source hterm ?_ hparse, ?_⟩
  · rw [checkRoots, htraversals]
    rfl
  · rw [Expression.references_parens, Expression.references, htraversals]
    rfl

/-- Any other dotted path is a traversal in parentheses. -/
theorem readBody_enclosed_of_ofNames {root name : String} {names : List String}
    {reference : Reference} (hcanonical : (Term.ofNames root (name :: names)).Canonical)
    (hreference : (rerooted root (name :: names)).reference? = some reference)
    (hterm : (Token.scan (String.ofList body) >>= Term.ofTokens)
      = .ok (.ofNames root (name :: names))) :
    ∃ inner, readBody (enclosed body) = .ok inner ∧ inner.references = [reference] := by
  refine ⟨_, readBody_enclosed_of_source hterm ?_ (e := ⟨rerooted root (name :: names)⟩) ?_, ?_⟩
  · rw [checkRoots, Term.traversals, nodes_ofNames]
    rfl
  · rw [reroot_ofNames]
    exact parse_rerooted hcanonical hreference
  · rw [Expression.references_parens, Expression.references_eq]
    show (rerooted root (name :: names)).nodes.filterMap Term.reference? = [reference]
    rw [rerooted, nodes_ofNames]
    exact congrArg Option.toList hreference

/-! ## The two readings -/

/-- The words of a dotted path, what it refers to, and what it refers to in parentheses. -/
inductive RefersEnclosed : List String → List Reference → List Reference → Prop
  | global {name : String} :
    RefersEnclosed [Reference.globalNamespace, name] [.global name] [.global name]
  | pair {module name : String} (hmodule : module ≠ Reference.globalNamespace)
    (h : ¬ Parser.isReserved module) :
    RefersEnclosed [module, name] [.ofModule module name] [.ofModule module name]
  | triple {group module name : String} (hgroup : group ≠ Reference.globalNamespace)
    (h : ¬ Parser.isReserved group) :
    RefersEnclosed [group, module, name] [.ofModule module name] [.ofModule group module]
  | reservedPair {module name : String} (h : Parser.isReserved module) :
    RefersEnclosed [module, name] [.ofModule module name] []
  | reservedTriple {group module name : String} (h : Parser.isReserved group) :
    RefersEnclosed [group, module, name] [.ofModule module name] []

theorem not_isReserved_globalNamespace : ¬ Parser.isReserved Reference.globalNamespace := by decide

theorem refersEnclosed_of_parseText {text root : String} {names : List String}
    {reference : Reference} {t : Term} (hsplit : Text.split '.' text = root :: names)
    (hparse : Reference.parseText text = .ok reference) (ht : Spells t root names)
    (hterm : (Token.scan (String.ofList body) >>= Term.ofTokens) = .ok t) :
    ∃ inner, readBody (enclosed body) = .ok inner
      ∧ RefersEnclosed (root :: names) (Expression.ofReference reference).references
        inner.references := by
  rcases Reference.cases_of_parseText hparse with
    ⟨first, name, hwords, heq⟩ | ⟨group, module, name, hwords, hgroup, rfl⟩
  · obtain ⟨rfl, rfl⟩ := List.cons.inj (hsplit.symm.trans hwords)
    by_cases hreserved : Parser.isReserved root
    · obtain ⟨inner, hinner, hnone⟩ := readBody_enclosed_of_isReserved ht hreserved hterm
      have hmodule : root ≠ Reference.globalNamespace := fun h =>
        not_isReserved_globalNamespace (h ▸ hreserved)
      rw [if_neg hmodule] at heq
      exact ⟨inner, hinner, hnone ▸ heq ▸ .reservedPair hreserved⟩
    · obtain rfl := ht.eq_ofNames hreserved
      have hrerooted : (rerooted root [name]).reference? = some reference := by
        rw [heq, rerooted, documentRoot]
        split <;> rfl
      obtain ⟨inner, hinner, hinside⟩ := readBody_enclosed_of_ofNames ht.canonical hrerooted hterm
      refine ⟨inner, hinner, hinside ▸ ?_⟩
      split at heq
      · next hglobal => exact heq ▸ hglobal ▸ .global
      · next hmodule => exact heq ▸ .pair hmodule hreserved
  · obtain ⟨rfl, rfl⟩ := List.cons.inj (hsplit.symm.trans hwords)
    by_cases hreserved : Parser.isReserved root
    · obtain ⟨inner, hinner, hnone⟩ := readBody_enclosed_of_isReserved ht hreserved hterm
      exact ⟨inner, hinner, hnone ▸ .reservedTriple hreserved⟩
    · obtain rfl := ht.eq_ofNames hreserved
      have hrerooted : (rerooted root [module, name]).reference? =
          some (.ofModule root module) := by
        rw [rerooted, documentRoot, if_neg hgroup]
        rfl
      obtain ⟨inner, hinner, hinside⟩ := readBody_enclosed_of_ofNames ht.canonical hrerooted hterm
      exact ⟨inner, hinner, hinside ▸ .triple hgroup hreserved⟩

/-- A text that is read is read in parentheses too, unless it is a dotted path that the lexer does
not read.  If it is no dotted path, it refers to the same, and if it is one, `RefersEnclosed` says
what it refers to. -/
theorem readBody_enclosed (h : readBody body = .ok e)
    (hscan : ∀ words, referenceWords? body = some words →
      ∃ tokens, Token.scan (String.ofList body) = .ok tokens) :
    ∃ inner, readBody (enclosed body) = .ok inner
      ∧ (referenceWords? body = none → inner.references = e.references)
      ∧ ∀ words, referenceWords? body = some words →
        RefersEnclosed words e.references inner.references := by
  cases hwords : referenceWords? body with
  | none =>
    obtain ⟨t, hterm, hroots, hparse⟩ := (readBody_of_source hwords).mp h
    exact ⟨_, readBody_enclosed_of_source hterm hroots hparse,
      fun _ => Expression.references_parens e.term, fun _ => nofun⟩
  | some words =>
    obtain ⟨-, hsplit, hread⟩ := referenceWords?_eq_some hwords
    obtain ⟨reference, hparse, heq⟩ := Checked.bind_eq_ok.mp (hread.symm.trans h)
    obtain rfl := Except.ok.inj heq
    obtain ⟨_, hlexed⟩ := hscan words hwords
    obtain ⟨root, names, t, rfl, ht, hterm⟩ := exists_spells_of_scan hwords hlexed
    obtain ⟨inner, hinner, hrefers⟩ := refersEnclosed_of_parseText hsplit.symm hparse ht hterm
    refine ⟨inner, hinner, nofun, fun _ heq => ?_⟩
    obtain rfl := Option.some.inj heq
    exact hrefers

theorem readBody_enclosed_of_path :
    let path := " network1.subnetwork_name".toList
    let source := "vars.zones[0] + network1.count".toList
    referenceWords? path = some ["network1", "subnetwork_name"] ∧ referenceWords? source = none
      ∧ (∃ e inner, readBody path = .ok e ∧ readBody (enclosed path) = .ok inner
        ∧ RefersEnclosed ["network1", "subnetwork_name"] e.references inner.references)
      ∧ ∃ e inner, readBody source = .ok e ∧ readBody (enclosed source) = .ok inner
        ∧ inner.references = e.references := by
  intro path source
  have hpath : referenceWords? path = some ["network1", "subnetwork_name"] := by decide +kernel
  have hsource : referenceWords? source = none := by decide +kernel
  have hread : ∀ body ∈ [path, source], (readBody body).isOk := by decide +kernel
  have hscan : (Token.scan (String.ofList path)).isOk := by decide +kernel
  obtain ⟨e, he⟩ := Checked.exists_of_isOk (hread path List.mem_cons_self)
  obtain ⟨inner, hinner, -, hrefers⟩ :=
    readBody_enclosed he fun _ _ => Checked.exists_of_isOk hscan
  obtain ⟨f, hf⟩ := Checked.exists_of_isOk
    (hread source (List.mem_cons_of_mem _ List.mem_cons_self))
  obtain ⟨other, hother, hsame, -⟩ :=
    readBody_enclosed hf fun _ hwords => absurd (hsource.symm.trans hwords) (by simp)
  exact ⟨hpath, hsource, ⟨e, inner, he, hinner, hrefers _ hpath⟩, f, other, hf, hother,
    hsame hsource⟩

/-- A path in a group names another module in parentheses, and after `true` it names none.  The
lexer does not know the letters of all paths. -/
theorem references_enclosed_ne :
    (readBody "primary.network1.subnetwork_name".toList).toOption.map Expression.references
        = some [.ofModule "network1" "subnetwork_name"]
      ∧ (readBody (enclosed "primary.network1.subnetwork_name".toList)).toOption.map
          Expression.references = some [.ofModule "primary" "network1"]
      ∧ (readBody "true.x".toList).toOption.map Expression.references
        = some [.ofModule "true" "x"]
      ∧ (readBody (enclosed "true.x".toList)).toOption.map Expression.references = some []
      ∧ (readBody "vars.région".toList).toOption.map Expression.references
        = some [.global "région"]
      ∧ (readBody (enclosed "vars.région".toList)).toOption.map Expression.references = none := by
  decide +kernel

end Literal

end ClusterBlueprint
