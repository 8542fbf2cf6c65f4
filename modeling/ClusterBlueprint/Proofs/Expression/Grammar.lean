import ClusterBlueprint.Proofs.Expression.Parsed
import ClusterBlueprint.Proofs.Expression.Parsing
import ClusterBlueprint.Proofs.Expression.Scanning

/-!
The canonical grammar: what is printed is read back, and what is read can be printed.
-/

namespace ClusterBlueprint.Term

/-- A canonical tree is read back from its text, and every tree that is read from source text is
canonical, unless a number in the text is too large to be one. -/
theorem parse_text_of_canonical_and_canonical_of_parse :
    (∀ t : Term, t.Canonical → (Token.scan t.text >>= ofTokens) = .ok t)
      ∧ ∀ (source : String) (tokens : List Token) (t : Term), Token.scan source = .ok tokens →
        (∀ value, .number value ∈ tokens → value.isFinite) → ofTokens tokens = .ok t →
          t.Canonical ∧ (Token.scan t.text >>= ofTokens) = .ok t := by
  have hback : ∀ t : Term, t.Canonical → (Token.scan t.text >>= ofTokens) = .ok t := by
    intro t ht
    rw [scan_text ht]
    exact ofTokens_tokens ht
  refine ⟨hback, fun source tokens t hscan hfinite hparse => ?_⟩
  have ht := canonical_of_ofTokens (lexed_of_scan hscan hfinite) hparse
  exact ⟨ht, hback t ht⟩

/-- The text `var.on ? "a-${var.x}" : null` is read back as its tree. -/
theorem parse_text_of_conditional :
    let t := conditional (ofNames "var" ["on"])
      (template [.literal "a-", .interpolation (ofNames "var" ["x"])]) null
    t.Canonical ∧ (∀ value, .number value ∈ t.tokens → value.isFinite)
      ∧ (Token.scan t.text >>= ofTokens) = .ok t := by
  intro t
  have hnames (name : String) (h : Lexer.isIdentifier name) : (ofNames "var" [name]).Canonical :=
    ⟨by decide, h, trivial⟩
  have hdash : "a-".toList.getLast? ≠ some '$' := by decide
  have ht : t.Canonical :=
    ⟨by decide, hnames "on" (by decide), ⟨by decide, hdash, hnames "x" (by decide), trivial⟩,
      trivial⟩
  have hfinite : ∀ value, .number value ∈ t.tokens → value.isFinite := by
    simp [t, ofNames, tokens, partsTokens, stepsTokens]
  have hscan : Token.scan t.text = .ok t.tokens := scan_text ht
  refine ⟨ht, hfinite, ?_⟩
  exact (parse_text_of_canonical_and_canonical_of_parse.2 t.text t.tokens t hscan hfinite
    (ofTokens_tokens ht)).2

end ClusterBlueprint.Term
