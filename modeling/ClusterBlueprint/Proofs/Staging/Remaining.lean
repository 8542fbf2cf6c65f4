import ClusterBlueprint.Proofs.Evaluation.Mapped
import ClusterBlueprint.Proofs.Expression.Shown
import ClusterBlueprint.Proofs.Staging.Staged

/-!
The staging calls that remain in a setting.

Staging looks for calls in the tokens of an expression's text.  It leaves no call that these tokens
show, whatever tree they are read as, and it leaves an expression alone whose tokens show none.  So
a call remains if the text of its expression hides it.
-/

namespace ClusterBlueprint

/-- Whether a staging call stands in an expression. -/
def Expression.Stages (e : Expression) : Prop := ∃ node ∈ e.term.nodes, node.isStaging

/-- Whether the text of an expression shows a staging call. -/
def Expression.ShowsStaging (e : Expression) : Prop :=
  ∃ tokens, e.tokens = .ok tokens ∧ Parser.ShowsCall Function.stageName tokens

/-- An expression that tokens spell has no staging call unless the tokens show it. -/
theorem Expression.showsCall_of_ofTokens {tokens : List Token} {e : Expression}
    (h : ofTokens tokens = .ok e) (hstages : e.Stages) :
    Parser.ShowsCall Function.stageName tokens := by
  obtain ⟨node, hnode, hcall⟩ := hstages
  cases node with
  | call name args =>
    obtain rfl : name = Function.stageName := of_decide_eq_true hcall
    exact Term.showsCall_of_ofTokens (ofTokens_eq_ok.mp h).1 hnode
  | _ => exact absurd hcall Bool.false_ne_true

/-- An expression that is read back from its text shows its staging calls. -/
theorem Expression.Stages.shows {e : Expression} (hread : Expression.parse e.text = .ok e)
    (hstages : e.Stages) : e.ShowsStaging := by
  obtain ⟨tokens, hscan, hread⟩ := Checked.bind_eq_ok.mp hread
  exact ⟨tokens, hscan, showsCall_of_ofTokens hread hstages⟩

namespace Staging

open ClusterBlueprint.Parser (ShowsCall showsCall_cons)

variable {bindings : SortedMap Value} {e : Expression}

theorem showsCall_textTokens {name text : String} {more : List Token} :
    ShowsCall name (textTokens text ++ more) ↔ ShowsCall name more := by
  unfold textTokens
  split <;> simp [showsCall_cons]

/-- Some calls are replaced exactly if the tokens show one, and none is shown after that. -/
theorem showsCall_of_replaceCalls {tokens image : List Token} {replaced : Bool}
    (h : (replaceCalls bindings tokens).result = .ok (image, replaced)) :
    (replaced ↔ ShowsCall Function.stageName tokens) ∧ ¬ ShowsCall Function.stageName image
      ∧ (image.head? = some .openParen → tokens.head? = some .openParen) := by
  fun_induction replaceCalls bindings tokens generalizing image replaced with
  | case1 =>
    obtain ⟨rfl, rfl⟩ := Prod.mk.inj (Except.ok.inj h)
    simp [ShowsCall]
  | case2 => exact absurd h nofun
  | case3 token rest hcall inside after _ _ ih =>
    obtain ⟨destination, -, hrest⟩ := Evaluation.result_bind_eq_ok.mp h
    obtain ⟨⟨more, _⟩, hmore, hreturn⟩ := Evaluation.result_bind_eq_ok.mp hrest
    obtain ⟨rfl, rfl⟩ := Prod.mk.inj (Except.ok.inj hreturn)
    have hshown : token = .ident Function.stageName ∧ rest.head? = some .openParen := by
      simpa using hcall
    exact ⟨⟨fun _ => showsCall_cons.mpr (.inl hshown), fun _ => rfl⟩,
      fun hshows => (ih hmore).2.1 (showsCall_textTokens.mp hshows), nofun⟩
  | case4 token rest hnot ih =>
    obtain ⟨⟨more, found⟩, hmore, hreturn⟩ := Evaluation.result_bind_eq_ok.mp h
    obtain ⟨rfl, rfl⟩ := Prod.mk.inj (Except.ok.inj hreturn)
    have hnot : ¬ (token = .ident Function.stageName ∧ rest.head? = some .openParen) := by
      simpa using hnot
    obtain ⟨hfound, hnone, hopens⟩ := ih hmore
    refine ⟨hfound.trans (showsCall_cons.trans (or_iff_right hnot)).symm, fun hshows => ?_, id⟩
    -- The next token opens a parenthesis only if it did before.
    rcases showsCall_cons.mp hshows with ⟨htoken, hopen⟩ | hshows
    · exact hnot ⟨htoken, hopens hopen⟩
    · exact hnone hshows

theorem eq_of_mem_valueOf {inner : Expression} (h : inner ∈ (valueOf e).expressions) :
    inner = e := by
  unfold valueOf at h
  split at h
  · split at h
    · exact absurd h List.not_mem_nil
    · exact List.mem_singleton.mp h
  · exact List.mem_singleton.mp h

/-- An expression is left alone exactly if its text shows no staging call, and no staging call
stands in what replaces an expression. -/
theorem stages_of_stageExpression? {staged : Option Value}
    (h : (stageExpression? bindings e).result = .ok staged) :
    (staged = none ↔ ¬ e.ShowsStaging)
      ∧ ∀ value, staged = some value → ∀ inner ∈ value.expressions, ¬ inner.Stages := by
  obtain ⟨tokens, htokens, h⟩ := Evaluation.result_bind_eq_ok.mp h
  obtain ⟨⟨replacement, replaced⟩, hreplace, h⟩ := Evaluation.result_bind_eq_ok.mp h
  have htokens : e.tokens = .ok tokens := htokens
  obtain ⟨hreplaced, hnone, -⟩ := showsCall_of_replaceCalls hreplace
  have hshows : e.ShowsStaging ↔ replaced = true := by
    rw [hreplaced]
    refine ⟨fun ⟨others, hothers, hcall⟩ => ?_, fun hcall => ⟨tokens, htokens, hcall⟩⟩
    rwa [← Except.ok.inj (hothers.symm.trans htokens)]
  rw [hshows]
  dsimp only at h
  split at h
  · next hyes =>
    obtain ⟨image, himage, hreturn⟩ := Evaluation.result_bind_eq_ok.mp h
    obtain rfl := Except.ok.inj hreturn
    refine ⟨⟨nofun, fun hno => absurd hyes hno⟩, ?_⟩
    rintro value ⟨⟩ inner hinner hstages
    obtain rfl := eq_of_mem_valueOf hinner
    exact hnone (Expression.showsCall_of_ofTokens himage hstages)
  · next hno =>
    obtain rfl := Except.ok.inj h
    exact ⟨⟨fun _ => hno, fun _ => rfl⟩, nofun⟩

/-- The staging calls that remain in a value are those that the texts of their expressions hide. -/
theorem mem_expressions_of_stageValue {value image : Value}
    (h : (stageValue bindings value).result = .ok image) (hstages : e.Stages) :
    e ∈ image.expressions ↔ e ∈ value.expressions ∧ ¬ e.ShowsStaging := by
  have hholds := Value.imagesHold_of_mapExpressions value h
  constructor
  · intro he
    obtain ⟨original, horiginal, staged, hstaged, hmem⟩ := hholds.exists_original he
    obtain ⟨replaced, hreplaced, hreturn⟩ := Evaluation.result_bind_eq_ok.mp hstaged
    obtain rfl := Except.ok.inj hreturn
    obtain ⟨hnone, hsome⟩ := stages_of_stageExpression? hreplaced
    cases replaced with
    | some replacement => exact absurd hstages (hsome replacement rfl e hmem)
    | none =>
      obtain rfl := List.mem_singleton.mp hmem
      exact ⟨horiginal, hnone.mp rfl⟩
  · rintro ⟨he, hhidden⟩
    obtain ⟨staged, hstaged, hmem⟩ := hholds.exists_image he
    obtain ⟨replaced, hreplaced, hreturn⟩ := Evaluation.result_bind_eq_ok.mp hstaged
    obtain rfl := Except.ok.inj hreturn
    obtain rfl := (stages_of_stageExpression? hreplaced).1.mpr hhidden
    exact hmem e List.mem_cons_self

end Staging

end ClusterBlueprint
