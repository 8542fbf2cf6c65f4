import ClusterBlueprint.Proofs.Expression.Spelled
import ClusterBlueprint.Proofs.Literal.Faithful
import ClusterBlueprint.Proofs.Literal.Read
import ClusterBlueprint.Proofs.Staging.Remaining

/-!
Expressions that staging brings no reference into.

Staging sees the text of an expression only.  That text is faithful if the expression was read from
a text in which no dollar stands open, or is a call with values whose expressions are such.  Where
the text shows no staging call at all, staging leaves the expression alone, whatever else the text
says.
-/

namespace ClusterBlueprint

namespace Expression

/-- An expression that was read from a text, or a call that was put together from values with such
expressions. -/
inductive IsLegible : Expression → Prop where
  | written {e : Expression} (h : e.term.IsWritten) : IsLegible e
  | call {name : String} {args : List Value} (hname : Lexer.isName name)
    (hargs : ∀ value ∈ args, ∀ e ∈ value.expressions, IsLegible e) :
    IsLegible (Value.callOf name args)

end Expression

/-! ## Values -/

namespace Value

open Term

theorem isFaithfulItem_itemOf (name : String) {t : Term} (h : t.IsFaithful) :
    IsFaithfulItem (itemOf name t) := by
  unfold itemOf
  split
  · exact ⟨⟨name, rfl⟩, h⟩
  · next first rest heq =>
    split
    · next hname =>
      refine ⟨?_, h⟩
      rw [Lexer.isIdentifier, heq]
      exact (Bool.and_eq_true_iff.mp hname).1
    · exact ⟨⟨name, rfl⟩, h⟩

mutual

/-- The tree of a value is faithful if the trees of its expressions are. -/
theorem isFaithful_toTerm : ∀ value : Value, (∀ e ∈ value.expressions, e.term.IsFaithful) →
    value.toTerm.IsFaithful
  | .null, _ => (StandsFor.refl (t := .null) trivial).isFaithful
  | .bool value, _ => (StandsFor.refl (t := .bool value) trivial).isFaithful
  | .number value, _ => isFaithful_number value
  | .string text, _ => isFaithful_ofString text
  | .list items, h => isFaithful_tuple (isFaithful_listTerms items (by rwa [expressions_list] at h))
  | .object fields, h =>
    isFaithful_object (isFaithful_fieldItems fields (by rwa [expressions_object] at h))
  | .expression e, h => h e List.mem_cons_self
termination_by structural value => value

theorem isFaithful_listTerms : ∀ items : List Value,
    (∀ e ∈ items.flatMap expressions, e.term.IsFaithful) → ∀ t ∈ listTerms items, t.IsFaithful
  | [], _ => List.forall_mem_nil _
  | item :: items, h => by
    rw [List.flatMap_cons, List.forall_mem_append] at h
    exact List.forall_mem_cons.mpr ⟨isFaithful_toTerm item h.1, isFaithful_listTerms items h.2⟩
termination_by structural items => items

theorem isFaithful_fieldItems : ∀ fields : List (String × Value),
    (∀ e ∈ fields.flatMap fun field => field.2.expressions, e.term.IsFaithful) →
      ∀ item ∈ fieldItems fields, IsFaithfulItem item
  | [], _ => List.forall_mem_nil _
  | (name, value) :: fields, h => by
    rw [List.flatMap_cons, List.forall_mem_append] at h
    exact List.forall_mem_cons.mpr
      ⟨isFaithfulItem_itemOf name (isFaithful_toTerm value h.1), isFaithful_fieldItems fields h.2⟩
termination_by structural fields => fields

end

end Value

/-! ## Expressions -/

namespace Expression

variable {e : Expression}

theorem IsLegible.isFaithful (h : e.IsLegible) : e.term.IsFaithful := by
  induction h with
  | written hwritten => exact hwritten.isFaithful
  | call hname _ ih =>
    refine Term.isFaithful_call hname (Value.isFaithful_listTerms _ fun e he => ?_)
    obtain ⟨value, hvalue, he⟩ := List.mem_flatMap.mp he
    exact ih value hvalue e he

/-- Staging brings no reference into the expression. -/
def KeepsReferences (e : Expression) : Prop :=
  ∀ bindings value, (Staging.stageExpression? bindings e).result = .ok (some value) →
    value.references ⊆ e.references

theorem IsLegible.keepsReferences (h : e.IsLegible) : e.KeepsReferences := by
  intro bindings value hstaged reference href
  obtain ⟨tokens, hscan, -⟩ := Evaluation.result_bind_eq_ok.mp hstaged
  have hscan : Lexer.scanFrom (.source 0) (e.term.text.toList ++ []) = .ok tokens := by
    rw [List.append_nil]
    exact hscan
  obtain ⟨t, ht⟩ := h.isFaithful rfl Lexer.ends_nil hscan
  have hmem := Staging.mem_references_of_stageExpression? ht.canonical ht.text hstaged href
  rw [references_eq] at hmem ⊢
  exact ht.references hmem

theorem keepsReferences_of_not_showsStaging (h : ¬ e.ShowsStaging) : e.KeepsReferences := by
  intro bindings value hstaged
  exact absurd ((Staging.stages_of_stageExpression? hstaged).1.mpr h) (Option.some_ne_none value)

end Expression

/-! ## Names in expressions -/

namespace Staging

open Lexer (SpellsCall)

def Spelled (text : String) : Prop := SpellsCall Function.stageName text.toList

variable {id name : String} {a b : Expression}

theorem spelled_of_showsStaging {e : Expression} (h : e.ShowsStaging) : Spelled e.text := by
  obtain ⟨tokens, hscan, hshows⟩ := h
  exact (Lexer.scans_of_scanFrom hscan).spellsCall hshows

/-- A staging call is spelled on one side of a mark that it does not hold. -/
theorem spelled_append_cons {xs ys : List Char} {mark : Char}
    (hmark : mark ∉ Function.stageName.toList ∧ ¬ Lexer.isBlank mark ∧ mark ≠ '(')
    (h : SpellsCall Function.stageName (xs ++ mark :: ys)) :
    SpellsCall Function.stageName xs ∨ SpellsCall Function.stageName ys :=
  h.of_append_cons hmark.1 hmark.2.1 hmark.2.2

theorem not_spelled_of_length {text : List Char} (h : text.length ≤ 10) :
    ¬ SpellsCall Function.stageName text := fun hspelled =>
  absurd hspelled.length_lt (Nat.not_lt_of_le h)

theorem spelled_ofReference_global (h : Spelled (Expression.ofReference (.global name)).text) :
    Spelled name := by
  have htext : (Expression.ofReference (.global name)).text.toList
      = "var".toList ++ '.' :: name.toList := by
    simp [Expression.text, Expression.ofReference, Reference.toTerm, Reference.globalRoot,
      Term.ofNames, Term.text, Term.stepsText]
  rw [Spelled, htext] at h
  exact (spelled_append_cons (by decide) h).resolve_left (not_spelled_of_length (by decide))

theorem spelled_ofReference_output
    (h : Spelled (Expression.ofReference (.ofModule id name)).text) :
    Spelled id ∨ Spelled name := by
  have htext : (Expression.ofReference (.ofModule id name)).text.toList
      = "module".toList ++ '.' :: (id.toList ++ '.' :: name.toList) := by
    simp [Expression.text, Expression.ofReference, Reference.ofModule, Reference.toTerm,
      Reference.moduleRoot, Term.ofNames, Term.text, Term.stepsText]
  rw [Spelled, htext] at h
  have hnames :=
    (spelled_append_cons (by decide) h).resolve_left (not_spelled_of_length (by decide))
  exact spelled_append_cons (by decide) hnames

theorem spelled_flatten
    (h : Spelled (Value.callOf "flatten" [.list [.expression a, .expression b]]).text) :
    Spelled a.text ∨ Spelled b.text := by
  have htext : (Value.callOf "flatten" [.list [.expression a, .expression b]]).text.toList
      = "flatten(".toList
        ++ '[' :: (a.text.toList ++ ',' :: ((' ' :: b.text.toList) ++ ']' :: [')'])) := by
    simp [Expression.text, Value.callOf, Value.listTerms, Value.toTerm, Term.text, Term.listText]
  rw [Spelled, htext] at h
  have hitems :=
    (spelled_append_cons (by decide) h).resolve_left (not_spelled_of_length (by decide))
  refine (spelled_append_cons (by decide) hitems).imp_right fun hlast => ?_
  have hblank :=
    (spelled_append_cons (by decide) hlast).resolve_right (not_spelled_of_length (by decide))
  exact hblank.of_cons rfl (by decide)

end Staging

/-- What a value with staged expressions refers to, the value referred to before. -/
theorem Staging.references_stageValue_subset {bindings : SortedMap Value} {value image : Value}
    (hkeeps : ∀ e ∈ value.expressions, e.KeepsReferences)
    (h : (stageValue bindings value).result = .ok image) : image.references ⊆ value.references := by
  intro reference href
  obtain ⟨inner, hinner, href⟩ := List.mem_flatMap.mp href
  obtain ⟨e, he, staged, hstaged, hmem⟩ :=
    (Value.imagesHold_of_mapExpressions value h).exists_original hinner
  obtain ⟨replaced, hreplaced, hreturn⟩ := Evaluation.result_bind_eq_ok.mp hstaged
  obtain rfl := Except.ok.inj hreturn
  refine List.mem_flatMap.mpr ⟨e, he, ?_⟩
  cases replaced with
  | none =>
    obtain rfl := List.mem_singleton.mp hmem
    exact href
  | some staged =>
    exact hkeeps e he bindings staged hreplaced (List.mem_flatMap.mpr ⟨inner, hmem, href⟩)

end ClusterBlueprint
