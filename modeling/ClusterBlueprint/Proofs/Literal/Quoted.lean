import ClusterBlueprint.Proofs.Literal.Read
import ClusterBlueprint.Proofs.Literal.Shortest

/-!
Quoted texts between `$(` and its closing parenthesis.

A parenthesis inside a quoted text does not end the expression: up to there the text has no closing
quote, so that it is read on to the next parenthesis.
-/

namespace ClusterBlueprint

def Lexer.isPlain (c : Char) : Bool := c ≠ '"' && c ≠ '\\' && c ≠ '$'

def Lexer.openFault : Fault := Cause.expression "unterminated template string"

namespace Lexer

theorem scanLiteral_of_plain {cs : List Char} (h : cs.all isPlain) :
    scanLiteral cs = .error openFault := by
  fun_induction scanLiteral cs with
  | case1 => rfl
  | case5 => rfl
  | case8 c rest _ _ _ _ _ ih =>
    rw [List.all_cons, Bool.and_eq_true] at h
    rw [ih h.2]
    rfl
  | _ => simp [isPlain] at h

theorem scan_open {cs : List Char} (h : cs.all isPlain) :
    Token.scan (String.ofList ('"' :: cs)) = .error openFault := by
  have hquote : cs.take 1 ≠ ['"'] := fun heq =>
    absurd (List.all_eq_true.mp h '"' (List.mem_of_mem_take (heq ▸ List.mem_cons_self))) (by decide)
  have hopen : cs.take 2 ≠ ['$', '{'] := fun heq =>
    absurd (List.all_eq_true.mp h '$' (List.mem_of_mem_take (heq ▸ List.mem_cons_self))) (by decide)
  have hstep : templateStep (.source 0) cs = .error openFault := by
    unfold templateStep
    rw [dif_neg hquote, dif_neg hopen]
    split
    · next heq =>
      rw [scanLiteral_of_plain h] at heq
      rw [Except.error.inj heq]
    · next heq =>
      rw [scanLiteral_of_plain h] at heq
      exact absurd heq (by simp)
  have hadvance : advance (.template (.source 0)) cs = .error openFault := by
    show ((templateStep (.source 0) cs).map some).map _ = _
    rw [hstep]
    rfl
  rw [Token.scan, String.toList_ofList, scanFrom_of_advance (advance_openQuote rfl cs), scanFrom_eq,
    hadvance]
  rfl

end Lexer

namespace Literal

open Lexer

theorem isDottedPath_quoted (cs : List Char) :
    isDottedPath (Text.trimWhiteSpace ('"' :: cs)) = false := by
  obtain ⟨more, hmore⟩ : ∃ more, Text.trimWhiteSpace ('"' :: cs) = '"' :: more := by
    unfold Text.trimWhiteSpace
    rw [List.dropWhile_cons_of_neg (by decide), List.reverse_cons, List.dropWhile_append]
    split
    · exact ⟨[], rfl⟩
    · rw [List.reverse_append]
      exact ⟨_, rfl⟩
  rw [hmore, isDottedPath, Text.splitChars, if_neg (by decide)]
  split <;> rfl

/-- A quoted text is read as it is. -/
theorem readBody_ofString {text : String} (hne : text ≠ "") :
    readBody (Term.ofString text).text.toList = .ok ⟨.ofString text⟩ := by
  have hcanonical : (Term.ofString text).Canonical := ⟨hne, trivial, trivial⟩
  have hreferences : (⟨.ofString text⟩ : Expression).IsWellReferenced := by
    intro root steps hmem
    simp [Term.ofString, Term.nodes, Term.partsNodes] at hmem
  have hread := Expression.parse_text_eq_ok.mpr ⟨hcanonical, hreferences⟩
  have htokens : Term.ofTokens (Term.ofString text).tokens = .ok (.ofString text) :=
    Term.ofTokens_tokens hcanonical
  have hdotted : isDottedPath (Text.trimWhiteSpace (Term.ofString text).text.toList) = false := by
    rw [Term.ofString, Term.toList_text_template]
    exact isDottedPath_quoted _
  unfold readBody
  dsimp only
  rw [hdotted, String.ofList_toList, Term.scan_text hcanonical]
  exact Checked.bind_eq_ok.mpr ⟨_, rfl, Checked.bind_eq_ok.mpr ⟨_, htokens,
    Checked.bind_eq_ok.mpr ⟨(), rfl, hread⟩⟩⟩

theorem readBody_open {cs : List Char} (h : cs.all isPlain) :
    readBody ('"' :: cs) = .error openFault := by
  unfold readBody
  dsimp only
  rw [isDottedPath_quoted, scan_open h]
  rfl

/-- A quoted text is read to its end, although there is a parenthesis in it. -/
theorem shortestExpression_quoted {text : String} {opened closed : List Char} (hne : text ≠ "")
    (htext : (Term.ofString text).text.toList = '"' :: opened ++ ')' :: closed)
    (hplain : opened.all isPlain) (hopened : ')' ∉ opened) (hclosed : ')' ∉ closed)
    (rest : List Char) :
    shortestExpression ((Term.ofString text).text.toList ++ ')' :: rest)
      = .ok (⟨.ofString text⟩, rest) := by
  have hquoted := readBody_ofString hne
  rw [htext] at hquoted ⊢
  have hfree : ')' ∉ '"' :: opened := by simpa using hopened
  have hpassed : (('"' :: opened).reverse ++ []).reverse = '"' :: opened := by simp
  have hall : (closed.reverse ++ ')' :: (('"' :: opened).reverse ++ [])).reverse
      = '"' :: opened ++ ')' :: closed := by simp
  rw [shortestExpression, List.append_assoc, shortestFrom_append hfree, List.cons_append,
    shortestFrom, if_pos rfl, hpassed, readBody_open hplain]
  dsimp only
  rw [isDottedPath_quoted, if_neg Bool.false_ne_true, shortestFrom_append hclosed, shortestFrom,
    if_pos rfl, hall, hquoted]

end Literal

end ClusterBlueprint
