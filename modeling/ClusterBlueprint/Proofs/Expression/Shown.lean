import ClusterBlueprint.Proofs.Expression.Derivation
import Mathlib.Data.List.Infix

/-!
The tokens of a tree show its calls.

A call is read from its name and the opening parenthesis after it.  So a tree has no calls of a
function unless these two stand side by side in the tokens that it was read from.
-/

namespace ClusterBlueprint.Parser

/-- Whether a name stands before an opening parenthesis somewhere in some tokens. -/
def ShowsCall (name : String) (tokens : List Token) : Prop :=
  [.ident name, .openParen] <:+: tokens

theorem showsCall_cons {name : String} {token : Token} {tokens : List Token} :
    ShowsCall name (token :: tokens)
      ↔ (token = .ident name ∧ tokens.head? = some .openParen) ∨ ShowsCall name tokens := by
  unfold ShowsCall
  rw [List.infix_cons_iff, List.cons_prefix_cons]
  refine or_congr_left (and_congr eq_comm ?_)
  cases tokens with
  | nil => simp
  | cons next rest => simp [eq_comm]

/-- What is true of the nodes of what was read from the front of some tokens. -/
structure ReadShown (tokens : List Token) (nodes : List Term) (rest : List Token) : Prop where
  suffix : rest <:+ tokens
  shows : ∀ name args, .call name args ∈ nodes → ShowsCall name tokens

namespace ReadShown

variable {tokens middle rest : List Token} {nodes more : List Term} {token : Token} {t : Term}

theorem nil (tokens : List Token) : ReadShown tokens [] tokens :=
  ⟨List.suffix_rfl, fun _ _ h => absurd h List.not_mem_nil⟩

theorem append (h : ReadShown tokens nodes middle) (hmore : ReadShown middle more rest) :
    ReadShown tokens (nodes ++ more) rest where
  suffix := hmore.suffix.trans h.suffix
  shows name args hmem := (List.mem_append.mp hmem).elim (h.shows name args)
    fun hmem => (hmore.shows name args hmem).trans h.suffix.isInfix

/-- A token before those that were read. -/
theorem cons (token : Token) (h : ReadShown tokens nodes rest) :
    ReadShown (token :: tokens) nodes rest where
  suffix := h.suffix.trans (List.suffix_cons token tokens)
  shows name args hmem := (h.shows name args hmem).trans (List.suffix_cons token tokens).isInfix

/-- A token after those that were read. -/
theorem tail (h : ReadShown tokens nodes (token :: rest)) : ReadShown tokens nodes rest :=
  ⟨(List.suffix_cons token rest).trans h.suffix, h.shows⟩

/-- A node above those that were read. -/
theorem node (h : ReadShown tokens nodes rest)
    (ht : ∀ name args, t = .call name args → ShowsCall name tokens) :
    ReadShown tokens (t :: nodes) rest where
  suffix := h.suffix
  shows name args hmem := (List.mem_cons.mp hmem).elim (fun heq => ht name args heq.symm)
    (h.shows name args)

end ReadShown

mutual

theorem ReadsExpression.shown {tokens rest : List Token} {t : Term} :
    ReadsExpression tokens t rest → ReadShown tokens t.nodes rest
  | .plain hread _ => hread.shown
  | .conditional hcondition hyes hno =>
    ((hcondition.shown.tail.append hyes.shown.tail).append hno.shown).node (by simp)

theorem ReadsBinary.shown {least : Nat} {tokens rest : List Token} {t : Term} :
    ReadsBinary least tokens t rest → ReadShown tokens t.nodes rest
  | .operand hleft hmore => hmore.shown hleft.shown

/-- The left operand was read before the tokens at hand, so what shows it are the tokens from its
start. -/
theorem ReadsOperators.shown {least : Nat} {left t : Term} {tokens rest : List Token} :
    ReadsOperators least left tokens t rest → ∀ {whole : List Token},
      ReadShown whole left.nodes tokens → ReadShown whole t.nodes rest
  | .done _, _, hleft => hleft
  | .operator _ hright hmore, _, hleft =>
    hmore.shown ((hleft.tail.append hright.shown).node (by simp))

theorem ReadsUnary.shown {tokens rest : List Token} {t : Term} :
    ReadsUnary tokens t rest → ReadShown tokens t.nodes rest
  | .sign _ hread => (hread.shown.cons _).node (by simp)
  | .traversal _ _ hsteps => (hsteps.shown.cons _).node (by simp)
  | .value hread _ => hread.shown
  | .relative hread hsteps => (hread.shown.append hsteps.shown).node (by simp)

/-- A call is the one node that its own tokens have to show. -/
theorem ReadsPrimary.shown {tokens rest : List Token} {t : Term} :
    ReadsPrimary tokens t rest → ReadShown tokens t.nodes rest
  | .number .. | .bool .. | .null _ => ((ReadShown.nil _).cons _).node (by simp)
  | .call _ hargs => by
    refine ((hargs.shown.cons _).cons _).node ?_
    rintro _ _ ⟨⟩
    exact showsCall_cons.mpr (.inl ⟨rfl, rfl⟩)
  | .template hparts => (hparts.shown.cons _).node (by simp)
  | .parens hinner => (hinner.shown.tail.cons _).node (by simp)
  | .tuple hitems => (hitems.shown.cons _).node (by simp)
  | .object hentries => (hentries.shown.cons _).node (by simp)

theorem ReadsSteps.shown {tokens rest : List Token} {list : List Step} :
    ReadsSteps tokens list rest → ReadShown tokens (Term.stepsNodes list) rest
  | .done .. => .nil _
  | .member hsteps => (hsteps.shown.cons _).cons _
  | .position hsteps => ((hsteps.shown.cons _).cons _).node (by simp)
  | .index hindex hsteps => (hindex.shown.tail.append hsteps.shown).cons _

theorem ReadsItems.shown {close : Token} {tokens rest : List Token} {list : List Term} :
    ReadsItems close tokens list rest → ReadShown tokens (Term.listNodes list) rest
  | .done .. => (ReadShown.nil _).cons _
  | .last _ _ hread => hread.shown.tail.append (.nil _)
  | .more _ hread hmore => hread.shown.tail.append hmore.shown

theorem ReadsTemplate.shown {tokens rest : List Token} {parts : List Part} :
    ReadsTemplate tokens parts rest → ReadShown tokens (Term.partsNodes parts) rest
  | .done _ => (ReadShown.nil _).cons _
  | .literal hparts => hparts.shown.cons _
  | .interpolation hread hparts => (hread.shown.tail.append hparts.shown).cons _

theorem ReadsEntries.shown {tokens rest : List Token} {entries : List Item} :
    ReadsEntries tokens entries rest → ReadShown tokens (Term.itemsNodes entries) rest
  | .done _ => (ReadShown.nil _).cons _
  | .named _ hvalue hmore => ((hvalue.shown.append hmore.shown).cons _).cons _
  | .computed _ _ hkey _ hvalue hmore =>
    (hkey.shown.tail.append hvalue.shown).append hmore.shown

theorem ReadsFurther.shown {tokens rest : List Token} {entries : List Item} :
    ReadsFurther tokens entries rest → ReadShown tokens (Term.itemsNodes entries) rest
  | .done _ => (ReadShown.nil _).cons _
  | .comma hentries => hentries.shown.cons _

end

end ClusterBlueprint.Parser

namespace ClusterBlueprint.Term

/-- Each call in a tree shows in the tokens that the tree was read from. -/
theorem showsCall_of_ofTokens {tokens : List Token} {t : Term} {name : String} {args : List Term}
    (h : ofTokens tokens = .ok t) (hcall : .call name args ∈ t.nodes) :
    Parser.ShowsCall name tokens :=
  (Parser.ofTokens_eq_ok.mp h).shown.shows name args hcall

end ClusterBlueprint.Term
