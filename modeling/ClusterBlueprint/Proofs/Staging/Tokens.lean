import ClusterBlueprint.Proofs.Evaluation.Yields
import ClusterBlueprint.Proofs.Expression.Reread
import ClusterBlueprint.Proofs.Staging.Splice

/-!
Replacing staging calls among tokens is replacing them in the tree.

The parentheses of a tree's tokens are balanced, so the parenthesis that closes a call is found
where the call ends.  An identifier that is followed by an opening parenthesis is the name of a
call, since nothing that follows a tree starts with one; so exactly the calls are replaced.
-/

namespace ClusterBlueprint

namespace Staging

/-! ## Balanced parentheses -/

/-- A search for a closing parenthesis passes over the tokens. -/
def Balanced (tokens : List Token) : Prop :=
  ∀ depth rest, splitAtClosing (depth + 1) (tokens ++ rest)
    = (splitAtClosing (depth + 1) rest).map fun (inside, after) => (tokens ++ inside, after)

def isParen : Token → Bool
  | .openParen | .closeParen => true
  | _ => false

theorem splitAtClosing_of_not_isParen {token : Token} (h : isParen token = false) (depth : Nat)
    (rest : List Token) :
    splitAtClosing depth (token :: rest)
      = (splitAtClosing depth rest).map fun (inside, after) => (token :: inside, after) := by
  cases token <;> first | rfl | exact absurd h nofun

namespace Balanced

variable {token : Token} {tokens more : List Token}

theorem nil : Balanced [] := fun depth rest => by
  rw [List.nil_append]
  exact (Option.map_id' ..).symm

theorem append (h : Balanced tokens) (hmore : Balanced more) : Balanced (tokens ++ more) := by
  intro depth rest
  rw [List.append_assoc, h, hmore, Option.map_map]
  simp only [Function.comp_def, List.append_assoc]

theorem cons (htoken : isParen token = false) (h : Balanced tokens) :
    Balanced (token :: tokens) := by
  intro depth rest
  rw [List.cons_append, splitAtClosing_of_not_isParen htoken, h, Option.map_map]
  rfl

theorem single (htoken : isParen token = false) : Balanced [token] := .cons htoken .nil

theorem enclosed (h : Balanced tokens) : Balanced (.openParen :: (tokens ++ [.closeParen])) := by
  intro depth rest
  show (splitAtClosing (depth + 2) (tokens ++ [.closeParen] ++ rest)).map _ = _
  rw [List.append_assoc, h, Option.map_map]
  show ((splitAtClosing (depth + 1) rest).map _).map _ = _
  rw [Option.map_map]
  simp only [Function.comp_def, List.cons_append, List.append_assoc, List.nil_append]

/-- The parenthesis that closes the one just opened. -/
theorem splitAtClosing_enclosed (h : Balanced tokens) (rest : List Token) :
    splitAtClosing 0 (.openParen :: (tokens ++ .closeParen :: rest))
      = some (.openParen :: (tokens ++ [.closeParen]), rest) := by
  show (splitAtClosing 1 (tokens ++ .closeParen :: rest)).map _ = _
  rw [h]
  rfl

end Balanced

end Staging

open Staging

namespace Term

mutual

theorem balanced_tokens : ∀ t : Term, Balanced t.tokens
  | .null | .bool _ | .number _ => .single rfl
  | .template parts => .cons rfl ((balanced_partsTokens parts).append (.single rfl))
  | .traversal _ steps => .cons rfl (balanced_stepsTokens steps)
  | .relative source steps => (balanced_tokens source).append (balanced_stepsTokens steps)
  | .call _ args => .cons rfl (balanced_listTokens args).enclosed
  | .tuple items => .cons rfl ((balanced_listTokens items).append (.single rfl))
  | .object items => .cons rfl ((balanced_itemsTokens items).append (.single rfl))
  | .unary .neg operand | .unary .not operand => .cons rfl (balanced_tokens operand)
  | .binary _ left right => (balanced_tokens left).append (.cons rfl (balanced_tokens right))
  | .conditional condition yes no =>
    (balanced_tokens condition).append
      (.cons rfl ((balanced_tokens yes).append (.cons rfl (balanced_tokens no))))
  | .parens inner => (balanced_tokens inner).enclosed
termination_by structural t => t

theorem balanced_partsTokens : ∀ parts : List Part, Balanced (partsTokens parts)
  | [] => .nil
  | .literal _ :: parts => .cons rfl (balanced_partsTokens parts)
  | .interpolation t :: parts =>
    .cons rfl ((balanced_tokens t).append (.cons rfl (balanced_partsTokens parts)))
termination_by structural t => t

theorem balanced_stepsTokens : ∀ steps : List Step, Balanced (stepsTokens steps)
  | [] => .nil
  | .attribute _ :: steps => .cons rfl (.cons rfl (balanced_stepsTokens steps))
  | .index t :: steps =>
    .cons rfl ((balanced_tokens t).append (.cons rfl (balanced_stepsTokens steps)))
termination_by structural t => t

theorem balanced_listTokens : ∀ items : List Term, Balanced (listTokens items)
  | [] => .nil
  | [t] => balanced_tokens t
  | t :: next :: items =>
    (balanced_tokens t).append (.cons rfl (balanced_listTokens (next :: items)))
termination_by structural t => t

theorem balanced_itemsTokens : ∀ items : List Item, Balanced (itemsTokens items)
  | [] => .nil
  | [.named _ value] => .cons rfl (.cons rfl (balanced_tokens value))
  | [.computed key value] => (balanced_tokens key).append (.cons rfl (balanced_tokens value))
  | .named _ value :: next :: items =>
    .cons rfl (.cons rfl ((balanced_tokens value).append
      (.cons rfl (balanced_itemsTokens (next :: items)))))
  | .computed key value :: next :: items =>
    (balanced_tokens key).append (.cons rfl ((balanced_tokens value).append
      (.cons rfl (balanced_itemsTokens (next :: items)))))
termination_by structural t => t

end

end Term

/-! ## The destination of a call -/

namespace Staging

variable {bindings : SortedMap Value} {call : Term} {destination : String}

def AreReferences (nodes : List Term) : Prop :=
  ∀ root steps, .traversal root steps ∈ nodes →
    ∃ reference, Reference.ofTraversal root steps = .ok reference

/-- A staging call that can be replaced: it refers to global variables only, and its value is a
text. -/
def HasDestination (bindings : SortedMap Value) (call : Term) (destination : String) : Prop :=
  (∀ reference ∈ (⟨call⟩ : Expression).references, reference.isGlobal)
    ∧ (call.eval bindings).result = .ok (.string destination)

/-- The text that a call evaluates to, if it evaluates to one. -/
def destinationOf (bindings : SortedMap Value) (call : Term) : String :=
  match (call.eval bindings).result with
  | .ok (.string destination) => destination
  | _ => ""

theorem HasDestination.destinationOf_eq (h : HasDestination bindings call destination) :
    destinationOf bindings call = destination := by
  rw [destinationOf, h.2]

theorem result_callDestination (hcanonical : call.Canonical) :
    (callDestination bindings call.tokens).result = .ok destination
      ↔ AreReferences call.nodes ∧ HasDestination bindings call destination := by
  have hterm := Term.ofTokens_tokens hcanonical
  have hread : Expression.ofTokens call.tokens = .ok ⟨call⟩ ↔ AreReferences call.nodes :=
    Expression.ofTokens_eq_ok.trans (and_iff_right hterm)
  rw [callDestination, Evaluation.result_bind_eq_ok]
  constructor
  · rintro ⟨e, he, hdestination⟩
    obtain rfl : e = ⟨call⟩ := by
      have hsame := (Expression.ofTokens_eq_ok.mp he).1
      rw [hterm] at hsame
      exact (congrArg Expression.mk (Except.ok.inj hsame)).symm
    refine ⟨hread.mp he, ?_⟩
    split at hdestination
    · exact absurd hdestination nofun
    · next hall =>
      obtain ⟨value, heval, hvalue⟩ := Evaluation.result_bind_eq_ok.mp hdestination
      cases value with
      | string text =>
        exact ⟨by simpa using hall, heval.trans (congrArg _ (congrArg _ (Except.ok.inj hvalue)))⟩
      | _ => exact absurd hvalue nofun
  · rintro ⟨hreferences, hglobal, heval⟩
    refine ⟨⟨call⟩, hread.mpr hreferences, ?_⟩
    have hall : (⟨call⟩ : Expression).references.any (!·.isGlobal) = false := by
      simpa using hglobal
    rw [hall]
    exact Evaluation.result_bind_eq_ok.mpr ⟨_, heval, rfl⟩

theorem destination_ne_empty (source : String) : StagedFiles.destination source ≠ "" := by
  intro h
  have hlist := congrArg String.toList h
  simp [StagedFiles.destination, StagedFiles.directory] at hlist

/-- What a staging call evaluates to is the destination of some source. -/
theorem HasDestination.ne_empty (hcall : call.isStaging)
    (h : HasDestination bindings call destination) : destination ≠ "" := by
  cases call with
  | call name args =>
    obtain rfl : name = Function.stageName := of_decide_eq_true hcall
    obtain ⟨values, -, happly⟩ := Evaluation.result_bind_eq_ok.mp h.2
    have hstage : (Function.stageFile values).result = .ok (.string destination) := happly
    unfold Function.stageFile at hstage
    split at hstage
    · next source =>
      obtain rfl := Value.string.inj (Except.ok.inj hstage)
      exact destination_ne_empty source
    · exact absurd hstage nofun
    · exact absurd hstage nofun
  | _ => exact absurd hcall Bool.false_ne_true

/-! ## Tokens with their calls replaced -/

/-- A fault unless a call can be replaced. -/
def checkCall (bindings : SortedMap Value) (call : Term) : Evaluation Unit :=
  discard (callDestination bindings call.tokens)

def opens : List Token → Bool
  | .openParen :: _ => true
  | _ => false

def isIdent : Token → Bool
  | .ident _ => true
  | _ => false

/-- Replacing the calls among some tokens evaluates these calls, and gives the spliced tokens. -/
def Replaces (bindings : SortedMap Value) (tokens : List Token) (calls : List Term)
    (spliced : List Token) : Prop :=
  ∀ rest, opens rest = false →
    replaceCalls bindings (tokens ++ rest) = calls.forM (checkCall bindings) >>= fun _ =>
      replaceCalls bindings rest >>= fun (more, replaced) =>
        pure (spliced ++ more, !calls.isEmpty || replaced)

/-- Tokens that start with no call go on as they are. -/
theorem replaceCalls_cons {token : Token} {rest : List Token}
    (h : token = .ident Function.stageName → opens rest = false) :
    replaceCalls bindings (token :: rest)
      = replaceCalls bindings rest >>= fun (more, replaced) => pure (token :: more, replaced) := by
  have hnot : ¬ (decide (token = .ident Function.stageName)
      && decide (rest.head? = some .openParen)) := by
    intro hboth
    obtain ⟨hname, hopen⟩ := Bool.and_eq_true_iff.mp hboth
    obtain rfl := of_decide_eq_true hname
    obtain ⟨more, rfl⟩ := List.head?_eq_some_iff.mp (of_decide_eq_true hopen)
    exact absurd (h rfl) nofun
  rw [replaceCalls, if_neg hnot]

theorem opens_append {tokens rest : List Token} (h : opens tokens = false)
    (hrest : opens rest = false) : opens (tokens ++ rest) = false := by
  cases tokens with
  | nil => exact hrest
  | cons token tokens => cases token <;> first | rfl | exact absurd h nofun

namespace Replaces

variable {tokens more spliced others : List Token} {calls remaining : List Term} {token : Token}

theorem nil : Replaces bindings [] [] [] := fun rest _ => by
  show replaceCalls bindings rest = pure () >>= fun _ => replaceCalls bindings rest >>= _
  rw [pure_bind]
  exact (bind_pure _).symm

theorem append (h : Replaces bindings tokens calls spliced)
    (hmore : Replaces bindings more remaining others) (hopens : opens more = false) :
    Replaces bindings (tokens ++ more) (calls ++ remaining) (spliced ++ others) := by
  intro rest hrest
  have hcalls : (calls ++ remaining).forM (checkCall bindings)
      = calls.forM (checkCall bindings) >>= fun _ => remaining.forM (checkCall bindings) :=
    List.forM_append
  have hany (replaced : Bool) : (!calls.isEmpty || (!remaining.isEmpty || replaced))
      = (!(calls ++ remaining).isEmpty || replaced) := by
    cases calls <;> cases remaining <;> rfl
  rw [List.append_assoc, h _ (opens_append hopens hrest), hmore _ hrest, hcalls]
  simp only [bind_assoc, pure_bind, List.append_assoc, hany]

theorem cons_of_ne (htoken : token ≠ .ident Function.stageName)
    (h : Replaces bindings tokens calls spliced) :
    Replaces bindings (token :: tokens) calls (token :: spliced) := by
  intro rest hrest
  rw [List.cons_append, replaceCalls_cons fun heq => absurd heq htoken, h _ hrest]
  simp only [bind_assoc, pure_bind, List.cons_append]

theorem cons (htoken : isIdent token = false) (h : Replaces bindings tokens calls spliced) :
    Replaces bindings (token :: tokens) calls (token :: spliced) := by
  refine h.cons_of_ne ?_
  rintro rfl
  exact absurd htoken nofun

theorem ident (name : String) (h : Replaces bindings tokens calls spliced)
    (hopens : opens tokens = false) :
    Replaces bindings (.ident name :: tokens) calls (.ident name :: spliced) := by
  intro rest hrest
  rw [List.cons_append, replaceCalls_cons fun _ => opens_append hopens hrest, h _ hrest]
  simp only [bind_assoc, pure_bind, List.cons_append]

/-- Tokens up to one that closes them. -/
theorem closed (h : Replaces bindings tokens calls spliced) (htoken : isIdent token = false)
    (hopens : opens [token] = false) :
    Replaces bindings (tokens ++ [token]) calls (spliced ++ [token]) := by
  have hclosed := h.append (.cons htoken .nil) hopens
  rwa [List.append_nil] at hclosed

end Replaces

/-- A call is replaced by the text that it evaluates to. -/
theorem replaces_call {args : List Term}
    (hcanonical : (Term.call Function.stageName args).Canonical) :
    Replaces bindings (Term.call Function.stageName args).tokens [.call Function.stageName args]
      (Term.ofString (destinationOf bindings (.call Function.stageName args))).tokens := by
  intro rest hrest
  have htokens : (Term.call Function.stageName args).tokens ++ rest
      = .ident Function.stageName :: .openParen ::
          (Term.listTokens args ++ .closeParen :: rest) := by
    simp [Term.tokens]
  have hclosing := (Term.balanced_listTokens args).splitAtClosing_enclosed rest
  have hreplace : replaceCalls bindings ((Term.call Function.stageName args).tokens ++ rest)
      = callDestination bindings (Term.call Function.stageName args).tokens >>= fun destination =>
        replaceCalls bindings rest >>= fun (more, _) =>
          pure (textTokens destination ++ more, true) := by
    rw [htokens, replaceCalls, if_pos (by simp)]
    split
    · next hnone => exact absurd (hclosing.symm.trans hnone) (Option.some_ne_none _)
    · next inside after hsome =>
      obtain ⟨rfl, rfl⟩ := Prod.mk.inj (Option.some.inj (hclosing.symm.trans hsome))
      rfl
  have hfirst : [Term.call Function.stageName args].forM (checkCall bindings)
      = checkCall bindings (.call Function.stageName args) >>= fun _ => pure () := rfl
  rw [hreplace, hfirst, bind_assoc]
  simp only [pure_bind]
  refine Evaluation.bind_eq_discard_bind fun destination hdestination => ?_
  have hhas := ((result_callDestination hcanonical).mp hdestination).2
  have hne := hhas.ne_empty (Term.isStaging_call args)
  have htext : textTokens destination = (Term.ofString destination).tokens := by
    simp [textTokens, hne, Term.ofString, Term.tokens, Term.partsTokens]
  rw [htext, ← hhas.destinationOf_eq]
  rfl

end Staging

namespace Term

variable {bindings : SortedMap Value}

theorem opens_stepsTokens (steps : List Step) : opens (stepsTokens steps) = false := by
  match steps with
  | [] | .attribute _ :: _ | .index _ :: _ => rfl

mutual

/-- Replacing the calls among the tokens of a tree gives the tokens of the spliced tree. -/
theorem replaces_tokens : ∀ t : Term, t.Canonical →
    Replaces bindings t.tokens t.stagingCalls (t.splice (destinationOf bindings)).tokens
  | .null, _ => .ident "null" .nil rfl
  | .bool value, _ => .ident _ .nil rfl
  | .number value, _ => .cons rfl .nil
  | .template parts, h => .cons rfl ((replaces_partsTokens parts h).closed rfl rfl)
  | .traversal root steps, h =>
    .ident root (replaces_stepsTokens steps h.2) (opens_stepsTokens steps)
  | .relative source steps, h =>
    (replaces_tokens source h.2.2.1).append (replaces_stepsTokens steps h.2.2.2)
      (opens_stepsTokens steps)
  | .call name args, h => by
    by_cases hname : name = Function.stageName
    · subst hname
      have hcalls : (call Function.stageName args).stagingCalls = [call Function.stageName args] :=
        if_pos rfl
      rw [hcalls, splice_of_isStaging (isStaging_call args)]
      exact replaces_call h
    · have hcalls : (call name args).stagingCalls = listCalls args := if_neg hname
      have hsplice : (call name args).splice (destinationOf bindings)
          = call name (spliceList (destinationOf bindings) args) := if_neg hname
      have hne : Token.ident name ≠ .ident Function.stageName := mt Token.ident.inj hname
      rw [hcalls, hsplice]
      exact .cons_of_ne hne (.cons rfl ((replaces_listTokens args h.2).closed rfl rfl))
  | .tuple items, h => .cons rfl ((replaces_listTokens items h).closed rfl rfl)
  | .object items, h => .cons rfl ((replaces_itemsTokens items h).closed rfl rfl)
  | .unary .neg operand, h | .unary .not operand, h => .cons rfl (replaces_tokens operand h.2)
  | .binary op left right, h =>
    (replaces_tokens left h.2.2.1).append (.cons rfl (replaces_tokens right h.2.2.2)) rfl
  | .conditional condition yes no, h =>
    (replaces_tokens condition h.2.1).append
      (.cons rfl ((replaces_tokens yes h.2.2.1).append
        (.cons rfl (replaces_tokens no h.2.2.2)) rfl)) rfl
  | .parens inner, h => .cons rfl ((replaces_tokens inner h).closed rfl rfl)
termination_by structural t => t

theorem replaces_partsTokens : ∀ parts : List Part, CanonicalParts parts →
    Replaces bindings (partsTokens parts) (partsCalls parts)
      (partsTokens (spliceParts (destinationOf bindings) parts))
  | [], _ => .nil
  | .literal _ :: parts, h => .cons rfl (replaces_partsTokens parts h.2.2)
  | .interpolation t :: parts, h =>
    .cons rfl ((replaces_tokens t h.1).append (.cons rfl (replaces_partsTokens parts h.2)) rfl)
termination_by structural t => t

theorem replaces_stepsTokens : ∀ steps : List Step, CanonicalSteps steps →
    Replaces bindings (stepsTokens steps) (stepsCalls steps)
      (stepsTokens (spliceSteps (destinationOf bindings) steps))
  | [], _ => .nil
  | .attribute name :: steps, h =>
    .cons rfl (.ident name (replaces_stepsTokens steps h.2) (opens_stepsTokens steps))
  | .index t :: steps, h =>
    .cons rfl ((replaces_tokens t h.1).append (.cons rfl (replaces_stepsTokens steps h.2)) rfl)
termination_by structural t => t

theorem replaces_listTokens : ∀ items : List Term, CanonicalList items →
    Replaces bindings (listTokens items) (listCalls items)
      (listTokens (spliceList (destinationOf bindings) items))
  | [], _ => .nil
  | [t], h => by
    rw [listCalls, listCalls, List.append_nil]
    exact replaces_tokens t h.1
  | t :: next :: items, h =>
    (replaces_tokens t h.1).append (.cons rfl (replaces_listTokens (next :: items) h.2)) rfl
termination_by structural t => t

theorem replaces_itemsTokens : ∀ items : List Item, CanonicalItems items →
    Replaces bindings (itemsTokens items) (itemsCalls items)
      (itemsTokens (spliceItems (destinationOf bindings) items))
  | [], _ => .nil
  | [.named name value], h => by
    rw [itemsCalls, itemsCalls, List.append_nil]
    exact .ident name (.cons rfl (replaces_tokens value h.2.1)) rfl
  | [.computed key value], h => by
    rw [itemsCalls, itemsCalls, List.append_nil]
    exact (replaces_tokens key h.2.1).append (.cons rfl (replaces_tokens value h.2.2.1)) rfl
  | .named name value :: next :: items, h => by
    have hvalue := replaces_tokens value h.2.1
    have hrest := replaces_itemsTokens (next :: items) h.2.2
    cases next <;> exact .ident name (.cons rfl (hvalue.append (.cons rfl hrest) rfl)) rfl
  | .computed key value :: next :: items, h => by
    have hkey := replaces_tokens key h.2.1
    have hvalue := replaces_tokens value h.2.2.1
    have hrest := replaces_itemsTokens (next :: items) h.2.2.2
    cases next <;> exact hkey.append (.cons rfl (hvalue.append (.cons rfl hrest) rfl)) rfl
termination_by structural t => t

end

end Term

end ClusterBlueprint
