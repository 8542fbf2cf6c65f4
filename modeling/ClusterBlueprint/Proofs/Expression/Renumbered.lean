import ClusterBlueprint.Proofs.Expression.Derivation
import ClusterBlueprint.Proofs.Expression.Parsing

/-!
The parser does not look at numbers, and not beyond a closing token.

Replacing the numbers among the tokens replaces them in the tree, and changes nothing else.  So what
is known of trees without numbers that are too large also says something of trees with them.  A
closing token after the tokens is left with what follows it, so a tree may be put in parentheses.
-/

namespace ClusterBlueprint

namespace Token

def isNumber : Token → Bool
  | number _ => true
  | _ => false

/-- The token with its number replaced, if it is one. -/
def mapNumber (f : Number → Number) : Token → Token
  | number value => number (f value)
  | token => token

theorem mapNumber_of_isNumber_eq_false {token : Token} (f : Number → Number)
    (h : token.isNumber = false) : token.mapNumber f = token := by
  cases token <;> first | rfl | exact absurd h nofun

theorem mapNumber_id : mapNumber id = id := by
  funext token
  cases token <;> rfl

end Token

namespace Term

mutual

/-- The tree with every number replaced. -/
def mapNumbers (f : Number → Number) : Term → Term
  | null => null
  | bool value => bool value
  | number value => number (f value)
  | template parts => template (mapParts f parts)
  | traversal root steps => traversal root (mapSteps f steps)
  | relative source steps => relative (source.mapNumbers f) (mapSteps f steps)
  | call name args => call name (mapList f args)
  | tuple items => tuple (mapList f items)
  | object items => object (mapItems f items)
  | unary op operand => unary op (operand.mapNumbers f)
  | binary op left right => binary op (left.mapNumbers f) (right.mapNumbers f)
  | conditional condition yes no =>
    conditional (condition.mapNumbers f) (yes.mapNumbers f) (no.mapNumbers f)
  | parens inner => parens (inner.mapNumbers f)
termination_by structural t => t

def mapParts (f : Number → Number) : List Part → List Part
  | [] => []
  | .literal text :: rest => .literal text :: mapParts f rest
  | .interpolation term :: rest => .interpolation (term.mapNumbers f) :: mapParts f rest
termination_by structural t => t

def mapSteps (f : Number → Number) : List Step → List Step
  | [] => []
  | .attribute name :: rest => .attribute name :: mapSteps f rest
  | .index term :: rest => .index (term.mapNumbers f) :: mapSteps f rest
termination_by structural t => t

def mapList (f : Number → Number) : List Term → List Term
  | [] => []
  | term :: rest => term.mapNumbers f :: mapList f rest
termination_by structural t => t

def mapItems (f : Number → Number) : List Item → List Item
  | [] => []
  | .named name value :: rest => .named name (value.mapNumbers f) :: mapItems f rest
  | .computed key value :: rest =>
    .computed (key.mapNumbers f) (value.mapNumbers f) :: mapItems f rest
termination_by structural t => t

end

section Nodes

variable (f : Number → Number)

mutual

/-- The nodes of the tree are those of the original, with their numbers replaced. -/
theorem nodes_mapNumbers : ∀ t : Term, (t.mapNumbers f).nodes = t.nodes.map (mapNumbers f)
  | .null | .bool _ | .number _ => rfl
  | .template parts => congrArg (_ :: ·) (nodes_mapParts parts)
  | .traversal _ steps => congrArg (_ :: ·) (nodes_mapSteps steps)
  | .relative source steps => by
    simp [mapNumbers, nodes, nodes_mapNumbers source, nodes_mapSteps steps]
  | .call _ args => congrArg (_ :: ·) (nodes_mapList args)
  | .tuple items => congrArg (_ :: ·) (nodes_mapList items)
  | .object items => congrArg (_ :: ·) (nodes_mapItems items)
  | .unary _ operand => congrArg (_ :: ·) (nodes_mapNumbers operand)
  | .binary _ left right => by
    simp [mapNumbers, nodes, nodes_mapNumbers left, nodes_mapNumbers right]
  | .conditional condition yes no => by
    simp [mapNumbers, nodes, nodes_mapNumbers condition, nodes_mapNumbers yes, nodes_mapNumbers no]
  | .parens inner => congrArg (_ :: ·) (nodes_mapNumbers inner)
termination_by structural t => t

theorem nodes_mapParts : ∀ parts : List Part,
    partsNodes (mapParts f parts) = (partsNodes parts).map (mapNumbers f)
  | [] => rfl
  | .literal _ :: parts => nodes_mapParts parts
  | .interpolation t :: parts => by
    simp [mapParts, partsNodes, nodes_mapNumbers t, nodes_mapParts parts]
termination_by structural t => t

theorem nodes_mapSteps : ∀ steps : List Step,
    stepsNodes (mapSteps f steps) = (stepsNodes steps).map (mapNumbers f)
  | [] => rfl
  | .attribute _ :: steps => nodes_mapSteps steps
  | .index t :: steps => by
    simp [mapSteps, stepsNodes, nodes_mapNumbers t, nodes_mapSteps steps]
termination_by structural t => t

theorem nodes_mapList : ∀ items : List Term,
    listNodes (mapList f items) = (listNodes items).map (mapNumbers f)
  | [] => rfl
  | t :: items => by simp [mapList, listNodes, nodes_mapNumbers t, nodes_mapList items]
termination_by structural t => t

theorem nodes_mapItems : ∀ items : List Item,
    itemsNodes (mapItems f items) = (itemsNodes items).map (mapNumbers f)
  | [] => rfl
  | .named _ value :: items => by
    simp [mapItems, itemsNodes, nodes_mapNumbers value, nodes_mapItems items]
  | .computed key value :: items => by
    simp [mapItems, itemsNodes, nodes_mapNumbers key, nodes_mapNumbers value, nodes_mapItems items]
termination_by structural t => t

end

end Nodes

mutual

theorem mapNumbers_id : ∀ t : Term, t.mapNumbers id = t
  | .null | .bool _ | .number _ => rfl
  | .template parts => congrArg template (mapParts_id parts)
  | .traversal root steps => congrArg (traversal root) (mapSteps_id steps)
  | .relative source steps => congrArg₂ relative (mapNumbers_id source) (mapSteps_id steps)
  | .call name args => congrArg (call name) (mapList_id args)
  | .tuple items => congrArg tuple (mapList_id items)
  | .object items => congrArg object (mapItems_id items)
  | .unary op operand => congrArg (unary op) (mapNumbers_id operand)
  | .binary op left right => congrArg₂ (binary op) (mapNumbers_id left) (mapNumbers_id right)
  | .conditional condition yes no => by
    rw [mapNumbers, mapNumbers_id condition, mapNumbers_id yes, mapNumbers_id no]
  | .parens inner => congrArg parens (mapNumbers_id inner)
termination_by structural t => t

theorem mapParts_id : ∀ parts : List Part, mapParts id parts = parts
  | [] => rfl
  | .literal text :: parts => by rw [mapParts, mapParts_id parts]
  | .interpolation t :: parts => by rw [mapParts, mapNumbers_id t, mapParts_id parts]
termination_by structural t => t

theorem mapSteps_id : ∀ steps : List Step, mapSteps id steps = steps
  | [] => rfl
  | .attribute name :: steps => by rw [mapSteps, mapSteps_id steps]
  | .index t :: steps => by rw [mapSteps, mapNumbers_id t, mapSteps_id steps]
termination_by structural t => t

theorem mapList_id : ∀ items : List Term, mapList id items = items
  | [] => rfl
  | t :: items => by rw [mapList, mapNumbers_id t, mapList_id items]
termination_by structural t => t

theorem mapItems_id : ∀ items : List Item, mapItems id items = items
  | [] => rfl
  | .named name value :: items => by rw [mapItems, mapNumbers_id value, mapItems_id items]
  | .computed key value :: items => by
    rw [mapItems, mapNumbers_id key, mapNumbers_id value, mapItems_id items]
termination_by structural t => t

end

end Term

namespace Parser

variable {f : Number → Number} {beyond : List Token}

/-- Whether no reader goes on beyond its tokens: they are the last ones, or a closing token
follows. -/
def IsClosed (beyond : List Token) : Prop := ∀ token ∈ beyond.head?, isClosing token

def renumbered (f : Number → Number) (beyond tokens : List Token) : List Token :=
  tokens.map (Token.mapNumber f) ++ beyond

theorem renumbered_cons (token : Token) (tokens : List Token) :
    renumbered f beyond (token :: tokens) = token.mapNumber f :: renumbered f beyond tokens := rfl

section Rules

variable {tokens rest : List Token} {t : Term}

theorem head?_renumbered_cons {first token : Token} (h : token.isNumber = false) :
    (renumbered f beyond (first :: tokens)).head? = some token
      ↔ (first :: tokens).head? = some token := by
  rw [renumbered_cons, List.head?_cons, List.head?_cons, Option.some.injEq, Option.some.injEq]
  cases first with
  | number value =>
    constructor
    · rintro rfl
      exact absurd h nofun
    · rintro rfl
      exact absurd h nofun
  | _ => exact Iff.rfl

theorem head?_renumbered (hbeyond : IsClosed beyond) {token : Token} (h : token.isNumber = false)
    (hclosing : isClosing token = false) :
    (renumbered f beyond tokens).head? = some token ↔ tokens.head? = some token := by
  cases tokens with
  | nil =>
    refine ⟨fun heq => ?_, nofun⟩
    exact absurd (hbeyond token heq) (Bool.eq_false_iff.mp hclosing)
  | cons first tokens => exact head?_renumbered_cons h

theorem bareKey_renumbered (hbeyond : IsClosed beyond) :
    bareKey (renumbered f beyond tokens)
      = (bareKey tokens).map fun (name, rest) => (name, renumbered f beyond rest) := by
  match tokens with
  | first :: second :: more => cases first <;> first | rfl | (cases second <;> rfl)
  | [first] =>
    cases first with
    | ident name =>
      have hne {token : Token} (h : isClosing token = false) : beyond.head? ≠ some token :=
        fun heq => absurd (hbeyond token heq) (Bool.eq_false_iff.mp h)
      exact bareKey_ident (hne rfl) (hne rfl)
    | _ => rfl
  | [] =>
    cases beyond with
    | nil => rfl
    | cons token beyond =>
      have hclosing := hbeyond token rfl
      cases token <;> first | rfl | exact absurd hclosing Bool.false_ne_true

theorem head?_renumbered_ne (hbeyond : IsClosed beyond) {token : Token}
    (hnumber : token.isNumber = false) (hclosing : isClosing token = false)
    (h : tokens.head? ≠ some token) : (renumbered f beyond tokens).head? ≠ some token :=
  mt (head?_renumbered hbeyond hnumber hclosing).mp h

/-- What some tokens were read from do not start with a token, they do not start with it beyond. -/
theorem head?_renumbered_ne_of_length {first : Token} (hlt : rest.length < tokens.length)
    (hnumber : first.isNumber = false) (h : tokens.head? ≠ some first) :
    (renumbered f beyond tokens).head? ≠ some first := by
  obtain ⟨token, more, rfl⟩ := List.exists_cons_of_length_pos (Nat.zero_lt_of_lt hlt)
  exact mt (head?_renumbered_cons hnumber).mp h

theorem IsSign.mapNumber_eq {sign : Token} (h : IsSign sign) : sign.mapNumber f = sign := by
  rcases h with rfl | rfl <;> rfl

mutual

/-- What is read from some tokens is read from them with their numbers replaced and tokens beyond
them, up to these numbers and tokens. -/
theorem ReadsExpression.maps {tokens rest : List Token} {t : Term} (hbeyond : IsClosed beyond) :
    ReadsExpression tokens t rest →
      ReadsExpression (renumbered f beyond tokens) (t.mapNumbers f) (renumbered f beyond rest)
  | .plain hread hend => .plain (hread.maps hbeyond) (head?_renumbered_ne hbeyond rfl rfl hend)
  | .conditional hcondition hyes hno =>
    .conditional (hcondition.maps hbeyond) (hyes.maps hbeyond) (hno.maps hbeyond)

theorem ReadsBinary.maps {least : Nat} {tokens rest : List Token} {t : Term}
    (hbeyond : IsClosed beyond) : ReadsBinary least tokens t rest →
      ReadsBinary least (renumbered f beyond tokens) (t.mapNumbers f) (renumbered f beyond rest)
  | .operand hleft hmore => .operand (hleft.maps hbeyond) (hmore.maps hbeyond)

theorem ReadsOperators.maps {least : Nat} {left t : Term} {tokens rest : List Token}
    (hbeyond : IsClosed beyond) : ReadsOperators least left tokens t rest →
      ReadsOperators least (left.mapNumbers f) (renumbered f beyond tokens) (t.mapNumbers f)
        (renumbered f beyond rest)
  | .done hend => .done fun op more heq => by
    have hhead : (renumbered f beyond tokens).head? = some (.operator op) := by rw [heq]; rfl
    obtain ⟨more, rfl⟩ :=
      List.head?_eq_some_iff.mp ((head?_renumbered hbeyond (by rfl) (by rfl)).mp hhead)
    exact hend op more rfl
  | .operator hle hright hmore => .operator hle (hright.maps hbeyond) (hmore.maps hbeyond)

theorem ReadsUnary.maps {tokens rest : List Token} {t : Term} (hbeyond : IsClosed beyond) :
    ReadsUnary tokens t rest →
      ReadsUnary (renumbered f beyond tokens) (t.mapNumbers f) (renumbered f beyond rest)
  | .sign .neg hread => .sign .neg (hread.maps hbeyond)
  | .sign .not hread => .sign .not (hread.maps hbeyond)
  | .traversal hroot hcall hsteps =>
    .traversal hroot (head?_renumbered_ne hbeyond rfl rfl hcall) (hsteps.maps hbeyond)
  | .value hread hend => .value (hread.maps hbeyond) (hend.maps hbeyond)
  | @ReadsUnary.relative _ _ _ _ step _ hread hsteps => by
    have hmaps := hsteps.maps hbeyond
    cases step <;> exact .relative (hread.maps hbeyond) hmaps

theorem ReadsPrimary.maps {tokens rest : List Token} {t : Term} (hbeyond : IsClosed beyond) :
    ReadsPrimary tokens t rest →
      ReadsPrimary (renumbered f beyond tokens) (t.mapNumbers f) (renumbered f beyond rest)
  | .number value rest => .number (f value) _
  | .bool value rest => .bool value _
  | .null rest => .null _
  | .call hname hargs => .call hname (hargs.maps hbeyond rfl)
  | .template hparts => .template (hparts.maps hbeyond)
  | .parens hinner => .parens (hinner.maps hbeyond)
  | .tuple hitems => .tuple (hitems.maps hbeyond rfl)
  | .object hentries => .object (hentries.maps hbeyond)

theorem ReadsSteps.maps {tokens rest : List Token} {list : List Step} (hbeyond : IsClosed beyond) :
    ReadsSteps tokens list rest →
      ReadsSteps (renumbered f beyond tokens) (Term.mapSteps f list) (renumbered f beyond rest)
  | .done hdot hbracket => .done (head?_renumbered_ne hbeyond rfl rfl hdot)
      (head?_renumbered_ne hbeyond rfl rfl hbracket)
  | .member hsteps => .member (hsteps.maps hbeyond)
  | .position hsteps => .position (hsteps.maps hbeyond)
  | .index hindex hsteps => .index (hindex.maps hbeyond) (hsteps.maps hbeyond)

theorem ReadsItems.maps {close : Token} {tokens rest : List Token} {list : List Term}
    (hbeyond : IsClosed beyond) : ReadsItems close tokens list rest → close.isNumber = false →
      ReadsItems close (renumbered f beyond tokens) (Term.mapList f list)
        (renumbered f beyond rest)
  | .done close rest, hnumber => by
    rw [renumbered_cons, Token.mapNumber_of_isNumber_eq_false f hnumber]
    exact .done close _
  | .last hopen hcomma hread, hnumber => by
    have hmaps := hread.maps hbeyond
    rw [renumbered_cons, Token.mapNumber_of_isNumber_eq_false f hnumber] at hmaps
    exact .last (head?_renumbered_ne_of_length hread.length_lt hnumber hopen) hcomma hmaps
  | .more hopen hread hmore, hnumber =>
    .more (head?_renumbered_ne_of_length hread.length_lt hnumber hopen) (hread.maps hbeyond)
      (hmore.maps hbeyond hnumber)

theorem ReadsTemplate.maps {tokens rest : List Token} {parts : List Part}
    (hbeyond : IsClosed beyond) : ReadsTemplate tokens parts rest →
      ReadsTemplate (renumbered f beyond tokens) (Term.mapParts f parts) (renumbered f beyond rest)
  | .done rest => .done _
  | .literal hparts => .literal (hparts.maps hbeyond)
  | .interpolation hread hparts => .interpolation (hread.maps hbeyond) (hparts.maps hbeyond)

theorem ReadsEntries.maps {tokens rest : List Token} {entries : List Item}
    (hbeyond : IsClosed beyond) : ReadsEntries tokens entries rest →
      ReadsEntries (renumbered f beyond tokens) (Term.mapItems f entries)
        (renumbered f beyond rest)
  | .done rest => .done _
  | .named (.inl rfl) hvalue hmore =>
    .named (.inl rfl) (hvalue.maps hbeyond) (hmore.maps hbeyond)
  | .named (.inr rfl) hvalue hmore =>
    .named (.inr rfl) (hvalue.maps hbeyond) (hmore.maps hbeyond)
  | .computed hopen hbare hkey hsign hvalue hmore => by
    have hopen : (renumbered f beyond tokens).head? ≠ some .closeBrace :=
      head?_renumbered_ne_of_length hkey.length_lt rfl hopen
    have hbare : bareKey (renumbered f beyond tokens) = none := by
      rw [bareKey_renumbered hbeyond, hbare, Option.map_none]
    have hmaps := hkey.maps hbeyond
    rw [renumbered_cons, hsign.mapNumber_eq] at hmaps
    exact .computed hopen hbare hmaps hsign (hvalue.maps hbeyond) (hmore.maps hbeyond)

theorem ReadsFurther.maps {tokens rest : List Token} {entries : List Item}
    (hbeyond : IsClosed beyond) : ReadsFurther tokens entries rest →
      ReadsFurther (renumbered f beyond tokens) (Term.mapItems f entries)
        (renumbered f beyond rest)
  | .done rest => .done _
  | .comma hentries => .comma (hentries.maps hbeyond)

end

end Rules

/-- What is read from some tokens is also read where a closing token follows. -/
theorem ReadsExpression.append {tokens rest beyond : List Token} {t : Term}
    (hbeyond : IsClosed beyond) (h : ReadsExpression tokens t rest) :
    ReadsExpression (tokens ++ beyond) t (rest ++ beyond) := by
  have hsame (tokens : List Token) : renumbered id beyond tokens = tokens ++ beyond := by
    rw [renumbered, Token.mapNumber_id, List.map_id]
  have hmaps : ReadsExpression (renumbered id beyond tokens) _ _ := h.maps hbeyond
  rwa [hsame, hsame, Term.mapNumbers_id] at hmaps

end Parser

open ClusterBlueprint.Parser

namespace Term

variable {tokens : List Token} {t : Term}

/-- Tokens with the numbers replaced spell the tree with the numbers replaced. -/
theorem ofTokens_map (f : Number → Number) (h : ofTokens tokens = .ok t) :
    ofTokens (tokens.map (Token.mapNumber f)) = .ok (t.mapNumbers f) := by
  have hclosed : IsClosed [] := nofun
  have hmaps : ReadsExpression (renumbered f [] tokens) _ _ := (ofTokens_eq_ok.mp h).maps hclosed
  rw [renumbered, List.append_nil] at hmaps
  exact ofTokens_eq_ok.mpr hmaps

/-- Tokens in parentheses spell the tree in parentheses. -/
theorem ofTokens_parens (h : ofTokens tokens = .ok t) :
    ofTokens (.openParen :: (tokens ++ [.closeParen])) = .ok (.parens t) := by
  have hclosed : IsClosed [.closeParen] := by
    rintro token ⟨⟩
    rfl
  have hinner := (ofTokens_eq_ok.mp h).append hclosed
  have hoperand := ReadsUnary.value (.parens hinner) (.done nofun nofun)
  exact ofTokens_eq_ok.mpr (.plain (.operand hoperand (.done nofun)) nofun)

end Term

end ClusterBlueprint
