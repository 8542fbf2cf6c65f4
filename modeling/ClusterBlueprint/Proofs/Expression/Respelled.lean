import ClusterBlueprint.Proofs.Expression.Joined
import ClusterBlueprint.Proofs.Expression.Parsed
import ClusterBlueprint.Proofs.Expression.Parsing

/-!
The parser loses no token.

A tree is printed with the tokens that it was read from, but for three ways of spelling: the comma
after the last item of a list or an object is left out, the sign after a key is an equals sign, and
a position is an index in brackets.  `Token.respell` puts tokens into that spelling without reading
them as a tree.
-/

namespace ClusterBlueprint

open ClusterBlueprint.Parser

namespace Token

/-- The tokens as the printer spells them.  `waiting` counts the question marks since the innermost
open brace whose colon has not come yet, and `outer` holds the counts of the braces around that one.
A colon that no question mark waits for stands after a key. -/
def respell (waiting : Nat) (outer : List Nat) : List Token → List Token
  | [] => []
  | comma :: rest =>
    if rest.head?.any isClosing then respell waiting outer rest
    else comma :: respell waiting outer rest
  | dot :: number position :: rest =>
    openBracket :: number position :: closeBracket :: respell waiting outer rest
  | colon :: rest =>
    match waiting with
    | 0 => assign :: respell 0 outer rest
    | waiting + 1 => colon :: respell waiting outer rest
  | question :: rest => question :: respell (waiting + 1) outer rest
  | openBrace :: rest => openBrace :: respell 0 (waiting :: outer) rest
  | closeBrace :: rest => closeBrace :: respell (outer.headD 0) outer.tail rest
  | token :: rest => token :: respell waiting outer rest

/-- A token that is spelled in one way, wherever it stands. -/
def hasOneSpelling : Token → Bool
  | comma | dot | colon | question | openBrace | closeBrace => false
  | _ => true

theorem respell_cons {token : Token} (h : token.hasOneSpelling) (waiting : Nat) (outer : List Nat)
    (rest : List Token) :
    respell waiting outer (token :: rest) = token :: respell waiting outer rest := by
  cases token <;> first | rfl | exact absurd h Bool.false_ne_true

theorem respell_attribute (waiting : Nat) (outer : List Nat) (name : String) (rest : List Token) :
    respell waiting outer (dot :: ident name :: rest)
      = dot :: ident name :: respell waiting outer rest := rfl

theorem respell_comma_of_isClosing {rest : List Token} (h : rest.head?.any isClosing)
    (waiting : Nat) (outer : List Nat) :
    respell waiting outer (comma :: rest) = respell waiting outer rest := by
  rw [respell, if_pos h]

theorem respell_comma {rest : List Token} (h : rest.head?.any isClosing = false) (waiting : Nat)
    (outer : List Nat) :
    respell waiting outer (comma :: rest) = comma :: respell waiting outer rest := by
  rw [respell, if_neg (Bool.eq_false_iff.mp h)]

/-- A closing token is kept, whatever stands before it. -/
theorem head?_respell_of_isClosing {token : Token} (h : isClosing token) (waiting : Nat)
    (outer : List Nat) (rest : List Token) :
    (respell waiting outer (token :: rest)).head? = some token := by
  cases token <;> first | rfl | exact absurd h Bool.false_ne_true

theorem not_isClosing_of_respell (waiting : Nat) (outer : List Nat) {tokens : List Token}
    (h : ∀ token ∈ (respell waiting outer tokens).head?, ¬ isClosing token) :
    tokens.head?.any isClosing = false := by
  cases tokens with
  | nil => rfl
  | cons token tokens =>
    by_contra hclosing
    have hclosing : isClosing token := by simpa using hclosing
    exact h token (head?_respell_of_isClosing hclosing waiting outer tokens) hclosing

end Token

namespace Parser

open Token

/-! ## Tokens that were taken -/

/-- Respelled, the tokens up to some rest are the given ones, and no question mark among them waits
for a colon in the rest. -/
def Respells (tokens spelled rest : List Token) : Prop :=
  ∀ waiting outer, respell waiting outer tokens = spelled ++ respell waiting outer rest

/-- Respelled, the tokens up to the brace that closes an object are the given ones. -/
def RespellsObject (tokens spelled rest : List Token) : Prop :=
  ∀ waiting outer, respell 0 (waiting :: outer) tokens
    = spelled ++ closeBrace :: respell waiting outer rest

namespace Respells

variable {tokens middle rest spelled more : List Token} {token : Token}

theorem nil (tokens : List Token) : Respells tokens [] tokens := fun _ _ => rfl

theorem append (h : Respells tokens spelled middle) (hmore : Respells middle more rest) :
    Respells tokens (spelled ++ more) rest := by
  intro waiting outer
  rw [h, hmore, List.append_assoc]

theorem cons (htoken : token.hasOneSpelling) (h : Respells tokens spelled rest) :
    Respells (token :: tokens) (token :: spelled) rest := by
  intro waiting outer
  rw [respell_cons htoken, h, List.cons_append]

/-- A token after those that were taken. -/
theorem concat (h : Respells tokens spelled (token :: rest)) (htoken : token.hasOneSpelling) :
    Respells tokens (spelled ++ [token]) rest := h.append (cons htoken (nil rest))

theorem inBraces (h : Respells tokens spelled middle) (hmore : RespellsObject middle more rest) :
    RespellsObject tokens (spelled ++ more) rest := by
  intro waiting outer
  rw [h, hmore, List.append_assoc]

end Respells

theorem respellsObject_cons {tokens spelled rest : List Token} {token : Token}
    (htoken : token.hasOneSpelling) (h : RespellsObject tokens spelled rest) :
    RespellsObject (token :: tokens) (token :: spelled) rest := by
  intro waiting outer
  rw [respell_cons htoken, h, List.cons_append]

/-- A colon that no question mark waits for becomes an equals sign. -/
theorem respellsObject_colon {tokens spelled rest : List Token}
    (h : RespellsObject tokens spelled rest) :
    RespellsObject (colon :: tokens) (assign :: spelled) rest := by
  intro waiting outer
  rw [respell, h, List.cons_append]

end Parser

namespace Term

open Token

def furtherTokens : List Item → List Token
  | [] => []
  | entries => .comma :: itemsTokens entries

theorem itemsTokens_named (name : String) (value : Term) (entries : List Item) :
    itemsTokens (.named name value :: entries)
      = .ident name :: .assign :: (value.tokens ++ furtherTokens entries) := by
  cases entries with
  | nil => simp [itemsTokens, furtherTokens]
  | cons next entries => cases next <;> rfl

theorem itemsTokens_computed (key value : Term) (entries : List Item) :
    itemsTokens (.computed key value :: entries)
      = key.tokens ++ .assign :: (value.tokens ++ furtherTokens entries) := by
  cases entries with
  | nil => simp [itemsTokens, furtherTokens]
  | cons next entries => cases next <;> rfl

theorem head_listTokens_not_isClosing (t : Term) (items : List Term) (rest : List Token) :
    ∀ token ∈ (listTokens (t :: items) ++ rest).head?, ¬ isClosing token := by
  cases items with
  | nil => exact head_tokens_not_isClosing t rest
  | cons next items =>
    rw [listTokens, List.append_assoc]
    exact head_tokens_not_isClosing t _

theorem head_itemsTokens_not_isClosing (entry : Item) (entries : List Item) (rest : List Token) :
    ∀ token ∈ (itemsTokens (entry :: entries) ++ rest).head?, ¬ isClosing token := by
  cases entry with
  | named name value => simp [itemsTokens_named, isClosing]
  | computed key value =>
    rw [itemsTokens_computed, List.append_assoc]
    exact head_tokens_not_isClosing key _

end Term

namespace Parser

open Token

/-! ## The rules -/

theorem ReadsItems.head_of_nil {close : Token} {tokens rest : List Token} :
    ReadsItems close tokens [] rest → tokens.head? = some close
  | .done .. => rfl

theorem ReadsEntries.head_of_nil {tokens rest : List Token} :
    ReadsEntries tokens [] rest → tokens.head? = some closeBrace
  | .done _ => rfl

/-- The comma after an item is kept if another item follows.  The items after it tell what stands
after it: the closing token, or the next item. -/
theorem Respells.comma {close : Token} {tokens middle rest : List Token} {t : Term}
    {items : List Term} (hclosing : isClosing close) (hitems : ReadsItems close middle items rest)
    (h : Respells tokens t.tokens (.comma :: middle))
    (hmore : Respells middle (Term.listTokens items ++ [close]) rest) :
    Respells tokens (Term.listTokens (t :: items) ++ [close]) rest := by
  intro waiting outer
  cases items with
  | nil =>
    have hdropped : middle.head?.any isClosing := by rw [hitems.head_of_nil]; exact hclosing
    rw [h, respell_comma_of_isClosing hdropped, hmore]
    simp [Term.listTokens]
  | cons next items =>
    have hkept : middle.head?.any isClosing = false := by
      refine not_isClosing_of_respell waiting outer ?_
      rw [hmore, List.append_assoc]
      exact Term.head_listTokens_not_isClosing next items _
    rw [h, respell_comma hkept, hmore]
    simp [Term.listTokens]

/-- The comma after an entry is kept if another entry follows. -/
theorem respellsObject_comma {tokens rest : List Token} {entries : List Item}
    (hentries : ReadsEntries tokens entries rest)
    (h : RespellsObject tokens (Term.itemsTokens entries) rest) :
    RespellsObject (comma :: tokens) (Term.furtherTokens entries) rest := by
  intro waiting outer
  cases entries with
  | nil =>
    have hdropped : tokens.head?.any isClosing := by rw [hentries.head_of_nil]; rfl
    rw [respell_comma_of_isClosing hdropped, h]
    rfl
  | cons entry entries =>
    have hkept : tokens.head?.any isClosing = false := by
      refine not_isClosing_of_respell 0 (waiting :: outer) ?_
      rw [h]
      exact Term.head_itemsTokens_not_isClosing entry entries _
    rw [respell_comma hkept, h]
    rfl

theorem respellsObject_sign {sign : Token} {tokens spelled rest : List Token} (hsign : IsSign sign)
    (h : RespellsObject tokens spelled rest) :
    RespellsObject (sign :: tokens) (assign :: spelled) rest := by
  rcases hsign with rfl | rfl
  · exact respellsObject_cons rfl h
  · exact respellsObject_colon h

mutual

/-- The question mark of a conditional waits for its colon, so that this is not taken for the sign
after a key. -/
theorem ReadsExpression.respells {tokens rest : List Token} {t : Term} :
    ReadsExpression tokens t rest → Respells tokens t.tokens rest
  | .plain hread _ => hread.respells
  | .conditional hcondition hyes hno => by
    intro waiting outer
    rw [hcondition.respells, respell, hyes.respells, respell, hno.respells]
    simp [Term.tokens]

theorem ReadsBinary.respells {least : Nat} {tokens rest : List Token} {t : Term} :
    ReadsBinary least tokens t rest → Respells tokens t.tokens rest
  | .operand hleft hmore => hmore.respells hleft.respells

/-- The left operand was taken before the tokens at hand, from `whole` on. -/
theorem ReadsOperators.respells {least : Nat} {left t : Term} {tokens rest : List Token} :
    ReadsOperators least left tokens t rest → ∀ {whole : List Token},
      Respells whole left.tokens tokens → Respells whole t.tokens rest
  | .done _, _, hleft => hleft
  | .operator _ hright hmore, _, hleft => hmore.respells (hleft.append (.cons rfl hright.respells))

theorem ReadsUnary.respells {tokens rest : List Token} {t : Term} :
    ReadsUnary tokens t rest → Respells tokens t.tokens rest
  | .sign .neg hread | .sign .not hread => .cons rfl hread.respells
  | .traversal _ _ hsteps => .cons rfl hsteps.respells
  | .value hread _ => hread.respells
  | .relative hread hsteps => hread.respells.append hsteps.respells

theorem ReadsPrimary.respells {tokens rest : List Token} {t : Term} :
    ReadsPrimary tokens t rest → Respells tokens t.tokens rest
  | .number .. | .bool .. | .null _ => .cons rfl (.nil _)
  | .call _ hargs => .cons rfl (.cons rfl (hargs.respells rfl rfl))
  | .template hparts => .cons rfl hparts.respells
  | .parens hinner => .cons rfl (hinner.respells.concat rfl)
  | .tuple hitems => .cons rfl (hitems.respells rfl rfl)
  | .object hentries => by
    intro waiting outer
    rw [respell, hentries.respells, Term.tokens, List.cons_append, List.append_assoc]
    rfl

theorem ReadsSteps.respells {tokens rest : List Token} {list : List Step} :
    ReadsSteps tokens list rest → Respells tokens (Term.stepsTokens list) rest
  | .done .. => .nil _
  | .member hsteps => by
    intro waiting outer
    rw [respell_attribute, hsteps.respells]
    rfl
  | .position hsteps => by
    -- A position after a dot is spelled as an index.
    intro waiting outer
    rw [respell, hsteps.respells]
    rfl
  | .index hindex hsteps => .cons rfl (hindex.respells.append (.cons rfl hsteps.respells))

theorem ReadsItems.respells {close : Token} {tokens rest : List Token} {list : List Term} :
    ReadsItems close tokens list rest → close.hasOneSpelling → isClosing close →
      Respells tokens (Term.listTokens list ++ [close]) rest
  | .done .., hone, _ => .cons hone (.nil _)
  | .last _ _ hread, hone, _ => hread.respells.concat hone
  | .more _ hread hmore, hone, hclosing =>
    .comma hclosing hmore hread.respells (hmore.respells hone hclosing)

theorem ReadsTemplate.respells {tokens rest : List Token} {parts : List Part} :
    ReadsTemplate tokens parts rest → Respells tokens (Term.partsTokens parts ++ [closeQuote]) rest
  | .done _ => .cons rfl (.nil _)
  | .literal hparts => .cons rfl hparts.respells
  | .interpolation hread hparts => by
    have hclose : closeInterpolation.hasOneSpelling := rfl
    rw [Term.partsTokens, List.cons_append, List.append_assoc]
    exact .cons rfl (hread.respells.append (.cons hclose hparts.respells))

/-- No question mark waits in the braces when the sign after a key comes. -/
theorem ReadsEntries.respells {tokens rest : List Token} {entries : List Item} :
    ReadsEntries tokens entries rest → RespellsObject tokens (Term.itemsTokens entries) rest
  | .done _ => fun _ _ => rfl
  | .named hsign hvalue hmore => by
    rw [Term.itemsTokens_named]
    exact respellsObject_cons rfl
      (respellsObject_sign hsign (hvalue.respells.inBraces hmore.respells))
  | .computed _ _ hkey hsign hvalue hmore => by
    rw [Term.itemsTokens_computed]
    exact hkey.respells.inBraces
      (respellsObject_sign hsign (hvalue.respells.inBraces hmore.respells))

theorem ReadsFurther.respells {tokens rest : List Token} {entries : List Item} :
    ReadsFurther tokens entries rest → RespellsObject tokens (Term.furtherTokens entries) rest
  | .done _ => fun _ _ => rfl
  | .comma hentries => respellsObject_comma hentries hentries.respells

end

end Parser

namespace Term

/-- The text of a tree holds the tokens that the tree was read from, respelled: none is lost, none
is added, and all stand in their order. -/
theorem scan_text_of_ofTokens {source : String} {tokens : List Token} {t : Term}
    (hscan : Token.scan source = .ok tokens)
    (hfinite : ∀ value, .number value ∈ tokens → value.isFinite)
    (hparse : ofTokens tokens = .ok t) : Token.scan t.text = .ok (Token.respell 0 [] tokens) := by
  have htokens := (ofTokens_eq_ok.mp hparse).respells 0 []
  rw [Token.respell, List.append_nil] at htokens
  rw [htokens]
  exact scan_text (canonical_of_ofTokens (lexed_of_scan hscan hfinite) hparse)

/-- An object whose entry has a colon twice, after its key and in its value, and a comma that no
entry follows. -/
theorem scan_text_of_object :
    let tokens := [.openBrace, .ident "k", .colon, .ident "a", .question, .ident "b", .colon,
      .ident "c", .dot, .number (.ofInt 0), .comma, .closeBrace]
    let t : Term := .object [.named "k" (.conditional (.traversal "a" []) (.traversal "b" [])
      (.traversal "c" [.index (.number (.ofInt 0))]))]
    Token.scan "\x7b k : a ? b : c . 0 , \x7d" = .ok tokens
      ∧ (∀ value, .number value ∈ tokens → value.isFinite)
      ∧ ofTokens tokens = .ok t
      ∧ t.text = "\x7bk = a ? b : c[0]\x7d"
      ∧ Token.scan t.text = .ok [.openBrace, .ident "k", .assign, .ident "a", .question, .ident "b",
        .colon, .ident "c", .openBracket, .number (.ofInt 0), .closeBracket, .closeBrace] := by
  intro tokens t
  have hnumber : (Number.ofInt 0).isWritable := by decide +kernel
  have hfinite : ∀ value, .number value ∈ tokens → value.isFinite := by
    simp only [tokens, List.mem_cons, reduceCtorEq, false_or, Token.number.injEq, List.not_mem_nil,
      or_false]
    rintro _ rfl
    decide +kernel
  have hlexed : Lexed tokens := by
    refine ⟨?_, by simp [tokens, Token.MayPrecede]⟩
    have hnames : Lexer.isIdentifier "k" ∧ Lexer.isIdentifier "a" ∧ Lexer.isIdentifier "b"
      ∧ Lexer.isIdentifier "c" := by decide
    simp [tokens, Token.IsSpelled, hnumber, hnames]
  have hruns : Lexer.Runs (.source 0) tokens :=
    .step (.openBrace rfl) <| .step (.stay rfl rfl) <| .step (.stay rfl rfl) <|
      .step (.stay rfl rfl) <| .step (.stay rfl rfl) <| .step (.stay rfl rfl) <|
      .step (.stay rfl rfl) <| .step (.stay rfl rfl) <| .step (.stay rfl rfl) <|
      .step (.stay rfl rfl) <| .step (.stay rfl rfl) <| .step (.closeBrace rfl) <| .done rfl
  have hsource : Token.join tokens = "\x7b k : a ? b : c . 0 , \x7d" := by decide +kernel
  have hscan : Token.scan "\x7b k : a ? b : c . 0 , \x7d" = .ok tokens :=
    hsource ▸ Lexer.scanFrom_join hruns hlexed
  have hparse : ofTokens tokens = .ok t := by cbv
  exact ⟨hscan, hfinite, hparse, by decide +kernel, scan_text_of_ofTokens hscan hfinite hparse⟩

end Term

end ClusterBlueprint
