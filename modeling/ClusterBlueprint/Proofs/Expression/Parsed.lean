import ClusterBlueprint.Proofs.Expression.Derivation
import ClusterBlueprint.Proofs.Expression.Lexed

/-!
Whatever the parser reads is canonical.

An operand is read together with the operators that bind tighter than those around it, so what is
left after it starts with no such operator: that is what makes the operands of the tree above it
hold together tightly enough.
-/

namespace ClusterBlueprint.Parser

/-- Whether tokens start with no operator, or with one that binds looser than `least`. -/
def StartsBelow (least : Nat) (tokens : List Token) : Prop :=
  ∀ op rest, tokens = .operator op :: rest → op.precedence < least

/-- What is true of a tree that was read from the front of some tokens. -/
structure ReadWell (tokens : List Token) (t : Term) (rest : List Token) : Prop where
  canonical : t.Canonical
  lexed : Lexed rest
  word : t.isBareWord → ∃ name, tokens = .ident name :: rest

variable {tokens rest : List Token} {t left : Term} {least : Nat}

theorem ReadWell.plain (hcanonical : t.Canonical) (hlexed : Lexed rest)
    (h : t.isBareWord = false) : ReadWell tokens t rest :=
  ⟨hcanonical, hlexed, fun hword => absurd (h.symm.trans hword) Bool.false_ne_true⟩

theorem isName_of_not_isReserved {name : String} (hname : Lexer.isIdentifier name)
    (hreserved : isReserved name = false) : Lexer.isName name := by
  rw [Lexer.isName, hname, hreserved]
  rfl

/-- Only text that may stand before them was read before the pieces of a template. -/
theorem ReadsTemplate.mayPrecede {text : String} {parts : List Part}
    (h : ReadsTemplate tokens parts rest) (hlexed : Lexed (.literal text :: tokens)) :
    Term.mayPrecede text parts := by
  have hchain := hlexed.2
  cases h with
  | done => trivial
  | literal => exact (List.isChain_cons_cons.mp hchain).1.elim
  | interpolation => exact (List.isChain_cons_cons.mp hchain).1

theorem IsSign.bareKey_ne_none {sign : Token} (h : IsSign sign) (name : String) :
    bareKey (.ident name :: sign :: rest) ≠ none := by
  rcases h with rfl | rfl <;> nofun

mutual

theorem ReadsExpression.well {tokens rest : List Token} {t : Term} :
    ReadsExpression tokens t rest → Lexed tokens → ReadWell tokens t rest
  | .plain hread _, hlexed => (hread.well hlexed Nat.one_pos (by decide)).1
  | .conditional hcondition hyes hno, hlexed => by
    obtain ⟨hcondition, hpos, -⟩ := hcondition.well hlexed Nat.one_pos (by decide)
    have hyes := hyes.well hcondition.lexed.tail
    have hno := hno.well hyes.lexed.tail
    exact .plain ⟨hpos, hcondition.canonical, hyes.canonical, hno.canonical⟩ hno.lexed rfl

theorem ReadsBinary.well {least : Nat} {tokens rest : List Token} {t : Term} :
    ReadsBinary least tokens t rest → Lexed tokens → 0 < least → least ≤ 7 →
      ReadWell tokens t rest ∧ least ≤ t.tightness ∧ StartsBelow least rest
  | .operand hleft hmore, hlexed, hpos, hle => by
    obtain ⟨hread, htight⟩ := hleft.well hlexed
    obtain ⟨hcanonical, hrest, hleast, hbelow, hword⟩ := hmore.well hread.lexed hpos
      hread.canonical (htight ▸ hle) fun op _ _ => by
        rw [htight]
        exact Nat.lt_succ_of_lt op.precedence_lt
    refine ⟨⟨hcanonical, hrest, fun hw => ?_⟩, hleast, hbelow⟩
    obtain ⟨rfl, rfl⟩ := hword hw
    exact hread.word hw

/-- The operators after an operand.  What is left after one that was taken starts with no operator
that binds tighter, so it may be the left operand of the next. -/
theorem ReadsOperators.well {least : Nat} {left t : Term} {tokens rest : List Token} :
    ReadsOperators least left tokens t rest → Lexed tokens → 0 < least → left.Canonical →
      least ≤ left.tightness → StartsBelow (left.tightness + 1) tokens →
        t.Canonical ∧ Lexed rest ∧ least ≤ t.tightness ∧ StartsBelow least rest
          ∧ (t.isBareWord → t = left ∧ rest = tokens)
  | .done hend, hlexed, _, hleft, hle, _ => ⟨hleft, hlexed, hle, hend, fun _ => ⟨rfl, rfl⟩⟩
  | .operator hge hright hmore, hlexed, hpos, hleft, hle, hstarts => by
    obtain ⟨hread, htight, hbelow⟩ :=
      hright.well hlexed.tail (Nat.succ_pos _) (BinaryOperator.precedence_lt _)
    have hbinds := Nat.le_of_lt_succ (hstarts _ _ rfl)
    obtain ⟨hcanonical, hrest, hleast, hstops, hword⟩ := hmore.well hread.lexed hpos
      ⟨hbinds, htight, hleft, hread.canonical⟩ hge hbelow
    refine ⟨hcanonical, hrest, hleast, hstops, fun hw => ?_⟩
    obtain ⟨rfl, -⟩ := hword hw
    exact absurd hw Bool.false_ne_true

theorem ReadsUnary.well {tokens rest : List Token} {t : Term} :
    ReadsUnary tokens t rest → Lexed tokens → ReadWell tokens t rest ∧ t.tightness = 7
  | .sign op hread, hlexed => by
    obtain ⟨hread, htight⟩ := hread.well hlexed.tail
    exact ⟨.plain ⟨htight, hread.canonical⟩ hread.lexed rfl, rfl⟩
  | .traversal hroot hcall hsteps, hlexed => by
    obtain ⟨hcanonical, hrest⟩ := hsteps.well hlexed.tail
    refine ⟨⟨⟨isName_of_not_isReserved hlexed.head hroot, hcanonical⟩, hrest, fun hword => ?_⟩, rfl⟩
    cases hsteps with
    | done => exact ⟨_, rfl⟩
    | _ => exact absurd hword Bool.false_ne_true
  | .value hread _, hlexed => by
    obtain ⟨hread, hsource⟩ := hread.well hlexed
    exact ⟨hread, Term.tightness_of_isSource hsource⟩
  | .relative hread hsteps, hlexed => by
    obtain ⟨hread, hsource⟩ := hread.well hlexed
    obtain ⟨hcanonical, hrest⟩ := hsteps.well hread.lexed
    exact ⟨.plain ⟨List.cons_ne_nil _ _, hsource, hread.canonical, hcanonical⟩ hrest rfl, rfl⟩

theorem ReadsPrimary.well {tokens rest : List Token} {t : Term} :
    ReadsPrimary tokens t rest → Lexed tokens → ReadWell tokens t rest ∧ t.isSource
  | .number .., hlexed => ⟨.plain hlexed.head hlexed.tail rfl, rfl⟩
  | .bool .., hlexed | .null _, hlexed => ⟨⟨trivial, hlexed.tail, fun _ => ⟨_, rfl⟩⟩, rfl⟩
  | .call hname hargs, hlexed => by
    obtain ⟨hcanonical, hrest⟩ := hargs.well hlexed.tail.tail
    exact ⟨.plain ⟨isName_of_not_isReserved hlexed.head hname, hcanonical⟩ hrest rfl, rfl⟩
  | .template hparts, hlexed => by
    obtain ⟨hcanonical, hrest⟩ := hparts.well hlexed.tail
    exact ⟨.plain hcanonical hrest rfl, rfl⟩
  | .parens hinner, hlexed => by
    have hread := hinner.well hlexed.tail
    exact ⟨.plain hread.canonical hread.lexed.tail rfl, rfl⟩
  | .tuple hitems, hlexed => by
    obtain ⟨hcanonical, hrest⟩ := hitems.well hlexed.tail
    exact ⟨.plain hcanonical hrest rfl, rfl⟩
  | .object hentries, hlexed => by
    obtain ⟨hcanonical, hrest⟩ := hentries.well hlexed.tail
    exact ⟨.plain hcanonical hrest rfl, rfl⟩

theorem ReadsSteps.well {tokens rest : List Token} {list : List Step} :
    ReadsSteps tokens list rest → Lexed tokens → Term.CanonicalSteps list ∧ Lexed rest
  | .done .., hlexed => ⟨trivial, hlexed⟩
  | .member hsteps, hlexed => by
    obtain ⟨hcanonical, hrest⟩ := hsteps.well hlexed.tail.tail
    exact ⟨⟨hlexed.tail.head, hcanonical⟩, hrest⟩
  | .position hsteps, hlexed => by
    obtain ⟨hcanonical, hrest⟩ := hsteps.well hlexed.tail.tail
    exact ⟨⟨hlexed.tail.head, hcanonical⟩, hrest⟩
  | .index hindex hsteps, hlexed => by
    have hread := hindex.well hlexed.tail
    obtain ⟨hcanonical, hrest⟩ := hsteps.well hread.lexed.tail
    exact ⟨⟨hread.canonical, hcanonical⟩, hrest⟩

theorem ReadsItems.well {close : Token} {tokens rest : List Token} {list : List Term} :
    ReadsItems close tokens list rest → Lexed tokens → Term.CanonicalList list ∧ Lexed rest
  | .done .., hlexed => ⟨trivial, hlexed.tail⟩
  | .last _ _ hread, hlexed => by
    have hread := hread.well hlexed
    exact ⟨⟨hread.canonical, trivial⟩, hread.lexed.tail⟩
  | .more _ hread hmore, hlexed => by
    have hread := hread.well hlexed
    obtain ⟨hcanonical, hrest⟩ := hmore.well hread.lexed.tail
    exact ⟨⟨hread.canonical, hcanonical⟩, hrest⟩

theorem ReadsTemplate.well {tokens rest : List Token} {parts : List Part} :
    ReadsTemplate tokens parts rest → Lexed tokens → Term.CanonicalParts parts ∧ Lexed rest
  | .done _, hlexed => ⟨trivial, hlexed.tail⟩
  | .literal hparts, hlexed => by
    obtain ⟨hcanonical, hrest⟩ := hparts.well hlexed.tail
    exact ⟨⟨hlexed.head, hparts.mayPrecede hlexed, hcanonical⟩, hrest⟩
  | .interpolation hread hparts, hlexed => by
    have hread := hread.well hlexed.tail
    obtain ⟨hcanonical, hrest⟩ := hparts.well hread.lexed.tail
    exact ⟨⟨hread.canonical, hcanonical⟩, hrest⟩

theorem ReadsEntries.well {tokens rest : List Token} {entries : List Item} :
    ReadsEntries tokens entries rest → Lexed tokens → Term.CanonicalItems entries ∧ Lexed rest
  | .done _, hlexed => ⟨trivial, hlexed.tail⟩
  | .named _ hvalue hmore, hlexed => by
    have hread := hvalue.well hlexed.tail.tail
    obtain ⟨hcanonical, hrest⟩ := hmore.well hread.lexed
    exact ⟨⟨hlexed.head, hread.canonical, hcanonical⟩, hrest⟩
  | .computed _ hbare hkey hsign hvalue hmore, hlexed => by
    have hfirst := hkey.well hlexed
    have hread := hvalue.well hfirst.lexed.tail
    obtain ⟨hcanonical, hrest⟩ := hmore.well hread.lexed
    -- A single word before the sign would have been read as a bare key.
    refine ⟨⟨fun hword => ?_, hfirst.canonical, hread.canonical, hcanonical⟩, hrest⟩
    obtain ⟨name, rfl⟩ := hfirst.word hword
    exact hsign.bareKey_ne_none name hbare

theorem ReadsFurther.well {tokens rest : List Token} {entries : List Item} :
    ReadsFurther tokens entries rest → Lexed tokens → Term.CanonicalItems entries ∧ Lexed rest
  | .done _, hlexed => ⟨trivial, hlexed.tail⟩
  | .comma hentries, hlexed => hentries.well hlexed.tail

end

end ClusterBlueprint.Parser

namespace ClusterBlueprint.Term

theorem canonical_of_ofTokens {tokens : List Token} {t : Term} (hlexed : Lexed tokens)
    (h : ofTokens tokens = .ok t) : t.Canonical :=
  ((Parser.ofTokens_eq_ok.mp h).well hlexed).canonical

end ClusterBlueprint.Term
