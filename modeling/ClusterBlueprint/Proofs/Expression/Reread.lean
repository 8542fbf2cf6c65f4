import ClusterBlueprint.Proofs.Expression.Parsed
import ClusterBlueprint.Proofs.Expression.Parsing
import ClusterBlueprint.Proofs.Expression.Renumbered
import ClusterBlueprint.Proofs.Expression.Scanning
import ClusterBlueprint.Proofs.References

/-!
Trees that are read back from their own text.

A number that is too large is written as a word, and read back as the name of a traversal.
`Term.named` puts that name in place of the number.  The tree it gives has the same text and is
canonical, so it is what the text is read back as.
-/

namespace ClusterBlueprint

namespace Number

def infinity : Number := .signed false .infinite

def infinityName : String := "inf"

theorem source_infinity : infinity.source = infinityName := rfl

/-- The number, with zero for infinity. -/
def bounded (x : Number) : Number := if x = infinity then zero else x

theorem isWritable_bounded {m : Magnitude} : (bounded (.signed false m)).isWritable := by
  unfold bounded
  split
  · decide
  · next hne =>
    have hm : m ≠ Magnitude.infinite := fun heq => hne (heq ▸ rfl)
    have hval : m.val ≠ Magnitude.top := fun heq => hm (Fin.ext heq)
    have hle := m.isLt
    show decide (m.val < Magnitude.top) = true
    exact decide_eq_true (by omega)

theorem isWritable_of_bounded {x : Number} (hne : x ≠ infinity) (h : x.bounded.isWritable) :
    x.isWritable := by
  rwa [bounded, if_neg hne] at h

end Number

theorem Scanned.lexed_bounded {tokens : List Token} (h : Scanned tokens) :
    Lexed (tokens.map (Token.mapNumber Number.bounded)) := by
  refine ⟨List.forall_mem_map.mpr fun token hmem => ?_, ?_⟩
  · have hscanned := h.1 token hmem
    cases token with
    | number value =>
      obtain ⟨m, rfl⟩ := hscanned
      exact Number.isWritable_bounded
    | _ => exact hscanned
  · refine (List.isChain_map _).mpr (h.2.imp fun a b hprecede => ?_)
    cases a <;> cases b <;> exact hprecede

namespace Term

/-! ## Names in place of numbers -/

/-- Steps into a tree: a name takes them as its own. -/
def stepping (source : Term) (steps : List Step) : Term :=
  match source with
  | traversal root [] => traversal root steps
  | source => relative source steps

/-- An entry under a key: a name is a bare key. -/
def entry (key value : Term) : Item :=
  match key with
  | traversal root [] => .named root value
  | key => .computed key value

mutual

/-- The tree with a name in place of infinity. -/
def named : Term → Term
  | null => null
  | bool value => bool value
  | number value =>
    if value = Number.infinity then traversal Number.infinityName [] else number value
  | template parts => template (namedParts parts)
  | traversal root steps => traversal root (namedSteps steps)
  | relative source steps => stepping source.named (namedSteps steps)
  | call name args => call name (namedList args)
  | tuple items => tuple (namedList items)
  | object items => object (namedItems items)
  | unary op operand => unary op operand.named
  | binary op left right => binary op left.named right.named
  | conditional condition yes no => conditional condition.named yes.named no.named
  | parens inner => parens inner.named
termination_by structural t => t

def namedParts : List Part → List Part
  | [] => []
  | .literal text :: rest => .literal text :: namedParts rest
  | .interpolation term :: rest => .interpolation term.named :: namedParts rest
termination_by structural t => t

def namedSteps : List Step → List Step
  | [] => []
  | .attribute name :: rest => .attribute name :: namedSteps rest
  | .index term :: rest => .index term.named :: namedSteps rest
termination_by structural t => t

def namedList : List Term → List Term
  | [] => []
  | term :: rest => term.named :: namedList rest
termination_by structural t => t

def namedItems : List Item → List Item
  | [] => []
  | .named name value :: rest => .named name value.named :: namedItems rest
  | .computed key value :: rest => entry key.named value.named :: namedItems rest
termination_by structural t => t

end

/-! ## The text stays -/

theorem text_stepping (source : Term) (steps : List Step) :
    (stepping source steps).text = source.text ++ stepsText steps := by
  unfold stepping
  split
  · next root => rw [text, text, stepsText, String.append_empty]
  · rfl

theorem text_named_number (value : Number) : (number value).named.text = value.source := by
  rw [named]
  split
  · next heq => rw [heq, Number.source_infinity, text, stepsText, String.append_empty]
  · rfl

theorem itemsText_entry (key value : Term) (items : List Item) :
    itemsText (entry key value :: items) = itemsText (.computed key value :: items) := by
  unfold entry
  split
  · next root =>
    have hkey : (traversal root []).text = root := by rw [text, stepsText, String.append_empty]
    cases items <;> simp only [itemsText, hkey]
  · rfl

mutual

theorem text_named : ∀ t : Term, t.named.text = t.text
  | .null | .bool _ => rfl
  | .number value => text_named_number value
  | .template parts => by rw [named, text, text, partsText_named parts]
  | .traversal root steps => by rw [named, text, text, stepsText_named steps]
  | .relative source steps => by
    rw [named, text_stepping, text, text_named source, stepsText_named steps]
  | .call name args => by rw [named, text, text, listText_named args]
  | .tuple items => by rw [named, text, text, listText_named items]
  | .object items => by rw [named, text, text, itemsText_named items]
  | .unary op operand => by rw [named, text, text, text_named operand]
  | .binary op left right => by rw [named, text, text, text_named left, text_named right]
  | .conditional condition yes no => by
    rw [named, text, text, text_named condition, text_named yes, text_named no]
  | .parens inner => by rw [named, text, text, text_named inner]
termination_by structural t => t

theorem partsText_named : ∀ parts : List Part, partsText (namedParts parts) = partsText parts
  | [] => rfl
  | .literal text :: parts => by rw [namedParts, partsText, partsText, partsText_named parts]
  | .interpolation t :: parts => by
    rw [namedParts, partsText, partsText, text_named t, partsText_named parts]
termination_by structural t => t

theorem stepsText_named : ∀ steps : List Step, stepsText (namedSteps steps) = stepsText steps
  | [] => rfl
  | .attribute name :: steps => by rw [namedSteps, stepsText, stepsText, stepsText_named steps]
  | .index t :: steps => by
    rw [namedSteps, stepsText, stepsText, text_named t, stepsText_named steps]
termination_by structural t => t

theorem listText_named : ∀ items : List Term, listText (namedList items) = listText items
  | [] => rfl
  | [t] => text_named t
  | t :: next :: items => by
    have hrest := listText_named (next :: items)
    rw [namedList] at hrest
    rw [namedList, namedList, listText, listText, text_named t, hrest]
termination_by structural t => t

theorem itemsText_named : ∀ items : List Item, itemsText (namedItems items) = itemsText items
  | [] => rfl
  | [.named name value] => by
    rw [namedItems, namedItems, itemsText, itemsText, text_named value]
  | [.computed key value] => by
    rw [namedItems, namedItems, itemsText_entry, itemsText, itemsText, text_named key,
      text_named value]
  | .named name value :: next :: items => by
    have hrest := itemsText_named (next :: items)
    cases next <;>
      simp only [namedItems] at hrest ⊢ <;>
      rw [itemsText, itemsText, text_named value, hrest]
  | .computed key value :: next :: items => by
    have hrest := itemsText_named (next :: items)
    cases next <;>
      simp only [namedItems] at hrest ⊢ <;>
      rw [itemsText_entry, itemsText, itemsText, text_named key, text_named value, hrest]
termination_by structural t => t

end

/-! ## The tree is canonical -/

theorem tightness_mapNumbers (f : Number → Number) (t : Term) :
    (t.mapNumbers f).tightness = t.tightness := by cases t <;> rfl

theorem isSource_mapNumbers (f : Number → Number) (t : Term) :
    (t.mapNumbers f).isSource = t.isSource := by cases t <;> rfl

theorem isBareWord_mapNumbers (f : Number → Number) (t : Term) :
    (t.mapNumbers f).isBareWord = t.isBareWord := by
  cases t with
  | traversal root steps =>
    match steps with
    | [] | .attribute _ :: _ | .index _ :: _ => rfl
  | _ => rfl

theorem tightness_named (t : Term) : t.named.tightness = t.tightness := by
  cases t with
  | number value =>
    rw [named]
    split <;> rfl
  | relative source steps =>
    rw [named]
    unfold stepping
    split <;> rfl
  | _ => rfl

theorem named_of_isSource {t : Term} (h : t.isSource) :
    t.named = traversal Number.infinityName [] ∨ t.named.isSource := by
  cases t with
  | number value =>
    rw [named]
    split
    · exact .inl rfl
    · exact .inr rfl
  | traversal | relative | unary | binary | conditional => exact absurd h Bool.false_ne_true
  | _ => exact .inr rfl

theorem stepping_of_isSource {source : Term} (h : source.isSource) (steps : List Step) :
    stepping source steps = relative source steps := by
  cases source <;> first | rfl | exact absurd h Bool.false_ne_true

theorem isBareWord_of_named {t : Term} (h : t.named.isBareWord) :
    t.isBareWord ∨ ∃ root, t.named = traversal root [] := by
  cases hnamed : t.named with
  | traversal root steps =>
    rw [hnamed] at h
    cases steps with
    | nil => exact .inr ⟨root, rfl⟩
    | cons step steps => exact absurd h Bool.false_ne_true
  | null | bool =>
    cases t with
    | number value =>
      rw [named] at hnamed
      split at hnamed <;> cases hnamed
    | relative source steps =>
      rw [named] at hnamed
      unfold stepping at hnamed
      split at hnamed <;> cases hnamed
    | null | bool => exact .inl rfl
    | _ => cases hnamed
  | _ =>
    rw [hnamed] at h
    exact absurd h Bool.false_ne_true

theorem entry_of_not_isBareWord {key : Term} (h : ¬ key.isBareWord) (value : Term) :
    entry key value = .computed key value := by
  unfold entry
  split
  · exact absurd rfl h
  · rfl

mutual

/-- A tree that would be canonical without infinity is so with the name in its place. -/
theorem canonical_named : ∀ t : Term, (t.mapNumbers Number.bounded).Canonical → t.named.Canonical
  | .null, _ | .bool _, _ => trivial
  | .number value, h => by
    rw [named]
    split
    · exact ⟨by decide, trivial⟩
    · next hne => exact Number.isWritable_of_bounded hne h
  | .template parts, h => canonicalParts_named parts h
  | .traversal root steps, h => ⟨h.1, canonicalSteps_named steps h.2⟩
  | .relative source steps, h => by
    obtain ⟨hne, hsource, hc, hsteps⟩ := h
    have hnamed := canonicalSteps_named steps hsteps
    rw [isSource_mapNumbers] at hsource
    rw [named]
    rcases named_of_isSource hsource with heq | hstands
    · rw [heq]
      exact ⟨by decide, hnamed⟩
    · have hnamedNe : namedSteps steps ≠ [] := by
        match steps with
        | [] => exact absurd rfl hne
        | .attribute _ :: _ | .index _ :: _ => exact nofun
      rw [stepping_of_isSource hstands]
      exact ⟨hnamedNe, hstands, canonical_named source hc, hnamed⟩
  | .call name args, h => ⟨h.1, canonicalList_named args h.2⟩
  | .tuple items, h => canonicalList_named items h
  | .object items, h => canonicalItems_named items h
  | .unary op operand, h => by
    obtain ⟨htight, hoperand⟩ := h
    rw [tightness_mapNumbers] at htight
    exact ⟨(tightness_named operand).trans htight, canonical_named operand hoperand⟩
  | .binary op left right, h => by
    obtain ⟨hleft, hright, hcleft, hcright⟩ := h
    rw [tightness_mapNumbers, ← tightness_named] at hleft hright
    exact ⟨hleft, hright, canonical_named left hcleft, canonical_named right hcright⟩
  | .conditional condition yes no, h => by
    obtain ⟨htight, hcondition, hyes, hno⟩ := h
    rw [tightness_mapNumbers, ← tightness_named] at htight
    exact ⟨htight, canonical_named condition hcondition, canonical_named yes hyes,
      canonical_named no hno⟩
  | .parens inner, h => canonical_named inner h
termination_by structural t => t

theorem canonicalParts_named : ∀ parts : List Part,
    CanonicalParts (mapParts Number.bounded parts) → CanonicalParts (namedParts parts)
  | [], _ => trivial
  | [.literal _], h => ⟨h.1, trivial, trivial⟩
  | .literal _ :: .literal _ :: _, h => h.2.1.elim
  | .literal _ :: .interpolation t :: parts, h =>
    ⟨h.1, h.2.1, canonicalParts_named (.interpolation t :: parts) h.2.2⟩
  | .interpolation t :: parts, h => ⟨canonical_named t h.1, canonicalParts_named parts h.2⟩
termination_by structural t => t

theorem canonicalSteps_named : ∀ steps : List Step,
    CanonicalSteps (mapSteps Number.bounded steps) → CanonicalSteps (namedSteps steps)
  | [], _ => trivial
  | .attribute _ :: steps, h => ⟨h.1, canonicalSteps_named steps h.2⟩
  | .index t :: steps, h => ⟨canonical_named t h.1, canonicalSteps_named steps h.2⟩
termination_by structural t => t

theorem canonicalList_named : ∀ items : List Term,
    CanonicalList (mapList Number.bounded items) → CanonicalList (namedList items)
  | [], _ => trivial
  | t :: items, h => ⟨canonical_named t h.1, canonicalList_named items h.2⟩
termination_by structural t => t

theorem canonicalItems_named : ∀ items : List Item,
    CanonicalItems (mapItems Number.bounded items) → CanonicalItems (namedItems items)
  | [], _ => trivial
  | .named name value :: items, h =>
    ⟨h.1, canonical_named value h.2.1, canonicalItems_named items h.2.2⟩
  | .computed key value :: items, h => by
    obtain ⟨hword, hckey, hcvalue, hitems⟩ := h
    have hkey := canonical_named key hckey
    have hvalue := canonical_named value hcvalue
    have hrest := canonicalItems_named items hitems
    rw [isBareWord_mapNumbers] at hword
    rw [namedItems]
    by_cases hnamed : key.named.isBareWord
    · obtain ⟨root, heq⟩ := (isBareWord_of_named hnamed).resolve_left hword
      rw [heq] at hkey ⊢
      exact ⟨(Bool.and_eq_true_iff.mp hkey.1).1, hvalue, hrest⟩
    · rw [entry_of_not_isBareWord hnamed]
      exact ⟨hnamed, hkey, hvalue, hrest⟩
termination_by structural t => t

end

theorem Canonical.parse_text {t : Term} (h : t.Canonical) :
    (Token.scan t.text >>= ofTokens) = .ok t := by
  rw [scan_text h]
  exact ofTokens_tokens h

/-- What is read from source text would be canonical without infinity. -/
theorem canonical_bounded_of_scan {source : String} {tokens : List Token} {t : Term}
    (hscan : Token.scan source = .ok tokens) (h : ofTokens tokens = .ok t) :
    (t.mapNumbers Number.bounded).Canonical :=
  canonical_of_ofTokens (scanned_of_scan hscan).lexed_bounded (ofTokens_map Number.bounded h)

/-- The text of what is read from source text is read back, with the name in place of infinity. -/
theorem parse_text_named {t : Term} (h : t.named.Canonical) :
    (Token.scan t.text >>= ofTokens) = .ok t.named := by
  rw [← text_named]
  exact h.parse_text

end Term

/-- An expression is read back from its own text if it is canonical and its traversals are
references, and only then. -/
theorem Expression.parse_text_eq_ok {e : Expression} :
    parse e.text = .ok e ↔ e.term.Canonical ∧ e.IsWellReferenced := by
  rw [parse_eq_ok]
  refine and_congr_left fun _ => ⟨fun hread => ?_, fun hcanonical => ?_⟩
  · obtain ⟨tokens, hscan, hparse⟩ := Checked.bind_eq_ok.mp hread
    have hnamed := Term.canonical_named e.term (Term.canonical_bounded_of_scan hscan hparse)
    have heq : e.term.named = e.term :=
      Except.ok.inj ((Term.parse_text_named hnamed).symm.trans hread)
    rwa [heq] at hnamed
  · exact hcanonical.parse_text

end ClusterBlueprint
