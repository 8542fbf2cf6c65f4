import ClusterBlueprint.Proofs.Literal.Written

/-!
Trees whose text says what they refer to.

A tree that was put together need not be the one that its text is read as: the text of a negative
number is a sign and a number, that of an empty quoted text has no pieces, and a word in it may not
be read at all.  It is enough that the text is that of a canonical tree without other references.
-/

namespace ClusterBlueprint

open Lexer

/-- The text of a negative number is that of its magnitude with a sign before it, save for zero. -/
theorem Number.source_negative {m : Magnitude} (h : m.isFinite) :
    (signed true m).source = "0"
      ∨ (signed true m).source = "-" ++ (signed false m).source := by
  have hplain : (signed true m).plain = "-" ++ (signed false m).plain := by
    simp [plain, render]
  by_cases hwhole : m.units % Magnitude.unitsInOne = 0
  · have hint (negative : Bool) : (signed negative m).toInt?
        = some (if negative then -((m.units / Magnitude.unitsInOne : Nat) : Int)
          else (m.units / Magnitude.unitsInOne : Nat)) := by simp [toInt?, h, hwhole]
    unfold source shortInt?
    rw [hint, hint]
    cases m.units / Magnitude.unitsInOne with
    | zero => exact .inl rfl
    | succ n =>
      refine .inr ?_
      by_cases hsmall : n + 1 < 1000000000000000
      · rw [Option.filter_some_pos (by simp; omega), Option.filter_some_pos (by simp; omega)]
        rfl
      · rw [Option.filter_some_neg (by simp; omega), Option.filter_some_neg (by simp; omega)]
        exact hplain
  · have hint (negative : Bool) : (signed negative m).toInt? = none := by
      simp [toInt?, h, hwhole]
    unfold source shortInt?
    rw [hint, hint]
    exact .inr hplain

namespace Term

/-- A canonical tree with the text of another tree, and no other references. -/
structure StandsFor (u t : Term) : Prop where
  canonical : u.Canonical
  text : u.text = t.text
  references : u.nodes.filterMap reference? ⊆ t.nodes.filterMap reference?

/-- If the lexer gets through the text of the tree, a canonical tree stands for it. -/
def IsFaithful (t : Term) : Prop :=
  ∀ ⦃state rest tokens⦄, state.isCode → Ends rest →
    scanFrom state (t.text.toList ++ rest) = .ok tokens → ∃ u : Term, u.StandsFor t

variable {t u : Term} {ts us : List Term} {name : String} {state : State} {rest : List Char}
  {tokens : List Token}

theorem StandsFor.refl (h : t.Canonical) : t.StandsFor t := ⟨h, rfl, List.Subset.refl _⟩

theorem StandsFor.isFaithful (h : u.StandsFor t) : t.IsFaithful := fun _ _ _ _ _ _ => ⟨u, h⟩

/-- The lexer arrives behind the text of a faithful tree. -/
theorem IsFaithful.exists_standsFor (h : t.IsFaithful) (hstate : state.isCode) (hrest : Ends rest)
    (hscan : scanFrom state (t.text.toList ++ rest) = .ok tokens) :
    ∃ u : Term, u.StandsFor t ∧ ∃ more, scanFrom state rest = .ok more := by
  obtain ⟨u, hu⟩ := h hstate hrest hscan
  rw [← hu.text] at hscan
  exact ⟨u, hu, (reads_text hstate u hu.canonical hrest).exists_ok hscan⟩

/-! ## Lists -/

theorem canonicalList_of_standsFor (h : List.Forall₂ StandsFor us ts) : CanonicalList us := by
  induction h with
  | nil => trivial
  | cons hfirst _ ih => exact ⟨hfirst.canonical, ih⟩

theorem listText_of_standsFor (h : List.Forall₂ StandsFor us ts) : listText us = listText ts := by
  induction h with
  | nil => rfl
  | cons hfirst hmore ih =>
    cases hmore with
    | nil => exact hfirst.text
    | cons => rw [listText, listText, hfirst.text, ih]

theorem listReferences_of_standsFor (h : List.Forall₂ StandsFor us ts) :
    (listNodes us).filterMap reference? ⊆ (listNodes ts).filterMap reference? := by
  induction h with
  | nil => exact List.Subset.refl _
  | cons hfirst _ ih =>
    rw [listNodes, listNodes, List.filterMap_append, List.filterMap_append]
    exact List.append_subset.mpr ⟨List.subset_append_of_subset_left _ hfirst.references,
      List.subset_append_of_subset_right _ ih⟩

theorem exists_list_standsFor (hstate : state.isCode) (h : ∀ t ∈ ts, t.IsFaithful)
    (hrest : Ends rest) (hscan : scanFrom state ((listText ts).toList ++ rest) = .ok tokens) :
    ∃ us, List.Forall₂ StandsFor us ts := by
  induction ts generalizing tokens with
  | nil => exact ⟨[], .nil⟩
  | cons t ts ih =>
    obtain ⟨ht, hts⟩ := List.forall_mem_cons.mp h
    cases ts with
    | nil =>
      obtain ⟨u, hu⟩ := ht hstate hrest hscan
      exact ⟨[u], .cons hu .nil⟩
    | cons next ts =>
      have htext : (listText (t :: next :: ts)).toList ++ rest
          = t.text.toList ++ ',' :: ' ' :: ((listText (next :: ts)).toList ++ rest) := by
        simp [listText]
      rw [htext] at hscan
      obtain ⟨u, hu, more, hmore⟩ :=
        ht.exists_standsFor hstate (ends_cons (by decide) (by decide) _) hscan
      obtain ⟨_, hmore⟩ := (Reads.comma hstate (.refl state _)).exists_ok hmore
      obtain ⟨us, hus⟩ := ih hts hmore
      exact ⟨u :: us, .cons hu hus⟩

theorem isFaithful_tuple (h : ∀ t ∈ ts, t.IsFaithful) : (tuple ts).IsFaithful := by
  intro state rest tokens hstate hrest hscan
  have htext : (tuple ts).text.toList ++ rest
      = '[' :: ((listText ts).toList ++ ']' :: rest) := by simp [text]
  rw [htext] at hscan
  obtain ⟨_, hmore⟩ := (Reads.single (advance_sign hstate rfl)).exists_ok hscan
  obtain ⟨us, hus⟩ :=
    exists_list_standsFor hstate h (ends_cons (by decide) (by decide) rest) hmore
  refine ⟨tuple us, canonicalList_of_standsFor hus, ?_, listReferences_of_standsFor hus⟩
  rw [text, text, listText_of_standsFor hus]

theorem isFaithful_call (hname : isName name) (h : ∀ t ∈ ts, t.IsFaithful) :
    (call name ts).IsFaithful := by
  intro state rest tokens hstate hrest hscan
  have htext : (call name ts).text.toList ++ rest
      = name.toList ++ '(' :: ((listText ts).toList ++ ')' :: rest) := by simp [text]
  have hident := (Bool.and_eq_true_iff.mp hname).1
  rw [htext] at hscan
  obtain ⟨_, hmore⟩ := (Reads.cons (advance_ident hstate hident
    (ends_cons (by decide) (by decide) _)) (.single (advance_sign hstate rfl))).exists_ok hscan
  obtain ⟨us, hus⟩ :=
    exists_list_standsFor hstate h (ends_cons (by decide) (by decide) rest) hmore
  refine ⟨call name us, ⟨hname, canonicalList_of_standsFor hus⟩, ?_,
    listReferences_of_standsFor hus⟩
  rw [text, text, listText_of_standsFor hus]

/-! ## Texts and numbers -/

/-- A quoted text stands for itself, or if it is empty, for one without pieces. -/
theorem exists_standsFor_ofString (text : String) :
    ∃ u : Term, u.StandsFor (.ofString text) ∧ ¬ u.isBareWord := by
  by_cases hempty : text = ""
  · subst hempty
    exact ⟨template [], ⟨trivial, rfl, List.nil_subset _⟩, Bool.false_ne_true⟩
  · exact ⟨.ofString text, .refl ⟨hempty, trivial, trivial⟩, Bool.false_ne_true⟩

theorem isFaithful_ofString (text : String) : (ofString text).IsFaithful := by
  obtain ⟨u, hu, -⟩ := exists_standsFor_ofString text
  exact hu.isFaithful

/-- A word stands for what it is the text of, and refers to nothing. -/
theorem standsFor_word (hname : isName name) (htext : name = t.text) :
    (traversal name []).StandsFor t where
  canonical := ⟨hname, trivial⟩
  text := by rw [text, stepsText, String.append_empty, htext]
  references := by
    show List.filterMap reference? [traversal name []] ⊆ _
    rw [List.filterMap_cons, reference?_word]
    exact List.nil_subset _

/-- A sign before what stands for a number without a sign. -/
theorem standsFor_negative {value : Number} (htight : u.tightness = 7)
    (hu : u.StandsFor (number value)) {negative : Number}
    (htext : negative.source = "-" ++ value.source) :
    (unary .neg u).StandsFor (number negative) where
  canonical := ⟨htight, hu.canonical⟩
  text := by
    show UnaryOperator.neg.text ++ u.text = negative.source
    rw [hu.text, htext]
    rfl
  references := hu.references

theorem isFaithful_number (value : Number) : (number value).IsFaithful := by
  cases value with
  | nan =>
    have hword : (traversal "NaN" []).StandsFor (number .nan) := standsFor_word (by decide) rfl
    exact hword.isFaithful
  | signed negative m =>
    by_cases hfinite : m.isFinite
    · have hplain : (number (.signed false m)).StandsFor (number (.signed false m)) := .refl hfinite
      cases negative with
      | false => exact hplain.isFaithful
      | true =>
        rcases Number.source_negative hfinite with hzero | hsign
        · exact StandsFor.isFaithful (u := number .zero) ⟨rfl, hzero.symm, List.nil_subset _⟩
        · exact (standsFor_negative rfl hplain hsign).isFaithful
    · have hsource (negative : Bool) :
          (Number.signed negative m).source = (if negative then "-" else "") ++ "inf" := by
        simp [Number.source, Number.shortInt?, Number.toInt?, Number.plain, Number.render, hfinite]
      have hplain : (traversal "inf" []).StandsFor (number (.signed false m)) :=
        standsFor_word (by decide) (hsource false).symm
      cases negative with
      | false => exact hplain.isFaithful
      | true =>
        refine (standsFor_negative rfl hplain ?_).isFaithful
        rw [hsource, hsource]
        rfl

/-! ## Objects -/

/-- An entry that stands for another. -/
inductive ItemStandsFor : Item → Item → Prop where
  | named {name : String} {u t : Term} (hname : isIdentifier name) (hvalue : u.StandsFor t) :
    ItemStandsFor (.named name u) (.named name t)
  | computed {key k u t : Term} (hbare : ¬ key.isBareWord) (hkey : key.StandsFor k)
    (hvalue : u.StandsFor t) : ItemStandsFor (.computed key u) (.computed k t)

/-- An entry under an identifier or a quoted text, with a faithful value. -/
def IsFaithfulItem : Item → Prop
  | .named name value => isIdentifier name ∧ value.IsFaithful
  | .computed key value => (∃ name, key = .ofString name) ∧ value.IsFaithful

def itemText : Item → String
  | .named name value => name ++ " = " ++ value.text
  | .computed key value => key.text ++ " = " ++ value.text

variable {item other : Item} {items others : List Item}

theorem itemsText_singleton (item : Item) : itemsText [item] = itemText item := by
  cases item <;> rfl

theorem itemsText_cons_cons (item next : Item) (items : List Item) :
    itemsText (item :: next :: items) = itemText item ++ ", " ++ itemsText (next :: items) := by
  cases item <;> rfl

theorem ItemStandsFor.text_eq (h : ItemStandsFor other item) : itemText other = itemText item := by
  cases h with
  | named _ hvalue => rw [itemText, itemText, hvalue.text]
  | computed _ hkey hvalue => rw [itemText, itemText, hkey.text, hvalue.text]

theorem itemsText_of_standsFor (h : List.Forall₂ ItemStandsFor others items) :
    itemsText others = itemsText items := by
  induction h with
  | nil => rfl
  | cons hfirst hmore ih =>
    cases hmore with
    | nil => rw [itemsText_singleton, itemsText_singleton, hfirst.text_eq]
    | cons => rw [itemsText_cons_cons, itemsText_cons_cons, hfirst.text_eq, ih]

theorem canonicalItems_of_standsFor (h : List.Forall₂ ItemStandsFor others items) :
    CanonicalItems others := by
  induction h with
  | nil => trivial
  | cons hfirst _ ih =>
    cases hfirst with
    | named hname hvalue => exact ⟨hname, hvalue.canonical, ih⟩
    | computed hbare hkey hvalue => exact ⟨hbare, hkey.canonical, hvalue.canonical, ih⟩

theorem itemsReferences_of_standsFor (h : List.Forall₂ ItemStandsFor others items) :
    (itemsNodes others).filterMap reference? ⊆ (itemsNodes items).filterMap reference? := by
  induction h with
  | nil => exact List.Subset.refl _
  | cons hfirst _ ih =>
    cases hfirst with
    | named _ hvalue =>
      simp only [itemsNodes, List.filterMap_append]
      exact List.append_subset.mpr ⟨List.subset_append_of_subset_left _ hvalue.references,
        List.subset_append_of_subset_right _ ih⟩
    | computed _ hkey hvalue =>
      simp only [itemsNodes, List.filterMap_append]
      refine List.append_subset.mpr ⟨List.append_subset.mpr ⟨?_, ?_⟩,
        List.subset_append_of_subset_right _ ih⟩
      · exact List.subset_append_of_subset_left _
          (List.subset_append_of_subset_left _ hkey.references)
      · exact List.subset_append_of_subset_left _
          (List.subset_append_of_subset_right _ hvalue.references)

theorem exists_item_standsFor (hstate : state.isCode) (h : IsFaithfulItem item) (hrest : Ends rest)
    (hscan : scanFrom state ((itemText item).toList ++ rest) = .ok tokens) :
    ∃ other, ItemStandsFor other item ∧ ∃ more, scanFrom state rest = .ok more := by
  have hsign {input : List Char} : Reads state (' ' :: '=' :: ' ' :: input) [.assign] state input :=
    .assign hstate (.refl state input)
  have hends {input : List Char} : Ends (' ' :: '=' :: ' ' :: input) :=
    ends_cons (by decide) (by decide) _
  cases item with
  | named name value =>
    obtain ⟨hname, hvalue⟩ := h
    have htext : (itemText (.named name value)).toList ++ rest
        = name.toList ++ ' ' :: '=' :: ' ' :: (value.text.toList ++ rest) := by simp [itemText]
    rw [htext] at hscan
    obtain ⟨_, hmore⟩ := (Reads.cons (advance_ident hstate hname hends) hsign).exists_ok hscan
    obtain ⟨u, hu, hmore⟩ := hvalue.exists_standsFor hstate hrest hmore
    exact ⟨_, .named hname hu, hmore⟩
  | computed key value =>
    obtain ⟨⟨name, rfl⟩, hvalue⟩ := h
    have htext : (itemText (.computed (ofString name) value)).toList ++ rest
        = (ofString name).text.toList ++ ' ' :: '=' :: ' ' :: (value.text.toList ++ rest) := by
      simp [itemText]
    obtain ⟨key, hkey, hbare⟩ := exists_standsFor_ofString name
    rw [htext, ← hkey.text] at hscan
    obtain ⟨_, hmore⟩ := ((reads_text hstate key hkey.canonical hends).trans hsign).exists_ok hscan
    obtain ⟨u, hu, hmore⟩ := hvalue.exists_standsFor hstate hrest hmore
    exact ⟨_, .computed hbare hkey hu, hmore⟩

theorem exists_items_standsFor (hstate : state.isCode) (h : ∀ item ∈ items, IsFaithfulItem item)
    (hrest : Ends rest) (hscan : scanFrom state ((itemsText items).toList ++ rest) = .ok tokens) :
    ∃ others, List.Forall₂ ItemStandsFor others items := by
  induction items generalizing tokens with
  | nil => exact ⟨[], .nil⟩
  | cons item items ih =>
    obtain ⟨hitem, hitems⟩ := List.forall_mem_cons.mp h
    cases items with
    | nil =>
      rw [itemsText_singleton] at hscan
      obtain ⟨other, hother, -⟩ := exists_item_standsFor hstate hitem hrest hscan
      exact ⟨[other], .cons hother .nil⟩
    | cons next items =>
      have htext : (itemsText (item :: next :: items)).toList ++ rest
          = (itemText item).toList ++ ',' :: ' ' ::
            ((itemsText (next :: items)).toList ++ rest) := by
        simp [itemsText_cons_cons]
      rw [htext] at hscan
      obtain ⟨other, hother, more, hmore⟩ :=
        exists_item_standsFor hstate hitem (ends_cons (by decide) (by decide) _) hscan
      obtain ⟨_, hmore⟩ := (Reads.comma hstate (.refl state _)).exists_ok hmore
      obtain ⟨others, hothers⟩ := ih hitems hmore
      exact ⟨other :: others, .cons hother hothers⟩

theorem isFaithful_object (h : ∀ item ∈ items, IsFaithfulItem item) :
    (object items).IsFaithful := by
  intro state rest tokens hstate hrest hscan
  have htext : (object items).text.toList ++ rest
      = '{' :: ((itemsText items).toList ++ '}' :: rest) := by simp [text]
  rw [htext] at hscan
  obtain ⟨_, hmore⟩ := (Reads.single (advance_openBrace hstate _)).exists_ok hscan
  obtain ⟨others, hothers⟩ := exists_items_standsFor (isCode_openBrace hstate) h
    (ends_cons (by decide) (by decide) rest) hmore
  refine ⟨object others, canonicalItems_of_standsFor hothers, ?_,
    itemsReferences_of_standsFor hothers⟩
  rw [text, text, itemsText_of_standsFor hothers]

/-! ## What was read from a text -/

theorem standsFor_named (hdistinct : ∀ node ∈ t.nodes, node.IsDistinct) (h : t.named.Canonical) :
    t.named.StandsFor t :=
  ⟨h, text_named t, fun _ href => references_named t hdistinct ▸ href⟩

theorem IsWritten.isFaithful (h : t.IsWritten) : t.IsFaithful := by
  intro state rest tokens hstate hrest hscan
  refine ⟨t.named, standsFor_named h.isDistinct ?_⟩
  rcases h with hinserted | ⟨parts, rfl, hparts⟩
  · rcases hinserted.canonical_or_stops with hcanonical | ⟨-, hstops⟩
    · exact hcanonical
    · exact absurd hscan (hstops state hstate rest tokens)
  · have htext : (template parts).text.toList ++ rest
        = '"' :: ((partsText parts).toList ++ '"' :: rest) := by simp [text]
    rw [htext] at hscan
    obtain ⟨_, hinside⟩ := (Reads.single (advance_openQuote hstate _)).exists_ok hscan
    exact canonicalParts_of_scan hparts hinside

end Term

end ClusterBlueprint
