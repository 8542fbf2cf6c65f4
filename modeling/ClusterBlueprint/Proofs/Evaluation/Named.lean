import ClusterBlueprint.Proofs.Evaluation.Yields
import ClusterBlueprint.Proofs.Expression.Reread

/-!
A name in place of infinity changes neither references nor values.

No traversal of an expression starts at the name of infinity, so wherever that name is a root it
stands for the number.  `Term.restore` puts the number back.  It gives the tree up to computed keys,
where the number and its name are the same key.
-/

namespace ClusterBlueprint

namespace Term

/-! ## Numbers in place of names -/

/-- Steps from a root, which is a number if it is the name of infinity. -/
def rooted (root : String) (steps : List Step) : Term :=
  if root = Number.infinityName then
    match steps with
    | [] => number Number.infinity
    | steps => relative (number Number.infinity) steps
  else traversal root steps

mutual

/-- The tree with infinity in place of its name. -/
def restore : Term → Term
  | null => null
  | bool value => bool value
  | number value => number value
  | template parts => template (restoreParts parts)
  | traversal root steps => rooted root (restoreSteps steps)
  | relative source steps => relative source.restore (restoreSteps steps)
  | call name args => call name (restoreList args)
  | tuple items => tuple (restoreList items)
  | object items => object (restoreItems items)
  | unary op operand => unary op operand.restore
  | binary op left right => binary op left.restore right.restore
  | conditional condition yes no => conditional condition.restore yes.restore no.restore
  | parens inner => parens inner.restore
termination_by structural t => t

def restoreParts : List Part → List Part
  | [] => []
  | .literal text :: rest => .literal text :: restoreParts rest
  | .interpolation term :: rest => .interpolation term.restore :: restoreParts rest
termination_by structural t => t

def restoreSteps : List Step → List Step
  | [] => []
  | .attribute name :: rest => .attribute name :: restoreSteps rest
  | .index term :: rest => .index term.restore :: restoreSteps rest
termination_by structural t => t

def restoreList : List Term → List Term
  | [] => []
  | term :: rest => term.restore :: restoreList rest
termination_by structural t => t

def restoreItems : List Item → List Item
  | [] => []
  | .named name value :: rest => .named name value.restore :: restoreItems rest
  | .computed key value :: rest => .computed key.restore value.restore :: restoreItems rest
termination_by structural t => t

end

theorem text_rooted (root : String) (steps : List Step) :
    (rooted root steps).text = root ++ stepsText steps := by
  unfold rooted
  split
  · next hroot =>
    cases steps with
    | nil => rw [hroot, text, Number.source_infinity, stepsText, String.append_empty]
    | cons step steps => rw [hroot, text, text, Number.source_infinity]
  · rfl

mutual

theorem text_restore : ∀ t : Term, t.restore.text = t.text
  | .null | .bool _ | .number _ => rfl
  | .template parts => by rw [restore, text, text, partsText_restore parts]
  | .traversal root steps => by rw [restore, text_rooted, text, stepsText_restore steps]
  | .relative source steps => by
    rw [restore, text, text, text_restore source, stepsText_restore steps]
  | .call name args => by rw [restore, text, text, listText_restore args]
  | .tuple items => by rw [restore, text, text, listText_restore items]
  | .object items => by rw [restore, text, text, itemsText_restore items]
  | .unary op operand => by rw [restore, text, text, text_restore operand]
  | .binary op left right => by rw [restore, text, text, text_restore left, text_restore right]
  | .conditional condition yes no => by
    rw [restore, text, text, text_restore condition, text_restore yes, text_restore no]
  | .parens inner => by rw [restore, text, text, text_restore inner]
termination_by structural t => t

theorem partsText_restore : ∀ parts : List Part, partsText (restoreParts parts) = partsText parts
  | [] => rfl
  | .literal text :: parts => by
    rw [restoreParts, partsText, partsText, partsText_restore parts]
  | .interpolation t :: parts => by
    rw [restoreParts, partsText, partsText, text_restore t, partsText_restore parts]
termination_by structural t => t

theorem stepsText_restore : ∀ steps : List Step, stepsText (restoreSteps steps) = stepsText steps
  | [] => rfl
  | .attribute name :: steps => by
    rw [restoreSteps, stepsText, stepsText, stepsText_restore steps]
  | .index t :: steps => by
    rw [restoreSteps, stepsText, stepsText, text_restore t, stepsText_restore steps]
termination_by structural t => t

theorem listText_restore : ∀ items : List Term, listText (restoreList items) = listText items
  | [] => rfl
  | [t] => text_restore t
  | t :: next :: items => by
    have hrest := listText_restore (next :: items)
    rw [restoreList] at hrest
    rw [restoreList, restoreList, listText, listText, text_restore t, hrest]
termination_by structural t => t

theorem itemsText_restore : ∀ items : List Item, itemsText (restoreItems items) = itemsText items
  | [] => rfl
  | [.named name value] => by
    rw [restoreItems, restoreItems, itemsText, itemsText, text_restore value]
  | [.computed key value] => by
    rw [restoreItems, restoreItems, itemsText, itemsText, text_restore key, text_restore value]
  | .named name value :: next :: items => by
    have hrest := itemsText_restore (next :: items)
    cases next <;>
      simp only [restoreItems] at hrest ⊢ <;>
      rw [itemsText, itemsText, text_restore value, hrest]
  | .computed key value :: next :: items => by
    have hrest := itemsText_restore (next :: items)
    cases next <;>
      simp only [restoreItems] at hrest ⊢ <;>
      rw [itemsText, itemsText, text_restore key, text_restore value, hrest]
termination_by structural t => t

end

/-! ## Nodes whose words have one meaning -/

/-- A node in which the name of infinity can be told from other words: it is no root, steps lead
into a source, and no computed key is a bare word. -/
def IsDistinct : Term → Prop
  | traversal root _ => root ≠ Number.infinityName
  | relative source _ => source.isSource
  | object items => ∀ key value, .computed key value ∈ items → ¬ key.isBareWord
  | _ => True

/-- What is named like infinity and is no bare word stands for infinity. -/
theorem eq_infinityName_of_named {t : Term} {root : String} (hnode : t.IsDistinct)
    (hword : ¬ t.isBareWord) (hnamed : t.named = traversal root []) :
    root = Number.infinityName := by
  cases t with
  | number value =>
    rw [named] at hnamed
    split at hnamed
    · exact (Term.traversal.inj hnamed).1.symm
    · simp at hnamed
  | traversal root' steps =>
    rcases steps with _ | ⟨⟨name⟩ | ⟨t⟩, steps⟩
    · exact absurd rfl hword
    · simp [named, namedSteps] at hnamed
    · simp [named, namedSteps] at hnamed
  | relative source steps =>
    rw [named] at hnamed
    rcases named_of_isSource hnode with heq | hsource
    · rw [heq] at hnamed
      exact (Term.traversal.inj hnamed).1.symm
    · simp [stepping_of_isSource hsource] at hnamed
  | _ => simp [named] at hnamed

theorem not_isBareWord_of_canonicalItems {items : List Item}
    (h : CanonicalItems (mapItems Number.bounded items)) :
    ∀ key value, .computed key value ∈ items → ¬ key.isBareWord := by
  intro key value hmem
  induction items with
  | nil => exact absurd hmem List.not_mem_nil
  | cons item items ih =>
    cases item with
    | named name first =>
      rcases List.mem_cons.mp hmem with heq | hmem
      · cases heq
      · exact ih h.2.2 hmem
    | computed first other =>
      rcases List.mem_cons.mp hmem with heq | hmem
      · cases heq
        have hword := h.1
        rwa [isBareWord_mapNumbers] at hword
      · exact ih h.2.2.2 hmem

/-- The nodes of an expression that would be canonical without infinity are distinct. -/
theorem isDistinct_of_canonical {t : Term} (hcanonical : (t.mapNumbers Number.bounded).Canonical)
    (hreferences : (⟨t⟩ : Expression).IsWellReferenced) : ∀ node ∈ t.nodes, node.IsDistinct := by
  intro node hnode
  have hmem : node.mapNumbers Number.bounded ∈ (t.mapNumbers Number.bounded).nodes := by
    rw [nodes_mapNumbers]
    exact List.mem_map_of_mem hnode
  have hc := Canonical.of_mem_nodes _ hcanonical _ hmem
  cases node with
  | traversal root steps =>
    rintro rfl
    obtain ⟨_, hread⟩ := hreferences _ _ hnode
    exact absurd hread (by simp [Reference.ofTraversal, Number.infinityName, Reference.globalRoot,
      Reference.moduleRoot])
  | relative source steps => exact (isSource_mapNumbers Number.bounded source).symm.trans hc.2.1
  | object items => exact not_isBareWord_of_canonicalItems hc
  | _ => trivial

/-! ## Values -/

section Values

variable {bindings : SortedMap Value}

/-- Steps from the name of infinity are steps into the number. -/
theorem eval_rooted_infinity (steps : List Step) :
    (rooted Number.infinityName steps).eval bindings
      = evalSteps bindings (.number Number.infinity) steps := by
  unfold rooted
  rw [if_pos rfl]
  cases steps with
  | nil => rfl
  | cons step steps => simp only [eval, pure_bind]

theorem evalItems_computed {key value : Term} {name : String} {fields : Fields Value}
    {items : List Item} (hkey : key.eval bindings >>= Value.keyText = pure name) :
    evalItems bindings fields (.computed key value :: items)
      = evalItems bindings fields (.named name value :: items) := by
  simp only [evalItems, ← bind_assoc, hkey, pure_bind]

mutual

/-- The value of a tree is that of the tree in which the name of infinity stood for infinity. -/
theorem eval_restore_named : ∀ t : Term, (∀ node ∈ t.nodes, node.IsDistinct) →
    t.named.restore.eval bindings = t.eval bindings
  | .null, _ | .bool _, _ => rfl
  | .number value, _ => by
    rw [named]
    split
    · next heq => rw [heq]; rfl
    · rfl
  | .template parts, h => by
    have hparts := evalParts_restore_named parts (List.forall_mem_cons.mp h).2
    simp only [named, restore, eval, hparts]
  | .traversal root steps, h => by
    obtain ⟨hroot, hnodes⟩ := List.forall_mem_cons.mp h
    have htext : (traversal root (restoreSteps (namedSteps steps))).text
        = (traversal root steps).text := by
      rw [text, text, stepsText_restore, stepsText_named]
    rw [named, restore]
    unfold rooted
    rw [if_neg hroot]
    match steps with
    | [] => rfl
    | .index t :: steps =>
      simp only [namedSteps, restoreSteps] at htext ⊢
      simp only [eval, htext]
    | .attribute name :: steps =>
      have hsteps := evalSteps_restore_named steps hnodes
      simp only [namedSteps, restoreSteps] at htext ⊢
      simp only [eval, htext, hsteps]
  | .relative source steps, h => by
    obtain ⟨hnode, hnodes⟩ := List.forall_mem_cons.mp h
    obtain ⟨hsource, hsteps⟩ := List.forall_mem_append.mp hnodes
    have heval := eval_restore_named source hsource
    have hrest := evalSteps_restore_named steps hsteps
    rw [named]
    rcases named_of_isSource hnode with heq | hstands
    · rw [heq] at heval ⊢
      show (rooted Number.infinityName _).eval bindings = _
      rw [eval_rooted_infinity, eval, ← heval, hrest]
      rfl
    · rw [stepping_of_isSource hstands]
      simp only [restore, eval, heval, hrest]
  | .call name args, h => by
    have hargs := evalList_restore_named args (List.forall_mem_cons.mp h).2
    simp only [named, restore, eval, hargs]
  | .tuple items, h => by
    have hitems := evalList_restore_named items (List.forall_mem_cons.mp h).2
    simp only [named, restore, eval, hitems]
  | .object items, h => by
    obtain ⟨hnode, hnodes⟩ := List.forall_mem_cons.mp h
    have hitems := evalItems_restore_named items hnode hnodes
    simp only [named, restore, eval, hitems]
  | .unary op operand, h => by
    have hoperand := eval_restore_named operand (List.forall_mem_cons.mp h).2
    simp only [named, restore, eval, hoperand]
  | .binary op left right, h => by
    obtain ⟨hleft, hright⟩ := List.forall_mem_append.mp (List.forall_mem_cons.mp h).2
    have heval := eval_restore_named left hleft
    have heval' := eval_restore_named right hright
    simp only [named, restore, eval, heval, heval']
  | .conditional condition yes no, h => by
    obtain ⟨hfirst, hno⟩ := List.forall_mem_append.mp (List.forall_mem_cons.mp h).2
    obtain ⟨hcondition, hyes⟩ := List.forall_mem_append.mp hfirst
    have heval := eval_restore_named condition hcondition
    have hevalYes := eval_restore_named yes hyes
    have hevalNo := eval_restore_named no hno
    simp only [named, restore, eval, heval, hevalYes, hevalNo]
  | .parens inner, h => by
    have hinner := eval_restore_named inner (List.forall_mem_cons.mp h).2
    simp only [named, restore, eval, hinner]
termination_by structural t => t

theorem evalParts_restore_named : ∀ parts : List Part,
    (∀ node ∈ partsNodes parts, node.IsDistinct) →
      evalParts bindings (restoreParts (namedParts parts)) = evalParts bindings parts
  | [], _ => rfl
  | .literal text :: parts, h => by
    have hparts := evalParts_restore_named parts h
    simp only [namedParts, restoreParts, evalParts, hparts]
  | .interpolation t :: parts, h => by
    obtain ⟨hterm, hparts⟩ := List.forall_mem_append.mp h
    have heval := eval_restore_named t hterm
    have hrest := evalParts_restore_named parts hparts
    simp only [namedParts, restoreParts, evalParts, heval, hrest]
termination_by structural t => t

theorem evalSteps_restore_named : ∀ steps : List Step,
    (∀ node ∈ stepsNodes steps, node.IsDistinct) → ∀ value,
      evalSteps bindings value (restoreSteps (namedSteps steps)) = evalSteps bindings value steps
  | [], _, _ => rfl
  | .attribute name :: steps, h, value => by
    have hrest := evalSteps_restore_named steps h
    simp only [namedSteps, restoreSteps, evalSteps, hrest]
  | .index t :: steps, h, value => by
    obtain ⟨hterm, hsteps⟩ := List.forall_mem_append.mp h
    have heval := eval_restore_named t hterm
    have hrest := evalSteps_restore_named steps hsteps
    simp only [namedSteps, restoreSteps, evalSteps, heval, hrest]
termination_by structural t => t

theorem evalList_restore_named : ∀ items : List Term,
    (∀ node ∈ listNodes items, node.IsDistinct) →
      evalList bindings (restoreList (namedList items)) = evalList bindings items
  | [], _ => rfl
  | t :: items, h => by
    obtain ⟨hterm, hitems⟩ := List.forall_mem_append.mp h
    have heval := eval_restore_named t hterm
    have hrest := evalList_restore_named items hitems
    simp only [namedList, restoreList, evalList, heval, hrest]
termination_by structural t => t

theorem evalItems_restore_named : ∀ items : List Item,
    (∀ key value, .computed key value ∈ items → ¬ key.isBareWord) →
    (∀ node ∈ itemsNodes items, node.IsDistinct) → ∀ fields,
      evalItems bindings fields (restoreItems (namedItems items)) = evalItems bindings fields items
  | [], _, _, _ => rfl
  | .named name t :: items, hkeys, h, fields => by
    obtain ⟨hterm, hitems⟩ := List.forall_mem_append.mp h
    have heval := eval_restore_named t hterm
    have hrest := evalItems_restore_named items
      (fun key value hmem => hkeys key value (List.mem_cons_of_mem _ hmem)) hitems
    simp only [namedItems, restoreItems, evalItems, heval, hrest]
  | .computed key t :: items, hkeys, h, fields => by
    obtain ⟨hfirst, hitems⟩ := List.forall_mem_append.mp h
    obtain ⟨hkey, hterm⟩ := List.forall_mem_append.mp hfirst
    have hword := hkeys key t List.mem_cons_self
    have hevalKey := eval_restore_named key hkey
    have heval := eval_restore_named t hterm
    have hrest := evalItems_restore_named items
      (fun key value hmem => hkeys key value (List.mem_cons_of_mem _ hmem)) hitems
    rw [namedItems]
    by_cases hnamed : key.named.isBareWord
    · obtain ⟨root, heq⟩ := (isBareWord_of_named hnamed).resolve_left hword
      -- The word that the key is named is infinity, whose text as a key is that word.
      obtain rfl := eq_infinityName_of_named (hkey key (mem_nodes_self key)) hword heq
      rw [heq] at hevalKey ⊢
      have hname : key.eval bindings >>= Value.keyText = pure Number.infinityName := by
        rw [← hevalKey]
        rfl
      rw [evalItems_computed hname]
      simp only [entry, restoreItems, evalItems, heval, hrest]
    · rw [entry_of_not_isBareWord hnamed]
      simp only [restoreItems, evalItems, hevalKey, heval, hrest]
termination_by structural t => t

end

end Values

/-! ## References -/

theorem names_namedSteps (steps : List Step) :
    (namedSteps steps).map Step.name? = steps.map Step.name? := by
  induction steps with
  | nil => rfl
  | cons step steps ih => cases step <;> exact congrArg (_ :: ·) ih

theorem reference?_eq_some {root : String} {steps : List Step} {reference : Reference} :
    (traversal root steps).reference? = some reference
      ↔ Reference.ofTraversal root steps = .ok reference := by
  rw [reference?]
  cases Reference.ofTraversal root steps <;> simp [Except.toOption]

theorem reference?_named (root : String) (steps : List Step) :
    (traversal root (namedSteps steps)).reference? = (traversal root steps).reference? := by
  ext reference
  rw [reference?_eq_some, reference?_eq_some]
  exact Reference.ofTraversal_congr root (names_namedSteps steps) reference

/-- A word is no reference. -/
theorem reference?_word (root : String) : (traversal root []).reference? = none := by
  unfold reference? Reference.ofTraversal
  dsimp only
  by_cases hglobal : root = Reference.globalRoot
  · rw [if_pos hglobal]
    rfl
  · rw [if_neg hglobal]
    split <;> rfl

mutual

/-- A tree refers to what it refers to with the name in place of infinity. -/
theorem references_named : ∀ t : Term, (∀ node ∈ t.nodes, node.IsDistinct) →
    t.named.nodes.filterMap reference? = t.nodes.filterMap reference?
  | .null, _ | .bool _, _ => rfl
  | .number value, _ => by
    rw [named]
    split <;> rfl
  | .template parts, h => partsReferences_named parts (List.forall_mem_cons.mp h).2
  | .traversal root steps, h => by
    rw [named, nodes, nodes, List.filterMap_cons, List.filterMap_cons, reference?_named,
      stepsReferences_named steps (List.forall_mem_cons.mp h).2]
  | .relative source steps, h => by
    obtain ⟨hnode, hnodes⟩ := List.forall_mem_cons.mp h
    obtain ⟨hsource, hsteps⟩ := List.forall_mem_append.mp hnodes
    have hfirst := references_named source hsource
    have hrest := stepsReferences_named steps hsteps
    rw [named]
    rcases named_of_isSource hnode with heq | hstands
    · rw [heq] at hfirst ⊢
      show (stepsNodes (namedSteps steps)).filterMap reference?
        = (source.nodes ++ stepsNodes steps).filterMap reference?
      rw [List.filterMap_append, ← hfirst, hrest]
      rfl
    · rw [stepping_of_isSource hstands]
      show (source.named.nodes ++ stepsNodes (namedSteps steps)).filterMap reference?
        = (source.nodes ++ stepsNodes steps).filterMap reference?
      rw [List.filterMap_append, List.filterMap_append, hfirst, hrest]
  | .call name args, h => listReferences_named args (List.forall_mem_cons.mp h).2
  | .tuple items, h => listReferences_named items (List.forall_mem_cons.mp h).2
  | .object items, h => itemsReferences_named items (List.forall_mem_cons.mp h).2
  | .unary op operand, h => references_named operand (List.forall_mem_cons.mp h).2
  | .binary op left right, h => by
    obtain ⟨hleft, hright⟩ := List.forall_mem_append.mp (List.forall_mem_cons.mp h).2
    show (left.named.nodes ++ right.named.nodes).filterMap reference?
      = (left.nodes ++ right.nodes).filterMap reference?
    rw [List.filterMap_append, List.filterMap_append, references_named left hleft,
      references_named right hright]
  | .conditional condition yes no, h => by
    obtain ⟨hfirst, hno⟩ := List.forall_mem_append.mp (List.forall_mem_cons.mp h).2
    obtain ⟨hcondition, hyes⟩ := List.forall_mem_append.mp hfirst
    show (condition.named.nodes ++ yes.named.nodes ++ no.named.nodes).filterMap reference?
      = (condition.nodes ++ yes.nodes ++ no.nodes).filterMap reference?
    simp only [List.filterMap_append, references_named condition hcondition,
      references_named yes hyes, references_named no hno]
  | .parens inner, h => references_named inner (List.forall_mem_cons.mp h).2
termination_by structural t => t

theorem partsReferences_named : ∀ parts : List Part,
    (∀ node ∈ partsNodes parts, node.IsDistinct) →
      (partsNodes (namedParts parts)).filterMap reference?
        = (partsNodes parts).filterMap reference?
  | [], _ => rfl
  | .literal _ :: parts, h => partsReferences_named parts h
  | .interpolation t :: parts, h => by
    obtain ⟨hterm, hparts⟩ := List.forall_mem_append.mp h
    rw [namedParts, partsNodes, partsNodes, List.filterMap_append, List.filterMap_append,
      references_named t hterm, partsReferences_named parts hparts]
termination_by structural t => t

theorem stepsReferences_named : ∀ steps : List Step,
    (∀ node ∈ stepsNodes steps, node.IsDistinct) →
      (stepsNodes (namedSteps steps)).filterMap reference?
        = (stepsNodes steps).filterMap reference?
  | [], _ => rfl
  | .attribute _ :: steps, h => stepsReferences_named steps h
  | .index t :: steps, h => by
    obtain ⟨hterm, hsteps⟩ := List.forall_mem_append.mp h
    rw [namedSteps, stepsNodes, stepsNodes, List.filterMap_append, List.filterMap_append,
      references_named t hterm, stepsReferences_named steps hsteps]
termination_by structural t => t

theorem listReferences_named : ∀ items : List Term,
    (∀ node ∈ listNodes items, node.IsDistinct) →
      (listNodes (namedList items)).filterMap reference?
        = (listNodes items).filterMap reference?
  | [], _ => rfl
  | t :: items, h => by
    obtain ⟨hterm, hitems⟩ := List.forall_mem_append.mp h
    rw [namedList, listNodes, listNodes, List.filterMap_append, List.filterMap_append,
      references_named t hterm, listReferences_named items hitems]
termination_by structural t => t

theorem itemsReferences_named : ∀ items : List Item,
    (∀ node ∈ itemsNodes items, node.IsDistinct) →
      (itemsNodes (namedItems items)).filterMap reference?
        = (itemsNodes items).filterMap reference?
  | [], _ => rfl
  | .named _ value :: items, h => by
    obtain ⟨hvalue, hitems⟩ := List.forall_mem_append.mp h
    rw [namedItems, itemsNodes, itemsNodes, List.filterMap_append, List.filterMap_append,
      references_named value hvalue, itemsReferences_named items hitems]
  | .computed key value :: items, h => by
    obtain ⟨hfirst, hitems⟩ := List.forall_mem_append.mp h
    obtain ⟨hkey, hvalue⟩ := List.forall_mem_append.mp hfirst
    have hentry :
        (itemsNodes (entry key.named value.named :: namedItems items)).filterMap reference?
        = (key.named.nodes ++ value.named.nodes
          ++ itemsNodes (namedItems items)).filterMap reference? := by
      unfold entry
      split
      · next root heq =>
        rw [heq]
        show _ = ((traversal root [] :: value.named.nodes)
          ++ itemsNodes (namedItems items)).filterMap reference?
        rw [List.cons_append, List.filterMap_cons, reference?_word]
        rfl
      · rfl
    rw [namedItems, hentry, itemsNodes]
    simp only [List.filterMap_append, references_named key hkey, references_named value hvalue,
      itemsReferences_named items hitems]
termination_by structural t => t

end

end Term

/-- Expressions whose trees are the same with the name in place of infinity have the same references
and the same values. -/
theorem Expression.eq_of_named_eq {a b : Expression} (h : a.term.named = b.term.named)
    (ha : ∀ node ∈ a.term.nodes, node.IsDistinct) (hb : ∀ node ∈ b.term.nodes, node.IsDistinct) :
    a.references = b.references ∧ ∀ bindings, a.eval bindings = b.eval bindings := by
  constructor
  · rw [references_eq, references_eq, ← Term.references_named a.term ha, h,
      Term.references_named b.term hb]
  · intro bindings
    show a.term.eval bindings = b.term.eval bindings
    rw [← Term.eval_restore_named a.term ha, h, Term.eval_restore_named b.term hb]

end ClusterBlueprint
