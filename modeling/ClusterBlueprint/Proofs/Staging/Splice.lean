import ClusterBlueprint.Proofs.Expression.Canonical
import ClusterBlueprint.Proofs.References
import ClusterBlueprint.Staging

/-!
Trees with texts in place of their staging calls.

A staging call inside another one belongs to the argument of that one, so only the outermost calls
count.  Putting texts in their place leaves every other node as it is: the tree stays canonical and
refers to nothing new.
-/

namespace ClusterBlueprint.Term

def isStaging : Term → Bool
  | call name _ => name = Function.stageName
  | _ => false

theorem isStaging_call (args : List Term) : (call Function.stageName args).isStaging :=
  decide_eq_true (Eq.refl Function.stageName)

mutual

/-- The staging calls that stand in no other one, from left to right. -/
def stagingCalls : Term → List Term
  | null | bool _ | number _ => []
  | template parts => partsCalls parts
  | traversal _ steps => stepsCalls steps
  | relative source steps => source.stagingCalls ++ stepsCalls steps
  | call name args => if name = Function.stageName then [call name args] else listCalls args
  | tuple items => listCalls items
  | object items => itemsCalls items
  | unary _ operand => operand.stagingCalls
  | binary _ left right => left.stagingCalls ++ right.stagingCalls
  | conditional condition yes no =>
    condition.stagingCalls ++ (yes.stagingCalls ++ no.stagingCalls)
  | parens inner => inner.stagingCalls
termination_by structural t => t

def partsCalls : List Part → List Term
  | [] => []
  | .literal _ :: rest => partsCalls rest
  | .interpolation term :: rest => term.stagingCalls ++ partsCalls rest
termination_by structural t => t

def stepsCalls : List Step → List Term
  | [] => []
  | .attribute _ :: rest => stepsCalls rest
  | .index term :: rest => term.stagingCalls ++ stepsCalls rest
termination_by structural t => t

def listCalls : List Term → List Term
  | [] => []
  | term :: rest => term.stagingCalls ++ listCalls rest
termination_by structural t => t

def itemsCalls : List Item → List Term
  | [] => []
  | .named _ value :: rest => value.stagingCalls ++ itemsCalls rest
  | .computed key value :: rest => key.stagingCalls ++ (value.stagingCalls ++ itemsCalls rest)
termination_by structural t => t

end

variable {f : Term → String}

mutual

/-- The tree with a text in place of every outermost staging call. -/
def splice (f : Term → String) : Term → Term
  | null => null
  | bool value => bool value
  | number value => number value
  | template parts => template (spliceParts f parts)
  | traversal root steps => traversal root (spliceSteps f steps)
  | relative source steps => relative (source.splice f) (spliceSteps f steps)
  | call name args =>
    if name = Function.stageName then ofString (f (call name args))
    else call name (spliceList f args)
  | tuple items => tuple (spliceList f items)
  | object items => object (spliceItems f items)
  | unary op operand => unary op (operand.splice f)
  | binary op left right => binary op (left.splice f) (right.splice f)
  | conditional condition yes no =>
    conditional (condition.splice f) (yes.splice f) (no.splice f)
  | parens inner => parens (inner.splice f)
termination_by structural t => t

def spliceParts (f : Term → String) : List Part → List Part
  | [] => []
  | .literal text :: rest => .literal text :: spliceParts f rest
  | .interpolation term :: rest => .interpolation (term.splice f) :: spliceParts f rest
termination_by structural t => t

def spliceSteps (f : Term → String) : List Step → List Step
  | [] => []
  | .attribute name :: rest => .attribute name :: spliceSteps f rest
  | .index term :: rest => .index (term.splice f) :: spliceSteps f rest
termination_by structural t => t

def spliceList (f : Term → String) : List Term → List Term
  | [] => []
  | term :: rest => term.splice f :: spliceList f rest
termination_by structural t => t

def spliceItems (f : Term → String) : List Item → List Item
  | [] => []
  | .named name value :: rest => .named name (value.splice f) :: spliceItems f rest
  | .computed key value :: rest =>
    .computed (key.splice f) (value.splice f) :: spliceItems f rest
termination_by structural t => t

end

theorem splice_of_isStaging {t : Term} (h : t.isStaging) : t.splice f = ofString (f t) := by
  cases t with
  | call name args => exact if_pos (of_decide_eq_true h)
  | _ => exact absurd h Bool.false_ne_true

/-! ## Where the calls stand -/

/-- Calls that stand with all that is in them among some nodes, and there are none only if there is
no staging call at all. -/
structure AreCalls (calls nodes : List Term) : Prop where
  isStaging : ∀ call ∈ calls, call.isStaging
  subset : ∀ call ∈ calls, call.nodes ⊆ nodes
  complete : ∀ node ∈ nodes, node.isStaging → calls ≠ []

namespace AreCalls

variable {calls others nodes more : List Term} {t : Term}

theorem nil : AreCalls [] [] :=
  ⟨List.forall_mem_nil _, List.forall_mem_nil _, List.forall_mem_nil _⟩

theorem cons (ht : t.isStaging = false) (h : AreCalls calls nodes) :
    AreCalls calls (t :: nodes) where
  isStaging := h.isStaging
  subset call hcall := List.subset_cons_of_subset t (h.subset call hcall)
  complete := List.forall_mem_cons.mpr
    ⟨fun hs => absurd (ht.symm.trans hs) Bool.false_ne_true, h.complete⟩

theorem append (h : AreCalls calls nodes) (hmore : AreCalls others more) :
    AreCalls (calls ++ others) (nodes ++ more) where
  isStaging := List.forall_mem_append.mpr ⟨h.isStaging, hmore.isStaging⟩
  subset := List.forall_mem_append.mpr
    ⟨fun call hcall => List.subset_append_of_subset_left more (h.subset call hcall),
      fun call hcall => List.subset_append_of_subset_right nodes (hmore.subset call hcall)⟩
  complete := List.forall_mem_append.mpr
    ⟨fun node hnode hs => List.append_ne_nil_of_left_ne_nil (h.complete node hnode hs) _,
      fun node hnode hs => List.append_ne_nil_of_right_ne_nil _ (hmore.complete node hnode hs)⟩

end AreCalls

mutual

theorem areCalls_nodes : ∀ t : Term, AreCalls t.stagingCalls t.nodes
  | .null | .bool _ | .number _ => .cons rfl .nil
  | .template parts => .cons rfl (areCalls_partsNodes parts)
  | .traversal _ steps => .cons rfl (areCalls_stepsNodes steps)
  | .relative source steps =>
    .cons rfl ((areCalls_nodes source).append (areCalls_stepsNodes steps))
  | .call name args => by
    rw [stagingCalls, nodes]
    split
    · next hname =>
      refine ⟨fun call hcall => ?_, fun call hcall => ?_, fun _ _ _ => List.cons_ne_nil _ _⟩
      · obtain rfl := List.mem_singleton.mp hcall
        exact decide_eq_true hname
      · obtain rfl := List.mem_singleton.mp hcall
        exact List.Subset.refl _
    · next hname => exact .cons (decide_eq_false hname) (areCalls_listNodes args)
  | .tuple items => .cons rfl (areCalls_listNodes items)
  | .object items => .cons rfl (areCalls_itemsNodes items)
  | .unary _ operand => .cons rfl (areCalls_nodes operand)
  | .binary _ left right => .cons rfl ((areCalls_nodes left).append (areCalls_nodes right))
  | .conditional condition yes no => by
    rw [stagingCalls, nodes, ← List.append_assoc]
    exact .cons rfl (((areCalls_nodes condition).append (areCalls_nodes yes)).append
      (areCalls_nodes no))
  | .parens inner => .cons rfl (areCalls_nodes inner)
termination_by structural t => t

theorem areCalls_partsNodes : ∀ parts : List Part, AreCalls (partsCalls parts) (partsNodes parts)
  | [] => .nil
  | .literal _ :: parts => areCalls_partsNodes parts
  | .interpolation t :: parts => (areCalls_nodes t).append (areCalls_partsNodes parts)
termination_by structural t => t

theorem areCalls_stepsNodes : ∀ steps : List Step, AreCalls (stepsCalls steps) (stepsNodes steps)
  | [] => .nil
  | .attribute _ :: steps => areCalls_stepsNodes steps
  | .index t :: steps => (areCalls_nodes t).append (areCalls_stepsNodes steps)
termination_by structural t => t

theorem areCalls_listNodes : ∀ items : List Term, AreCalls (listCalls items) (listNodes items)
  | [] => .nil
  | t :: items => (areCalls_nodes t).append (areCalls_listNodes items)
termination_by structural t => t

theorem areCalls_itemsNodes : ∀ items : List Item, AreCalls (itemsCalls items) (itemsNodes items)
  | [] => .nil
  | .named _ value :: items => (areCalls_nodes value).append (areCalls_itemsNodes items)
  | .computed key value :: items => by
    rw [itemsCalls, itemsNodes, ← List.append_assoc]
    exact ((areCalls_nodes key).append (areCalls_nodes value)).append (areCalls_itemsNodes items)
termination_by structural t => t

end

theorem stagingCalls_eq_nil {t : Term} :
    t.stagingCalls = [] ↔ ∀ node ∈ t.nodes, node.isStaging = false := by
  constructor
  · intro h node hnode
    exact Bool.eq_false_iff.mpr fun hs => (areCalls_nodes t).complete node hnode hs h
  · intro h
    refine List.eq_nil_iff_forall_not_mem.mpr fun call hcall => ?_
    have hnode := (areCalls_nodes t).subset call hcall (mem_nodes_self call)
    have hs := (areCalls_nodes t).isStaging call hcall
    exact absurd ((h call hnode).symm.trans hs) Bool.false_ne_true

/-! ## The nodes after splicing -/

/-- Each of some nodes is a text, or comes from a node that is no staging call. -/
def ComeFrom (f : Term → String) (images originals : List Term) : Prop :=
  ∀ image ∈ images, (∃ text, image = ofString text)
    ∨ ∃ original ∈ originals, original.isStaging = false ∧ image = original.splice f

namespace ComeFrom

variable {images originals more others : List Term} {t : Term}

theorem mono (h : ComeFrom f images originals) (hsub : originals ⊆ others) :
    ComeFrom f images others := by
  intro image himage
  refine (h image himage).imp_right ?_
  rintro ⟨original, hmem, hrest⟩
  exact ⟨original, hsub hmem, hrest⟩

theorem nil : ComeFrom f [] [] := List.forall_mem_nil _

theorem cons (ht : t.isStaging = false) (h : ComeFrom f images originals) :
    ComeFrom f (t.splice f :: images) (t :: originals) :=
  List.forall_mem_cons.mpr ⟨.inr ⟨t, List.mem_cons_self, ht, rfl⟩,
    h.mono (List.subset_cons_self _ _)⟩

theorem append (h : ComeFrom f images originals) (hmore : ComeFrom f more others) :
    ComeFrom f (images ++ more) (originals ++ others) :=
  List.forall_mem_append.mpr ⟨h.mono (List.subset_append_left _ _),
    hmore.mono (List.subset_append_right _ _)⟩

end ComeFrom

mutual

theorem comeFrom_nodes : ∀ t : Term, ComeFrom f (t.splice f).nodes t.nodes
  | .null => .cons (t := .null) rfl .nil
  | .bool value => .cons (t := .bool value) rfl .nil
  | .number value => .cons (t := .number value) rfl .nil
  | .template parts => .cons (t := .template parts) rfl (comeFrom_partsNodes parts)
  | .traversal root steps => .cons (t := .traversal root steps) rfl (comeFrom_stepsNodes steps)
  | .relative source steps => .cons (t := .relative source steps) rfl
    ((comeFrom_nodes source).append (comeFrom_stepsNodes steps))
  | .call name args => by
    by_cases hname : name = Function.stageName
    · have hcall : (call name args).isStaging := decide_eq_true hname
      rw [splice_of_isStaging hcall]
      exact List.forall_mem_singleton.mpr (.inl ⟨_, rfl⟩)
    · have hsplice : (call name args).splice f = call name (spliceList f args) := if_neg hname
      have hcall : (call name args).isStaging = false := decide_eq_false hname
      have hnodes := ComeFrom.cons (f := f) hcall (comeFrom_listNodes args)
      rw [hsplice] at hnodes ⊢
      exact hnodes
  | .tuple items => .cons (t := .tuple items) rfl (comeFrom_listNodes items)
  | .object items => .cons (t := .object items) rfl (comeFrom_itemsNodes items)
  | .unary op operand => .cons (t := .unary op operand) rfl (comeFrom_nodes operand)
  | .binary op left right => .cons (t := .binary op left right) rfl
    ((comeFrom_nodes left).append (comeFrom_nodes right))
  | .conditional condition yes no => .cons (t := .conditional condition yes no) rfl
    (((comeFrom_nodes condition).append (comeFrom_nodes yes)).append (comeFrom_nodes no))
  | .parens inner => .cons (t := .parens inner) rfl (comeFrom_nodes inner)
termination_by structural t => t

theorem comeFrom_partsNodes : ∀ parts : List Part,
    ComeFrom f (partsNodes (spliceParts f parts)) (partsNodes parts)
  | [] => .nil
  | .literal _ :: parts => comeFrom_partsNodes parts
  | .interpolation t :: parts => (comeFrom_nodes t).append (comeFrom_partsNodes parts)
termination_by structural t => t

theorem comeFrom_stepsNodes : ∀ steps : List Step,
    ComeFrom f (stepsNodes (spliceSteps f steps)) (stepsNodes steps)
  | [] => .nil
  | .attribute _ :: steps => comeFrom_stepsNodes steps
  | .index t :: steps => (comeFrom_nodes t).append (comeFrom_stepsNodes steps)
termination_by structural t => t

theorem comeFrom_listNodes : ∀ items : List Term,
    ComeFrom f (listNodes (spliceList f items)) (listNodes items)
  | [] => .nil
  | t :: items => (comeFrom_nodes t).append (comeFrom_listNodes items)
termination_by structural t => t

theorem comeFrom_itemsNodes : ∀ items : List Item,
    ComeFrom f (itemsNodes (spliceItems f items)) (itemsNodes items)
  | [] => .nil
  | .named _ value :: items => (comeFrom_nodes value).append (comeFrom_itemsNodes items)
  | .computed key value :: items =>
    ((comeFrom_nodes key).append (comeFrom_nodes value)).append (comeFrom_itemsNodes items)
termination_by structural t => t

end

/-- No staging call is left. -/
theorem isStaging_of_mem_splice {t node : Term} (h : node ∈ (t.splice f).nodes) :
    node.isStaging = false := by
  rcases comeFrom_nodes t node h with ⟨text, rfl⟩ | ⟨original, -, ho, rfl⟩
  · rfl
  · cases original with
    | call name args =>
      have hname : name ≠ Function.stageName := of_decide_eq_false ho
      rw [splice, if_neg hname]
      exact ho
    | _ => rfl

theorem names_spliceSteps (f : Term → String) (steps : List Step) :
    (spliceSteps f steps).map Step.name? = steps.map Step.name? := by
  induction steps with
  | nil => rfl
  | cons step steps ih => cases step <;> exact congrArg (_ :: ·) ih

theorem exists_of_traversal_mem_splice {t : Term} {root : String} {steps : List Step}
    (h : traversal root steps ∈ (t.splice f).nodes) :
    ∃ original, traversal root original ∈ t.nodes ∧ steps = spliceSteps f original := by
  rcases comeFrom_nodes t _ h with ⟨text, heq⟩ | ⟨original, hmem, ho, heq⟩
  · exact absurd heq nofun
  · cases original with
    | traversal name before =>
      obtain ⟨rfl, rfl⟩ := traversal.inj heq
      exact ⟨before, hmem, rfl⟩
    | call name args =>
      have hname : name ≠ Function.stageName := of_decide_eq_false ho
      rw [splice, if_neg hname] at heq
      exact absurd heq nofun
    | _ => exact absurd heq nofun

/-! ## The tree stays canonical -/

theorem tightness_splice (f : Term → String) (t : Term) : (t.splice f).tightness = t.tightness := by
  cases t with
  | call name args =>
    rw [splice]
    split <;> rfl
  | _ => rfl

theorem isSource_splice (f : Term → String) (t : Term) : (t.splice f).isSource = t.isSource := by
  cases t with
  | call name args =>
    rw [splice]
    split <;> rfl
  | _ => rfl

theorem isBareWord_splice (f : Term → String) (t : Term) :
    (t.splice f).isBareWord = t.isBareWord := by
  cases t with
  | call name args =>
    rw [splice]
    split <;> rfl
  | traversal root steps =>
    match steps with
    | [] | .attribute _ :: _ | .index _ :: _ => rfl
  | _ => rfl

mutual

theorem canonical_splice : ∀ t : Term, (∀ call ∈ t.stagingCalls, f call ≠ "") → t.Canonical →
    (t.splice f).Canonical
  | .null, _, h | .bool _, _, h | .number _, _, h => h
  | .template parts, hf, h => canonicalParts_splice parts hf h
  | .traversal _ steps, hf, h => ⟨h.1, canonicalSteps_splice steps hf h.2⟩
  | .relative source steps, hf, h => by
    obtain ⟨hne, hsource, hc, hsteps⟩ := h
    obtain ⟨hfsource, hfsteps⟩ := List.forall_mem_append.mp hf
    refine ⟨?_, ?_, canonical_splice source hfsource hc, canonicalSteps_splice steps hfsteps hsteps⟩
    · match steps with
      | [] => exact absurd rfl hne
      | .attribute _ :: _ | .index _ :: _ => exact nofun
    · rwa [isSource_splice]
  | .call name args, hf, h => by
    rw [stagingCalls] at hf
    rw [splice]
    split
    · next hname =>
      rw [if_pos hname] at hf
      exact ⟨hf _ List.mem_cons_self, trivial, trivial⟩
    · next hname =>
      rw [if_neg hname] at hf
      exact ⟨h.1, canonicalList_splice args hf h.2⟩
  | .tuple items, hf, h => canonicalList_splice items hf h
  | .object items, hf, h => canonicalItems_splice items hf h
  | .unary _ operand, hf, h =>
    ⟨(tightness_splice f operand).trans h.1, canonical_splice operand hf h.2⟩
  | .binary op left right, hf, h => by
    obtain ⟨hleft, hright, hcleft, hcright⟩ := h
    obtain ⟨hfleft, hfright⟩ := List.forall_mem_append.mp hf
    rw [← tightness_splice f] at hleft hright
    exact ⟨hleft, hright, canonical_splice left hfleft hcleft,
      canonical_splice right hfright hcright⟩
  | .conditional condition yes no, hf, h => by
    obtain ⟨htight, hcondition, hyes, hno⟩ := h
    obtain ⟨hfcondition, hfrest⟩ := List.forall_mem_append.mp hf
    obtain ⟨hfyes, hfno⟩ := List.forall_mem_append.mp hfrest
    rw [← tightness_splice f] at htight
    exact ⟨htight, canonical_splice condition hfcondition hcondition,
      canonical_splice yes hfyes hyes, canonical_splice no hfno hno⟩
  | .parens inner, hf, h => canonical_splice inner hf h
termination_by structural t => t

theorem canonicalParts_splice : ∀ parts : List Part, (∀ call ∈ partsCalls parts, f call ≠ "") →
    CanonicalParts parts → CanonicalParts (spliceParts f parts)
  | [], _, _ => trivial
  | [.literal _], _, h => h
  | .literal _ :: .literal _ :: _, _, h => h.2.1.elim
  | .literal _ :: .interpolation t :: parts, hf, h =>
    ⟨h.1, h.2.1, canonicalParts_splice (.interpolation t :: parts) hf h.2.2⟩
  | .interpolation t :: parts, hf, h => by
    obtain ⟨hft, hfparts⟩ := List.forall_mem_append.mp hf
    exact ⟨canonical_splice t hft h.1, canonicalParts_splice parts hfparts h.2⟩
termination_by structural t => t

theorem canonicalSteps_splice : ∀ steps : List Step, (∀ call ∈ stepsCalls steps, f call ≠ "") →
    CanonicalSteps steps → CanonicalSteps (spliceSteps f steps)
  | [], _, _ => trivial
  | .attribute _ :: steps, hf, h => ⟨h.1, canonicalSteps_splice steps hf h.2⟩
  | .index t :: steps, hf, h => by
    obtain ⟨hft, hfsteps⟩ := List.forall_mem_append.mp hf
    exact ⟨canonical_splice t hft h.1, canonicalSteps_splice steps hfsteps h.2⟩
termination_by structural t => t

theorem canonicalList_splice : ∀ items : List Term, (∀ call ∈ listCalls items, f call ≠ "") →
    CanonicalList items → CanonicalList (spliceList f items)
  | [], _, _ => trivial
  | t :: items, hf, h => by
    obtain ⟨hft, hfitems⟩ := List.forall_mem_append.mp hf
    exact ⟨canonical_splice t hft h.1, canonicalList_splice items hfitems h.2⟩
termination_by structural t => t

theorem canonicalItems_splice : ∀ items : List Item, (∀ call ∈ itemsCalls items, f call ≠ "") →
    CanonicalItems items → CanonicalItems (spliceItems f items)
  | [], _, _ => trivial
  | .named _ value :: items, hf, h => by
    obtain ⟨hfvalue, hfitems⟩ := List.forall_mem_append.mp hf
    exact ⟨h.1, canonical_splice value hfvalue h.2.1, canonicalItems_splice items hfitems h.2.2⟩
  | .computed key value :: items, hf, h => by
    obtain ⟨hword, hkey, hvalue, hitems⟩ := h
    obtain ⟨hfkey, hfrest⟩ := List.forall_mem_append.mp hf
    obtain ⟨hfvalue, hfitems⟩ := List.forall_mem_append.mp hfrest
    rw [← isBareWord_splice f] at hword
    exact ⟨hword, canonical_splice key hfkey hkey, canonical_splice value hfvalue hvalue,
      canonicalItems_splice items hfitems hitems⟩
termination_by structural t => t

end

end ClusterBlueprint.Term
