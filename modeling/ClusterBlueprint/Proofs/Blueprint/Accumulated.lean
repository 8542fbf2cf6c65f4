import ClusterBlueprint.Proofs.Blueprint.Uses
import ClusterBlueprint.Proofs.Evaluation.Expressed
import ClusterBlueprint.Proofs.Value.Leaves
import Mathlib.Data.List.Forall2

/-!
What an input for lists comes to.

The outputs of used modules have no values before deployment.  Once each of them has one, an input
that took several of them comes to one list: the leaves of these values, the value that came last
first.
-/

namespace ClusterBlueprint

/-! ## Values in place of references -/

namespace Reference

/-- How many steps of a traversal name a reference. -/
def stepCount : Reference → Nat
  | global _ => 1
  | output .. => 2

end Reference

namespace Term

/-- A tree and the steps into its value. -/
def into (source : Term) : List Step → Term
  | [] => source
  | step :: steps => relative source (step :: steps)

mutual

/-- The tree with the tree of its value for every reference; further steps go into the value. -/
def assign (values : Reference → Value) : Term → Term
  | null => null
  | bool value => bool value
  | number value => number value
  | template parts => template (assignParts values parts)
  | traversal root steps =>
    match Reference.ofTraversal root steps with
    | .ok reference =>
      (values reference).toTerm.into ((assignSteps values steps).drop reference.stepCount)
    | .error _ => traversal root (assignSteps values steps)
  | relative source steps => relative (source.assign values) (assignSteps values steps)
  | call name args => call name (assignList values args)
  | tuple items => tuple (assignList values items)
  | object items => object (assignItems values items)
  | unary op operand => unary op (operand.assign values)
  | binary op left right => binary op (left.assign values) (right.assign values)
  | conditional condition yes no =>
    conditional (condition.assign values) (yes.assign values) (no.assign values)
  | parens inner => parens (inner.assign values)
termination_by structural t => t

def assignParts (values : Reference → Value) : List Part → List Part
  | [] => []
  | .literal text :: rest => .literal text :: assignParts values rest
  | .interpolation term :: rest => .interpolation (term.assign values) :: assignParts values rest
termination_by structural t => t

def assignSteps (values : Reference → Value) : List Step → List Step
  | [] => []
  | .attribute name :: rest => .attribute name :: assignSteps values rest
  | .index term :: rest => .index (term.assign values) :: assignSteps values rest
termination_by structural t => t

def assignList (values : Reference → Value) : List Term → List Term
  | [] => []
  | term :: rest => term.assign values :: assignList values rest
termination_by structural t => t

def assignItems (values : Reference → Value) : List Item → List Item
  | [] => []
  | .named name value :: rest => .named name (value.assign values) :: assignItems values rest
  | .computed key value :: rest =>
    .computed (key.assign values) (value.assign values) :: assignItems values rest
termination_by structural t => t

end

variable {values : Reference → Value}

theorem eval_assign_output {id name : String}
    (hordered : (values (.ofModule id name)).IsOrdered)
    (hliteral : (values (.ofModule id name)).IsLiteral) (bindings : SortedMap Value) :
    ((Reference.toTerm (.ofModule id name)).assign values).eval bindings
      = pure (values (.ofModule id name)) := by
  have hassign : (Reference.toTerm (.ofModule id name)).assign values
      = (values (.ofModule id name)).toTerm := rfl
  rw [hassign, Value.eval_toTerm _ hordered, Value.eval_of_isLiteral hliteral]

theorem eval_flatten_pair {bindings : SortedMap Value} {first second : Term} {a b : Value}
    (hfirst : first.eval bindings = pure a) (hsecond : second.eval bindings = pure b) :
    (call "flatten" [tuple [first, second]]).eval bindings
      = pure (.list (a.leaves ++ b.leaves)) := by
  have hargs : evalList bindings [tuple [first, second]] = pure [.list [a, b]] := by
    simp only [evalList, eval, hfirst, hsecond, pure_bind]
  have hleaves : Value.listLeaves [a, b] = a.leaves ++ b.leaves := by
    rw [Value.listLeaves, Value.listLeaves, Value.listLeaves, List.append_nil]
  rw [eval, hargs, pure_bind, ← hleaves]
  rfl

end Term

namespace Use

variable {values : Reference → Value} {key : String}

/-- The leaves of the values of the outputs `key` of some modules, the last one first. -/
def leavesOf (values : Reference → Value) (key : String) (ids : List String) : List Value :=
  ids.reverse.flatMap fun id => (values (.ofModule id key)).leaves

theorem leavesOf_concat (ids : List String) (id : String) :
    leavesOf values key (ids ++ [id])
      = (values (.ofModule id key)).leaves ++ leavesOf values key ids := by
  unfold leavesOf
  rw [List.reverse_concat, List.flatMap_cons]

theorem not_isList_of_mem_leavesOf {ids : List String} :
    ∀ leaf ∈ leavesOf values key ids, leaf.isList = false := by
  intro leaf hleaf
  obtain ⟨id, -, hmem⟩ := List.mem_flatMap.mp hleaf
  exact (Value.areLeaves_iff.mpr rfl).not_isList leaf hmem

/-- Whether an entry is an expression that comes to a value with these leaves, which is their list
once two modules contributed. -/
def Gathers (values : Reference → Value) (key : String) (ids : List String)
    (entry : Entry) : Prop :=
  ∃ (e : Expression) (gathered : Value), entry.value = .expression e
    ∧ (∀ bindings, (e.term.assign values).eval bindings = pure gathered)
    ∧ gathered.leaves = leavesOf values key ids
    ∧ (2 ≤ ids.length → gathered = .list (leavesOf values key ids))

theorem gathers_outputEntry {id : String} (hordered : (values (.ofModule id key)).IsOrdered)
    (hliteral : (values (.ofModule id key)).IsLiteral) :
    Gathers values key [id] (outputEntry id key) :=
  ⟨.ofReference (.ofModule id key), values (.ofModule id key), rfl,
    Term.eval_assign_output hordered hliteral, (List.flatMap_singleton _ _).symm,
    fun h => absurd h (Nat.not_succ_le_self 1)⟩

/-- One more module puts the leaves of its value before the others. -/
theorem gathers_accumulate {id : String} {ids : List String} {existing : Entry}
    (hordered : (values (.ofModule id key)).IsOrdered)
    (hliteral : (values (.ofModule id key)).IsLiteral) (h : Gathers values key ids existing) :
    Gathers values key (ids ++ [id]) (accumulate (outputEntry id key) existing) := by
  obtain ⟨e, gathered, hvalue, heval, hleaves, -⟩ := h
  refine ⟨⟨.call "flatten" [.tuple [Reference.toTerm (.ofModule id key), e.term]]⟩,
    .list (leavesOf values key (ids ++ [id])), ?_, fun bindings => ?_, ?_, fun _ => rfl⟩
  · rw [accumulate, hvalue]
    rfl
  · rw [leavesOf_concat, ← hleaves]
    exact Term.eval_flatten_pair (Term.eval_assign_output hordered hliteral bindings)
      (heval bindings)
  · exact Value.listLeaves_eq_self not_isList_of_mem_leavesOf

/-- The entry of an input for lists after modules contributed to it gathers their values. -/
theorem gathers_foldl_offered {done ids : List String} {entry : Entry}
    (hvalues : ∀ id ∈ ids, (values (.ofModule id key)).IsOrdered
      ∧ (values (.ofModule id key)).IsLiteral)
    (h : Gathers values key done entry) :
    ∃ last, ids.foldl (offered true key) (some entry) = some last
      ∧ Gathers values key (done ++ ids) last := by
  induction ids generalizing done entry with
  | nil => exact ⟨entry, rfl, by rwa [List.append_nil]⟩
  | cons id ids ih =>
    obtain ⟨⟨hordered, hliteral⟩, hrest⟩ := List.forall_mem_cons.mp hvalues
    obtain ⟨last, hlast, hgathers⟩ := ih hrest (gathers_accumulate hordered hliteral h)
    rw [List.append_assoc] at hgathers
    exact ⟨last, hlast, hgathers⟩

theorem find?_foldl_offer (input : Input) (settings : Dict) (ids : List String) :
    Dict.find? (ids.foldl (fun settings id => offer id settings input) settings) input.name
      = ids.foldl (offered input.isList input.name) (settings.find? input.name) := by
  induction ids generalizing settings with
  | nil => rfl
  | cons id ids ih => rw [List.foldl_cons, ih, find?_offer_self, List.foldl_cons]

/-- An input for lists that takes the outputs of two or more modules is set to an expression.  With
literal values for the outputs, the expression comes to the list of the leaves of these values, the
value that came last first. -/
theorem offer_concatenates {input : Input} {settings : Dict} {ids : List String}
    (hlist : input.isList) (hunset : settings.find? input.name = none) (hids : 2 ≤ ids.length)
    (hvalues : ∀ id ∈ ids, (values (.ofModule id input.name)).IsOrdered
      ∧ (values (.ofModule id input.name)).IsLiteral) :
    ∃ (entry : Entry) (e : Expression) (parts : List (List Value)),
      Dict.find? (ids.foldl (fun settings id => offer id settings input) settings) input.name
          = some entry
        ∧ entry.value = .expression e
        ∧ List.Forall₂ (fun id part => (values (.ofModule id input.name)).AreLeaves part)
            ids.reverse parts
        ∧ (∀ context : Context,
            Expression.evalIn context ⟨e.term.assign values⟩ = (.ok (.list parts.flatten), context))
        ∧ ∀ leaf ∈ parts.flatten, leaf.isList = false := by
  obtain ⟨first, rest, rfl⟩ : ∃ first rest, ids = first :: rest :=
    List.exists_cons_of_length_pos (Nat.lt_of_lt_of_le Nat.two_pos hids)
  obtain ⟨⟨hordered, hliteral⟩, hrest⟩ := List.forall_mem_cons.mp hvalues
  obtain ⟨entry, hfold, e, gathered, hvalue, heval, -, hgathered⟩ :=
    gathers_foldl_offered hrest (gathers_outputEntry hordered hliteral)
  obtain rfl : gathered = .list (leavesOf values input.name (first :: rest)) := hgathered hids
  let leaves (id : String) : List Value := (values (.ofModule id input.name)).leaves
  have hparts : leavesOf values input.name (first :: rest)
      = ((first :: rest).reverse.map leaves).flatten := List.flatMap_def
  refine ⟨entry, e, (first :: rest).reverse.map leaves, ?_, hvalue, ?_, fun context => ?_, ?_⟩
  · rw [find?_foldl_offer, hunset, hlist]
    exact hfold
  · rw [List.forall₂_map_right_iff]
    exact List.forall₂_same.mpr fun id _ => Value.areLeaves_iff.mpr rfl
  · rw [← hparts]
    exact congrArg (Evaluation.within · context) (heval context.bindings)
  · rw [← hparts]
    exact not_isList_of_mem_leavesOf

/-- Three modules, one of them used twice; the list within an object is no item of a list. -/
theorem offer_concatenates_of_tags :
    let input : Input := { name := "tags", type := "list(string)" }
    let nested : Value :=
      .list [.string "x", .list [.list [], .list [.object [("k", .list [.null])]]]]
    let values : Reference → Value
      | .output _ "a" _ => nested
      | .output _ "b" _ => .bool true
      | _ => .list []
    let ids : List String := ["a", "b", "c", "a"]
    (input.isList = true ∧ Dict.find? ∅ input.name = none ∧ 2 ≤ ids.length
        ∧ ∀ id ∈ ids, (values (.ofModule id input.name)).IsOrdered
          ∧ (values (.ofModule id input.name)).IsLiteral)
      ∧ ∃ (entry : Entry) (e : Expression) (parts : List (List Value)),
        Dict.find? (ids.foldl (fun settings id => offer id settings input) ∅) input.name
            = some entry
          ∧ entry.value = .expression e
          ∧ List.Forall₂ (fun id part => (values (.ofModule id input.name)).AreLeaves part)
              ids.reverse parts
          ∧ (∀ context : Context, Expression.evalIn context ⟨e.term.assign values⟩
              = (.ok (.list parts.flatten), context))
          ∧ ∀ leaf ∈ parts.flatten, leaf.isList = false := by
  intro input nested values ids
  have hbool : (Value.bool true).IsOrdered := fun fields hfields =>
    absurd (List.mem_singleton.mp hfields) (by simp)
  have hempty : (Value.list []).IsOrdered := fun fields hfields =>
    absurd (List.mem_singleton.mp hfields) (by simp)
  have hvalues : ∀ id ∈ ids, (values (.ofModule id input.name)).IsOrdered
      ∧ (values (.ofModule id input.name)).IsLiteral := by
    intro id hid
    have hid : id = "a" ∨ id = "b" ∨ id = "c" := by
      simpa [ids, or_comm, or_left_comm] using hid
    rcases hid with rfl | rfl | rfl
    · refine ⟨fun fields hfields => ?_, rfl⟩
      have hmem : .object fields ∈ nested.nodes := hfields
      obtain rfl : fields = [("k", .list [.null])] := by
        simpa [nested, Value.nodes, Value.listNodes, Value.fieldsNodes] using hmem
      exact List.pairwise_singleton _ _
    · exact ⟨hbool, rfl⟩
    · exact ⟨hempty, rfl⟩
  have hlist : input.isList = true := by decide
  exact ⟨⟨hlist, rfl, by decide, hvalues⟩, offer_concatenates hlist rfl (by decide) hvalues⟩

end Use

end ClusterBlueprint
