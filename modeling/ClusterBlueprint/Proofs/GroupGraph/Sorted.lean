import ClusterBlueprint.Proofs.GroupGraph.Stacked

/-!
The order of the groups of a graph, for every way to build the graph.

A graph is built by calls that add a group or record that one group needs another.
`GroupGraph.toposort_ofCalls_sorts` says for any calls what the order is, and that there is one
unless a group needs itself in the end.
-/

namespace ClusterBlueprint.GroupGraph

open Relation

/-! ## Graphs from calls -/

/-- One step in building a graph. -/
inductive Call
  | add (group : String)
  | depend (group needed : String)

def Call.groups : Call → List String
  | .add group => [group]
  | .depend group needed => [needed, group]

def call (graph : GroupGraph) : Call → GroupGraph
  | .add group => graph.add group
  | .depend group needed => graph.depend group needed

def ofCalls (calls : List Call) : GroupGraph := calls.foldl call ∅

/-- What the calls record: one group is needed by another. -/
def Recorded (calls : List Call) (needed group : String) : Prop := .depend group needed ∈ calls

/-- The groups once each, all that were mentioned and each after what it needs. -/
structure Sorts (calls : List Call) (order : List String) : Prop where
  nodup : order.Nodup
  mem : ∀ group, group ∈ order ↔ ∃ call ∈ calls, group ∈ call.groups
  before : ∀ needed group, Recorded calls needed group → order.idxOf needed < order.idxOf group

section Calls

variable {graph : GroupGraph} {calls : List Call} {group needed : String}

theorem IsBuilt.call (h : graph.IsBuilt) (step : Call) : (graph.call step).IsBuilt := by
  cases step with
  | add group => exact h.add group
  | depend group needed => exact h.depend group needed

theorem needed_call {step : Call} : (graph.call step).Needed needed group
    ↔ graph.Needed needed group ∨ .depend group needed = step := by
  cases step with
  | add other =>
    unfold call
    rw [needed_add]
    simp
  | depend other another =>
    unfold call
    rw [needed_depend, Call.depend.injEq, and_comm]

theorem mem_groups_call {step : Call} :
    group ∈ (graph.call step).groups ↔ group ∈ graph.groups ∨ group ∈ step.groups := by
  cases step with
  | add other =>
    unfold call Call.groups
    rw [mem_groups_add, List.mem_singleton]
  | depend other another =>
    unfold call Call.groups
    rw [mem_groups_depend, List.mem_pair]

theorem isBuilt_ofCalls (calls : List Call) : (ofCalls calls).IsBuilt :=
  List.foldlRecOn (motive := fun graph : GroupGraph => graph.IsBuilt) calls call isBuilt_empty
    fun _ h step _ => h.call step

theorem needed_foldl_call : (calls.foldl call graph).Needed needed group
    ↔ graph.Needed needed group ∨ Recorded calls needed group := by
  unfold Recorded
  induction calls generalizing graph with
  | nil => simp
  | cons step calls ih => rw [List.foldl_cons, ih, needed_call, List.mem_cons, or_assoc]

theorem mem_groups_foldl_call : group ∈ (calls.foldl call graph).groups
    ↔ group ∈ graph.groups ∨ ∃ step ∈ calls, group ∈ step.groups := by
  induction calls generalizing graph with
  | nil => simp
  | cons step calls ih => rw [List.foldl_cons, ih, mem_groups_call, List.exists_mem_cons_iff,
    or_assoc]

theorem needed_ofCalls : (ofCalls calls).Needed = Recorded calls := by
  funext needed group
  exact propext (needed_foldl_call.trans (or_iff_right List.not_mem_nil))

theorem mem_groups_ofCalls :
    group ∈ (ofCalls calls).groups ↔ ∃ step ∈ calls, group ∈ step.groups :=
  mem_groups_foldl_call.trans (or_iff_right List.not_mem_nil)

end Calls

/-! ## What passes the check -/

section Check

variable {graph : GroupGraph} {seen order : List String} {needed group : String}

/-- What a group needs, other than itself, was passed before it. -/
theorem idxOf_lt_of_checkOrder (hcheck : checkOrder graph seen order = .ok ())
    (hmem : group ∈ order)
    (hedge : graph.Needed needed group) (hne : needed ≠ group) :
    needed ∈ seen ∨ order.idxOf needed < order.idxOf group := by
  induction order generalizing seen with
  | nil => exact absurd hmem List.not_mem_nil
  | cons first order ih =>
    unfold checkOrder at hcheck
    split at hcheck
    · exact absurd hcheck nofun
    next hfind =>
    by_cases hfirst : group = first
    · subst hfirst
      have hseen := List.find?_eq_none.mp hfind needed (mem_predecessors.mpr hedge)
      have hseen : ¬ needed = group → needed ∈ seen := by simpa using hseen
      exact .inl (hseen hne)
    · have hlater := List.idxOf_cons_ne order (Ne.symm hfirst)
      by_cases hneeded : needed = first
      · refine .inr ?_
        rw [hneeded, List.idxOf_cons_self, hlater]
        exact Nat.succ_pos _
      · have hmem := (List.mem_cons.mp hmem).resolve_left hfirst
        rcases ih hcheck hmem with hseen | hlt
        · exact .inl ((List.mem_cons.mp hseen).resolve_left hneeded)
        · refine .inr ?_
          rw [hlater, List.idxOf_cons_ne order (Ne.symm hneeded)]
          exact Nat.succ_lt_succ hlt

/-- In an order that was found, each group stands after those that it needs. -/
theorem idxOf_lt_of_order (hbuilt : graph.IsBuilt) (horder : graph.order = .ok order)
    (hedge : graph.Needed needed group) : order.idxOf needed < order.idxOf group := by
  obtain ⟨found, hsearch, hrest⟩ := Checked.bind_eq_ok.mp horder
  obtain ⟨_, hcheck, hfound⟩ := Checked.bind_eq_ok.mp hrest
  obtain rfl : found = order := Except.ok.inj hfound
  have hphase := searchOrder_yields_finishOrder hbuilt
  have hyields := searchOrder_yields hbuilt
  rw [hsearch] at hphase hyields
  have hmem : group ∈ found := (hyields.2 group).mpr (hbuilt.ends hedge).2
  have hne : needed ≠ group := fun heq => hphase.2 group hmem (heq ▸ hedge)
  exact (idxOf_lt_of_checkOrder hcheck hmem hedge hne).resolve_left List.not_mem_nil

theorem idxOf_lt_of_transGen (hbuilt : graph.IsBuilt) (horder : graph.order = .ok order)
    (hpath : TransGen graph.Needed needed group) : order.idxOf needed < order.idxOf group := by
  induction hpath with
  | single hedge => exact idxOf_lt_of_order hbuilt horder hedge
  | tail _ hedge ih => exact Nat.lt_trans ih (idxOf_lt_of_order hbuilt horder hedge)

theorem acyclic_of_order (hbuilt : graph.IsBuilt) (horder : graph.order = .ok order) :
    graph.Acyclic := fun _ hcycle =>
  Nat.lt_irrefl _ (idxOf_lt_of_transGen hbuilt horder hcycle)

end Check

/-! ## The order -/

/-- The two-phase search over the graph that any calls build.  It finds an order exactly if no group
needs itself in the end; the order has every mentioned group once, after those that it needs; and
the group in the fault needs itself in the end. -/
theorem toposort_ofCalls_sorts (calls : List Call) :
    (ofCalls calls).toposort = (ofCalls calls).order
      ∧ ((∃ order, (ofCalls calls).order = .ok order)
        ↔ ∀ group, ¬ TransGen (Recorded calls) group group)
      ∧ (∀ order, (ofCalls calls).order = .ok order → Sorts calls order)
      ∧ ∀ fault, (ofCalls calls).order = .error fault →
        ∃ group, fault = Cause.cyclicDependency group group
          ∧ TransGen (Recorded calls) group group := by
  have hbuilt := isBuilt_ofCalls calls
  have hneeded : (ofCalls calls).Needed = Recorded calls := needed_ofCalls
  have hacyclic : (ofCalls calls).Acyclic ↔ ∀ group, ¬ TransGen (Recorded calls) group group := by
    rw [Acyclic, hneeded]
  have hyields := order_yields hbuilt
  refine ⟨toposort_eq hbuilt, ⟨?_, fun hnone => ?_⟩, fun order horder => ?_, fun fault hfault => ?_⟩
  · rintro ⟨order, horder⟩
    exact hacyclic.mp (acyclic_of_order hbuilt horder)
  · exact exists_order_of_acyclic hbuilt (hacyclic.mpr hnone)
  · rw [horder] at hyields
    refine ⟨hyields.1.nodup, fun group => ?_, fun needed group hrecorded => ?_⟩
    · rw [hyields.2, mem_groups_ofCalls]
    · exact idxOf_lt_of_order hbuilt horder (hneeded ▸ hrecorded)
  · rw [hfault] at hyields
    obtain ⟨group, rfl, hcycle⟩ := hyields
    exact ⟨group, rfl, hneeded ▸ hcycle⟩

end ClusterBlueprint.GroupGraph
