import ClusterBlueprint.GroupGraph
import ClusterBlueprint.Proofs.Checked
import Mathlib.Data.List.Nodup
import Mathlib.Logic.Relation

/-!
What the search for an order of the groups does.

A group that is neither free nor finished is one whose search led to the current one.  So what needs
a finished group is finished as well, unless it leads back to that group: that is the invariant.
`GroupGraph.visit_yields` is one step of the search and `GroupGraph.searchOrder_yields` the whole
search.  The check afterwards can find no other fault than a cycle.
-/

namespace ClusterBlueprint.GroupGraph

open Relation

/-- An edge: one group is needed by another. -/
def Needed (graph : GroupGraph) (needed group : String) : Prop := (needed, group) ∈ graph.edges

def Acyclic (graph : GroupGraph) : Prop := ∀ group, ¬ TransGen graph.Needed group group

/-- Graphs as they are built: no group is there twice, and edges run between groups there are. -/
structure IsBuilt (graph : GroupGraph) : Prop where
  nodup : graph.groups.Nodup
  ends : ∀ {needed group}, graph.Needed needed group → needed ∈ graph.groups ∧ group ∈ graph.groups

section Built

variable {graph : GroupGraph} {group other needed : String}

theorem mem_successors : other ∈ graph.successors group ↔ graph.Needed group other := by
  unfold successors Needed
  simp

theorem mem_predecessors : needed ∈ graph.predecessors group ↔ graph.Needed needed group := by
  unfold predecessors Needed
  simp

theorem mem_dependencies : needed ∈ graph.dependencies group ↔ graph.Needed needed group := by
  rw [dependencies, List.mem_mergeSort, mem_predecessors]

theorem mem_groups_add :
    other ∈ (graph.add group).groups ↔ other ∈ graph.groups ∨ other = group := by
  unfold add
  split
  · next hmem =>
    refine ⟨.inl, ?_⟩
    rintro (h | rfl)
    · exact h
    · simpa using hmem
  · simp

theorem needed_add {a b : String} : (graph.add group).Needed a b ↔ graph.Needed a b := by
  unfold Needed add
  split <;> rfl

theorem needed_depend {a b : String} :
    (graph.depend group needed).Needed a b ↔ graph.Needed a b ∨ (a = needed ∧ b = group) := by
  have hadded : ((graph.add needed).add group).Needed a b ↔ graph.Needed a b := by
    rw [needed_add, needed_add]
  rw [← hadded]
  unfold Needed depend
  dsimp only
  split
  · next hmem =>
    refine ⟨.inl, ?_⟩
    rintro (h | ⟨rfl, rfl⟩)
    · exact h
    · simpa using hmem
  · simp

theorem mem_groups_depend : other ∈ (graph.depend group needed).groups
    ↔ other ∈ graph.groups ∨ other = needed ∨ other = group := by
  have hgroups : (graph.depend group needed).groups = ((graph.add needed).add group).groups := by
    unfold depend
    dsimp only
    split <;> rfl
  rw [hgroups, mem_groups_add, mem_groups_add, or_assoc]

theorem isBuilt_empty : IsBuilt ∅ := ⟨List.nodup_nil, fun h => absurd h List.not_mem_nil⟩

theorem IsBuilt.add (h : graph.IsBuilt) (group : String) : (graph.add group).IsBuilt := by
  refine ⟨?_, fun hedge => ?_⟩
  · unfold GroupGraph.add
    split
    · exact h.nodup
    · next hnot =>
      have hfresh : group ∉ graph.groups := by simpa using hnot
      exact List.nodup_append.mpr ⟨h.nodup, List.nodup_singleton group, by
        rintro x hx y hy rfl
        exact hfresh (List.mem_singleton.mp hy ▸ hx)⟩
  · obtain ⟨hneeded, hgroup⟩ := h.ends (needed_add.mp hedge)
    exact ⟨mem_groups_add.mpr (.inl hneeded), mem_groups_add.mpr (.inl hgroup)⟩

theorem IsBuilt.depend (h : graph.IsBuilt) (group needed : String) :
    (graph.depend group needed).IsBuilt := by
  refine ⟨?_, fun hedge => ?_⟩
  · have hadded := ((h.add needed).add group).nodup
    unfold GroupGraph.depend
    dsimp only
    split <;> exact hadded
  · rw [mem_groups_depend, mem_groups_depend]
    rcases needed_depend.mp hedge with hold | ⟨rfl, rfl⟩
    · exact ⟨.inl (h.ends hold).1, .inl (h.ends hold).2⟩
    · exact ⟨.inr (.inl rfl), .inr (.inr rfl)⟩

end Built

/-! ## One step -/

/-- The groups that the search is done with, each once.  What needs one of them was finished before
it or leads to it. -/
inductive IsFinished (graph : GroupGraph) : List String → Prop
  | nil : IsFinished graph []
  | cons {finished : List String} {group : String} : IsFinished graph finished →
      group ∉ finished →
      (∀ next, graph.Needed group next → next ∈ finished ∨ ReflTransGen graph.Needed next group) →
      IsFinished graph (group :: finished)

/-- What a search adds to what is finished: groups that were free, and none is lost. -/
structure Extends (graph : GroupGraph) (free finished after : List String) : Prop where
  isFinished : graph.IsFinished after
  keeps : finished ⊆ after
  free_or : ∀ group ∈ after, group ∈ finished ∨ group ∈ free

/-- The groups that are neither free nor finished lead to the current one. -/
def LeadTo (graph : GroupGraph) (free finished : List String) (group : String) : Prop :=
  ∀ other ∈ graph.groups, other ∉ free → other ∉ finished → ReflTransGen graph.Needed other group

/-- The faults of the search and of the check of its outcome: a group needs itself in the end. -/
def IsCycle (graph : GroupGraph) (fault : Fault) : Prop :=
  ∃ group, fault = cycleAt group ∧ TransGen graph.Needed group group

/-- A group that needs the current one: its search, unless that was done or led here. -/
def follow (graph : GroupGraph) (free finished : List String) (next : String) :
    Checked (List String) :=
  if next ∈ finished then pure finished
  else if hnext : next ∈ free then visit graph free finished next hnext
  else pure finished

section Step

variable {graph : GroupGraph} {free finished after : List String} {group next : String}

theorem visit_eq (graph : GroupGraph) (free finished : List String) (group : String)
    (h : group ∈ free) :
    visit graph free finished group h = (do
      if group ∈ graph.successors group then throw (cycleAt group)
      let finished ← (graph.successors group).foldlM (follow graph (free.erase group)) finished
      return group :: finished) := by
  rw [visit]
  rfl

theorem IsFinished.of_mem (h : graph.IsFinished finished) (hmem : group ∈ finished)
    (hedge : graph.Needed group next) :
    next ∈ finished ∨ ReflTransGen graph.Needed next group := by
  induction h with
  | nil => exact absurd hmem List.not_mem_nil
  | cons _ _ hnext ih =>
    rcases List.mem_cons.mp hmem with rfl | hmem
    · exact (hnext next hedge).imp_left (List.mem_cons_of_mem _)
    · exact (ih hmem).imp_left (List.mem_cons_of_mem _)

theorem Extends.refl (h : graph.IsFinished finished) : Extends graph free finished finished :=
  ⟨h, fun _ => id, fun _ => .inl⟩

theorem Extends.trans {last : List String} (hfirst : Extends graph free finished after)
    (hsecond : Extends graph free after last) : Extends graph free finished last where
  isFinished := hsecond.isFinished
  keeps := List.Subset.trans hfirst.keeps hsecond.keeps
  free_or group h := (hsecond.free_or group h).elim (hfirst.free_or group) .inr

/-- What the search from each free group is known to do. -/
def Visits (graph : GroupGraph) (free : List String) : Prop :=
  ∀ (finished : List String) (group : String) (h : group ∈ free), graph.IsFinished finished →
    group ∉ finished → LeadTo graph (free.erase group) finished group →
    (visit graph free finished group h).Yields
      (fun after => Extends graph free finished after ∧ group ∈ after) graph.IsCycle

theorem follow_yields (hbuilt : graph.IsBuilt) (hvisits : Visits graph free)
    (hfinished : graph.IsFinished finished) (hlead : LeadTo graph free finished group)
    (hedge : graph.Needed group next) :
    (follow graph free finished next).Yields (fun after => Extends graph free finished after
      ∧ (next ∈ after ∨ ReflTransGen graph.Needed next group)) graph.IsCycle := by
  unfold follow
  by_cases hdone : next ∈ finished
  · rw [if_pos hdone]
    exact ⟨.refl hfinished, .inl hdone⟩
  rw [if_neg hdone]
  by_cases hfree : next ∈ free
  · rw [dif_pos hfree]
    have hlead' : LeadTo graph (free.erase next) finished next := by
      intro other hother hnot hundone
      by_cases heq : other = next
      · rw [heq]
      · have hnot' : other ∉ free := fun hmem => hnot ((List.mem_erase_of_ne heq).mpr hmem)
        exact (hlead other hother hnot' hundone).tail hedge
    exact (hvisits finished next hfree hfinished hdone hlead').mono fun after hafter =>
      ⟨hafter.1, .inl hafter.2⟩
  · rw [dif_neg hfree]
    exact ⟨.refl hfinished, .inr (hlead next (hbuilt.ends hedge).2 hfree hdone)⟩

theorem follow_foldlM_yields (hbuilt : graph.IsBuilt) (hvisits : Visits graph free)
    {nexts : List String} (hsub : ∀ next ∈ nexts, graph.Needed group next)
    (hfinished : graph.IsFinished finished) (hlead : LeadTo graph free finished group) :
    (nexts.foldlM (follow graph free) finished).Yields (fun after =>
      Extends graph free finished after
        ∧ ∀ next ∈ nexts, next ∈ after ∨ ReflTransGen graph.Needed next group) graph.IsCycle := by
  induction nexts generalizing finished with
  | nil => exact ⟨.refl hfinished, List.forall_mem_nil _⟩
  | cons next nexts ih =>
    obtain ⟨hfirst, hrest⟩ := List.forall_mem_cons.mp hsub
    rw [List.foldlM_cons]
    refine (follow_yields hbuilt hvisits hfinished hlead hfirst).bind fun middle hmiddle => ?_
    obtain ⟨hextends, hnext⟩ := hmiddle
    have hlead' : LeadTo graph free middle group := fun other hother hnot hundone =>
      hlead other hother hnot fun hmem => hundone (hextends.keeps hmem)
    refine (ih hrest hextends.isFinished hlead').mono fun after hafter => ?_
    obtain ⟨hlast, hall⟩ := hafter
    have hkeeps : next ∈ middle → next ∈ after := fun hmem => hlast.keeps hmem
    exact ⟨hextends.trans hlast, List.forall_mem_cons.mpr ⟨hnext.imp_left hkeeps, hall⟩⟩

end Step

/-- One group: after those that need it, it is finished itself. -/
theorem visit_yields {graph : GroupGraph} {free : List String} (hbuilt : graph.IsBuilt)
    (hnodup : free.Nodup) : Visits graph free := by
  intro finished group h hfinished hnot hlead
  have hlt := length_erase_lt h
  -- The search goes on without this group among the free ones: the induction is on their number.
  have hvisits : Visits graph (free.erase group) := visit_yields hbuilt (hnodup.erase group)
  rw [visit_eq]
  by_cases hself : group ∈ graph.successors group
  · rw [if_pos hself]
    exact ⟨group, rfl, .single (mem_successors.mp hself)⟩
  rw [if_neg hself]
  refine (follow_foldlM_yields hbuilt hvisits (fun next => mem_successors.mp) hfinished
    hlead).bind fun middle hmiddle => ?_
  obtain ⟨hextends, hnexts⟩ := hmiddle
  have hfresh : group ∉ middle := fun hmem =>
    (hextends.free_or group hmem).elim hnot hnodup.not_mem_erase
  refine ⟨⟨?_, ?_, ?_⟩, List.mem_cons_self⟩
  · exact .cons hextends.isFinished hfresh fun next hedge => hnexts next (mem_successors.mpr hedge)
  · exact fun other hother => List.mem_cons_of_mem _ (hextends.keeps hother)
  · intro other hother
    rcases List.mem_cons.mp hother with rfl | hother
    · exact .inr h
    · exact (hextends.free_or other hother).imp_right List.mem_of_mem_erase
termination_by free.length

/-! ## The whole search -/

def enter (graph : GroupGraph) (finished : List String)
    (start : { group // group ∈ graph.groups }) : Checked (List String) :=
  if start.val ∈ finished then pure finished
  else visit graph graph.groups finished start start.property

section Search

variable {graph : GroupGraph} {finished : List String}

theorem enter_yields (hbuilt : graph.IsBuilt) (hfinished : graph.IsFinished finished)
    (start : { group // group ∈ graph.groups }) :
    (enter graph finished start).Yields
      (fun after => Extends graph graph.groups finished after ∧ start.val ∈ after)
      graph.IsCycle := by
  unfold enter
  split
  · next hdone => exact ⟨.refl hfinished, hdone⟩
  · next hnot =>
    have hlead : LeadTo graph (graph.groups.erase start) finished start := by
      intro other hother hfree _
      by_cases heq : other = start
      · rw [heq]
      · exact absurd ((List.mem_erase_of_ne heq).mpr hother) hfree
    exact visit_yields hbuilt hbuilt.nodup finished start start.property hfinished hnot hlead

theorem enter_foldlM_yields (hbuilt : graph.IsBuilt) (hfinished : graph.IsFinished finished)
    {starts : List { group // group ∈ graph.groups }} :
    (starts.foldlM (enter graph) finished).Yields
      (fun after => Extends graph graph.groups finished after ∧ ∀ start ∈ starts, start.val ∈ after)
      graph.IsCycle := by
  induction starts generalizing finished with
  | nil => exact ⟨.refl hfinished, List.forall_mem_nil _⟩
  | cons start starts ih =>
    rw [List.foldlM_cons]
    refine (enter_yields hbuilt hfinished start).bind fun middle hmiddle => ?_
    obtain ⟨hextends, hmem⟩ := hmiddle
    refine (ih hextends.isFinished).mono fun after hafter => ?_
    obtain ⟨hlast, hall⟩ := hafter
    exact ⟨hextends.trans hlast, List.forall_mem_cons.mpr ⟨hlast.keeps hmem, hall⟩⟩

theorem searchOrder_eq (graph : GroupGraph) :
    graph.searchOrder = graph.groups.attach.foldlM (enter graph) [] := rfl

theorem searchOrder_yields (hbuilt : graph.IsBuilt) :
    graph.searchOrder.Yields (fun order => graph.IsFinished order
      ∧ ∀ group, group ∈ order ↔ group ∈ graph.groups) graph.IsCycle := by
  rw [searchOrder_eq]
  refine (enter_foldlM_yields hbuilt .nil).mono fun order horder => ?_
  obtain ⟨hextends, hall⟩ := horder
  refine ⟨hextends.isFinished, fun group => ⟨fun h => ?_, fun h => ?_⟩⟩
  · exact (hextends.free_or group h).resolve_left List.not_mem_nil
  · exact hall ⟨group, h⟩ (List.mem_attach _ _)

/-- A needed group that was not passed yet is finished, and what needs it is not: it is on a
cycle. -/
theorem checkOrder_yields {seen order : List String} (hfinished : graph.IsFinished order)
    (hall : ∀ {needed group}, group ∈ order → graph.Needed needed group →
      needed ∈ seen ∨ needed ∈ order) :
    (checkOrder graph seen order).Yields (fun _ => True) graph.IsCycle := by
  induction hfinished generalizing seen with
  | nil => exact trivial
  | @cons rest group hrest hfresh _ ih =>
    unfold checkOrder
    split
    · next needed hfind =>
      have hedge := mem_predecessors.mp (List.mem_of_find?_eq_some hfind)
      have hnot : needed ∉ group :: seen := by simpa using List.find?_some hfind
      have hlate : needed ∈ rest := by
        rcases hall List.mem_cons_self hedge with hseen | hmem
        · exact absurd (List.mem_cons_of_mem _ hseen) hnot
        · exact (List.mem_cons.mp hmem).resolve_left fun heq => hnot (heq ▸ List.mem_cons_self)
      have hback := (hrest.of_mem hlate hedge).resolve_left hfresh
      exact ⟨needed, rfl, TransGen.head' hedge hback⟩
    · refine ih fun hmem hedge => ?_
      rcases hall (List.mem_cons_of_mem _ hmem) hedge with hseen | hmem
      · exact .inl (List.mem_cons_of_mem _ hseen)
      · rcases List.mem_cons.mp hmem with rfl | hmem
        · exact .inl List.mem_cons_self
        · exact .inr hmem

/-- The only fault in the search for an order is a cycle. -/
theorem order_yields (hbuilt : graph.IsBuilt) :
    graph.order.Yields (fun order => graph.IsFinished order
      ∧ ∀ group, group ∈ order ↔ group ∈ graph.groups) graph.IsCycle := by
  refine (searchOrder_yields hbuilt).bind fun order horder => ?_
  obtain ⟨hfinished, hmem⟩ := horder
  have hcheck : (checkOrder graph [] order).Yields (fun _ => True) graph.IsCycle :=
    checkOrder_yields hfinished fun {needed _} _ hedge =>
      .inr ((hmem needed).mpr (hbuilt.ends hedge).1)
  exact hcheck.bind fun _ _ => ⟨hfinished, hmem⟩

/-- A graph without cycles has an order. -/
theorem exists_order_of_acyclic (hbuilt : graph.IsBuilt) (hacyclic : graph.Acyclic) :
    ∃ order, graph.order = .ok order := by
  have hyields := order_yields hbuilt
  cases horder : graph.order with
  | ok order => exact ⟨order, rfl⟩
  | error fault =>
    rw [horder] at hyields
    obtain ⟨group, -, hcycle⟩ := hyields
    exact absurd hcycle (hacyclic group)

end Search

end ClusterBlueprint.GroupGraph
