import ClusterBlueprint.Proofs.GroupGraph

/-!
The search for an order with a stack in place of recursion.

The first phase looks at the top of a stack: a group that is seen for the first time is discovered
and stays under the groups that need it, and a group that is seen again is taken off and finished.
A group may so be on the stack several times.  The second phase goes against the edges, from each
group of the order with one set of discovered groups for all of them: if it discovers a second group
on the way, that group is on a cycle.

`GroupGraph.toposort_eq` says that both phases together are `GroupGraph.order`.
-/

namespace ClusterBlueprint.GroupGraph

/-! ## The two phases -/

/-- What is not discovered and what is finished after the stack, given with its top first, was
emptied. -/
def drain (graph : GroupGraph) (free finished : List String) :
    List String → Checked (List String × List String)
  | [] => .ok (free, finished)
  | top :: rest =>
    if htop : top ∈ free then
      if top ∈ graph.successors top then .error (cycleAt top)
      else
        have := length_erase_lt htop
        drain graph (free.erase top) finished
          ((graph.successors top).filter (· ∈ free.erase top) ++ top :: rest)
    else if top ∈ finished then drain graph free finished rest
    else drain graph free (top :: finished) rest
termination_by stack => (free.length, stack.length)

/-- The first phase from one group, unless it was discovered already. -/
def start (graph : GroupGraph) (state : List String × List String) (group : String) :
    Checked (List String × List String) :=
  if group ∈ state.1 then drain graph state.1 state.2 [group] else pure state

/-- The groups by the time they were finished, the last one first. -/
def finishOrder (graph : GroupGraph) : Checked (List String) := do
  let state ← graph.groups.foldlM (start graph) (graph.groups, [])
  return state.2

def discover (graph : GroupGraph) (discovered : List String) :
    List String → Option (String × List String × List String)
  | [] => none
  | top :: rest =>
    if top ∈ discovered then discover graph discovered rest
    else some (top, top :: discovered,
      (graph.predecessors top).filter (· ∉ top :: discovered) ++ rest)

/-- The second phase: a fault if the search against the edges from a group discovers another. -/
def checkBack (graph : GroupGraph) (discovered : List String) : List String → Checked Unit
  | [] => .ok ()
  | group :: rest =>
    match discover graph discovered [group] with
    | none => checkBack graph discovered rest
    | some (_, discovered, stack) =>
      match discover graph discovered stack with
      | none => checkBack graph discovered rest
      | some (other, _, _) => .error (cycleAt other)

def toposort (graph : GroupGraph) : Checked (List String) := do
  let order ← graph.finishOrder
  graph.checkBack [] order
  return order

/-! ## The first phase is the recursive search -/

/-- The groups that are not discovered, while the recursive search has some free ones: those of them
that are not finished. -/
structure IsLeft (free finished left : List String) : Prop where
  nodup : left.Nodup
  mem : ∀ group, group ∈ left ↔ group ∈ free ∧ group ∉ finished

/-- What a search adds to what is finished: groups that were free and do not need themselves, and
none is lost. -/
structure Adds (graph : GroupGraph) (free finished after : List String) : Prop where
  keeps : finished ⊆ after
  added : ∀ group ∈ after, group ∈ finished ∨ group ∈ free ∧ ¬ graph.Needed group group

/-- A recursive search does what a run of the first phase does before it goes on with `rest`. -/
def Drains (graph : GroupGraph) (free finished : List String)
    (run : Checked (List String × List String))
    (rest : List String → List String → Checked (List String × List String))
    (search : Checked (List String)) : Prop :=
  search.Yields
    (fun after => Adds graph free finished after ∧ ∃ left, IsLeft free after left
      ∧ run = rest left after)
    (fun fault => run = .error fault)

section Phase

variable {graph : GroupGraph} {free finished after left stack : List String} {group next : String}
  {run : Checked (List String × List String)}
  {rest middle : List String → List String → Checked (List String × List String)}
  {search : Checked (List String)}

theorem Adds.refl (graph : GroupGraph) (free finished : List String) :
    Adds graph free finished finished := ⟨fun _ => id, fun _ => .inl⟩

theorem Adds.trans {last : List String} (hfirst : Adds graph free finished after)
    (hsecond : Adds graph free after last) : Adds graph free finished last where
  keeps := List.Subset.trans hfirst.keeps hsecond.keeps
  added group h := (hsecond.added group h).elim (hfirst.added group) .inr

/-- A group is discovered, and so no longer free. -/
theorem IsLeft.erase (h : IsLeft free finished left) (group : String) (hnodup : free.Nodup) :
    IsLeft (free.erase group) finished (left.erase group) where
  nodup := h.nodup.erase group
  mem other := by
    rw [h.nodup.mem_erase_iff, hnodup.mem_erase_iff, h.mem, and_assoc]

/-- A group that is free, but not in the search from it, is finished. -/
theorem IsLeft.finish (h : IsLeft (free.erase group) finished left) (hnodup : free.Nodup) :
    IsLeft free (group :: finished) left where
  nodup := h.nodup
  mem other := by
    rw [h.mem, hnodup.mem_erase_iff, List.mem_cons, not_or]
    exact ⟨fun ⟨⟨hne, hfree⟩, hnot⟩ => ⟨hfree, hne, hnot⟩,
      fun ⟨hfree, hne, hnot⟩ => ⟨⟨hne, hfree⟩, hnot⟩⟩

theorem Drains.pass (hleft : IsLeft free finished left) (hrun : run = rest left finished) :
    Drains graph free finished run rest (pure finished) :=
  ⟨Adds.refl graph free finished, left, hleft, hrun⟩

theorem Drains.bind {more : List String → Checked (List String)}
    (h : Drains graph free finished run middle search)
    (hmore : ∀ after left, finished ⊆ after → IsLeft free after left →
      Drains graph free after (middle left after) rest (more after)) :
    Drains graph free finished run rest (search >>= more) := by
  unfold Drains at h ⊢
  refine Checked.Yields.bind h ?_
  rintro after ⟨hadds, left, hleft, hrun⟩
  have hrest := hmore after left hadds.keeps hleft
  unfold Drains at hrest
  rw [← hrun] at hrest
  exact hrest.mono fun last ⟨hlast, hleft⟩ => ⟨hadds.trans hlast, hleft⟩

/-- What follows the run follows `rest`. -/
theorem Drains.andThen (h : Drains graph free finished run rest search)
    (next : List String × List String → Checked (List String × List String)) :
    Drains graph free finished (run >>= next) (fun left after => rest left after >>= next)
      search := by
  unfold Drains at h ⊢
  cases search with
  | error fault =>
    have hrun : run = .error fault := h
    show run >>= next = .error fault
    rw [hrun]
    rfl
  | ok after =>
    obtain ⟨hadds, left, hleft, hrun⟩ := h
    exact ⟨hadds, left, hleft, by rw [hrun]⟩

/-- A recursive search empties a stack down to what is under the groups that it starts from. -/
abbrev DrainsTo (graph : GroupGraph) (free finished left stack under : List String)
    (search : Checked (List String)) : Prop :=
  Drains graph free finished (drain graph left finished stack)
    (fun left after => drain graph left after under) search

/-- What the search from each free group does with a stack that has the group on its top. -/
def VisitDrains (graph : GroupGraph) (free : List String) : Prop :=
  ∀ (finished left under : List String) (group : String) (h : group ∈ free), group ∉ finished →
    IsLeft free finished left →
    DrainsTo graph free finished left (group :: under) under (visit graph free finished group h)

/-- The groups that need a group are on the stack if they were not discovered when the group was.
Meanwhile they may have been finished. -/
theorem drains_foldlM_follow (hvisit : VisitDrains graph free) {pushed : List String}
    (hpushed : ∀ group, group ∈ free → group ∈ pushed ∨ group ∈ finished)
    (hfree : pushed ⊆ free) (hleft : IsLeft free finished left) (nexts under : List String) :
    DrainsTo graph free finished left (nexts.filter (· ∈ pushed) ++ under) under
      (nexts.foldlM (follow graph free) finished) := by
  induction nexts generalizing finished left with
  | nil => exact Drains.pass hleft rfl
  | cons next nexts ih =>
    rw [List.foldlM_cons]
    have hfollow : DrainsTo graph free finished left
        ((next :: nexts).filter (· ∈ pushed) ++ under) (nexts.filter (· ∈ pushed) ++ under)
        (follow graph free finished next) := by
      unfold follow
      by_cases hmem : next ∈ pushed
      · rw [List.filter_cons_of_pos (by simpa using hmem), List.cons_append]
        by_cases hdone : next ∈ finished
        · rw [if_pos hdone]
          refine Drains.pass hleft ?_
          have hnot : next ∉ left := fun hin => ((hleft.mem next).mp hin).2 hdone
          rw [drain, dif_neg hnot, if_pos hdone]
        · rw [if_neg hdone, dif_pos (hfree hmem)]
          exact hvisit finished left _ next (hfree hmem) hdone hleft
      · rw [List.filter_cons_of_neg (by simpa using hmem)]
        by_cases hdone : next ∈ finished
        · rw [if_pos hdone]
          exact Drains.pass hleft rfl
        · have hnot : next ∉ free := fun hin => (hpushed next hin).elim hmem hdone
          rw [if_neg hdone, dif_neg hnot]
          exact Drains.pass hleft rfl
    refine hfollow.bind fun after left' hkeeps hleft' => ?_
    exact ih (fun group hin => (hpushed group hin).imp_right (hkeeps ·)) hleft'

end Phase

/-- The search from a group empties the stack above what was under it. -/
theorem visit_drains (graph : GroupGraph) {free : List String} (hnodup : free.Nodup) :
    VisitDrains graph free := by
  intro finished left under group h hnot hleft
  have hlt := length_erase_lt h
  have hvisit : VisitDrains graph (free.erase group) := visit_drains graph (hnodup.erase group)
  have htop : group ∈ left := (hleft.mem group).mpr ⟨h, hnot⟩
  have hleft' := hleft.erase group hnodup
  rw [visit_eq]
  by_cases hself : group ∈ graph.successors group
  · rw [if_pos hself]
    show drain graph left finished (group :: under) = .error (cycleAt group)
    rw [drain, dif_pos htop, if_pos hself]
  rw [if_neg hself]
  have hpushed : ∀ other, other ∈ free.erase group →
      other ∈ left.erase group ∨ other ∈ finished := by
    intro other hother
    by_cases hdone : other ∈ finished
    · exact .inr hdone
    · exact .inl ((hleft'.mem other).mpr ⟨hother, hdone⟩)
  have hfree : left.erase group ⊆ free.erase group := fun other hother =>
    ((hleft'.mem other).mp hother).1
  have hfold := drains_foldlM_follow hvisit hpushed hfree hleft' (graph.successors group)
    (group :: under)
  have hstep : drain graph left finished (group :: under)
      = drain graph (left.erase group) finished
          ((graph.successors group).filter (· ∈ left.erase group) ++ group :: under) := by
    rw [drain, dif_pos htop, if_neg hself]
  unfold DrainsTo Drains at hfold ⊢
  rw [← hstep] at hfold
  refine Checked.Yields.bind hfold ?_
  rintro after ⟨hadds, left', hafter, hdrain⟩
  -- What needs the group is finished now, so the group is on the top again.
  have hfresh : group ∉ after := fun hin =>
    (hadds.added group hin).elim hnot fun hfree => hnodup.not_mem_erase hfree.1
  have hgone : group ∉ left' := fun hin => hnodup.not_mem_erase ((hafter.mem group).mp hin).1
  refine ⟨⟨fun other hin => List.mem_cons_of_mem _ (hadds.keeps hin), fun other hin => ?_⟩, left',
    hafter.finish hnodup, ?_⟩
  · rcases List.mem_cons.mp hin with rfl | hin
    · exact .inr ⟨h, fun hneeded => hself (mem_successors.mpr hneeded)⟩
    · exact (hadds.added other hin).imp_right fun hfree => ⟨List.mem_of_mem_erase hfree.1, hfree.2⟩
  · dsimp only at hdrain ⊢
    rw [hdrain, drain, dif_neg hgone, if_neg hfresh]
termination_by free.length

section Order

variable {graph : GroupGraph} {finished left : List String}

theorem drains_enter (hbuilt : graph.IsBuilt) (hleft : IsLeft graph.groups finished left)
    (group : { group // group ∈ graph.groups })
    (next : List String × List String → Checked (List String × List String)) :
    Drains graph graph.groups finished (start graph (left, finished) group >>= next)
      (fun left after => next (left, after)) (enter graph finished group) := by
  unfold enter start
  dsimp only
  by_cases hdone : group.val ∈ finished
  · have hnot : group.val ∉ left := fun hin => ((hleft.mem _).mp hin).2 hdone
    rw [if_pos hdone, if_neg hnot]
    exact Drains.pass hleft rfl
  · rw [if_neg hdone, if_pos ((hleft.mem _).mpr ⟨group.property, hdone⟩)]
    have hvisit :=
      visit_drains graph hbuilt.nodup finished left [] group group.property hdone hleft
    have hempty : ∀ left after, drain graph left after [] = .ok (left, after) :=
      fun left after => by rw [drain]
    have hnext := hvisit.andThen next
    simp only [hempty] at hnext
    exact hnext

/-- The search from one group after the other, with a stack and by recursion. -/
theorem drains_foldlM_enter (hbuilt : graph.IsBuilt)
    (starts : List { group // group ∈ graph.groups }) (hleft : IsLeft graph.groups finished left) :
    Drains graph graph.groups finished
      ((starts.map Subtype.val).foldlM (start graph) (left, finished))
      (fun left after => .ok (left, after)) (starts.foldlM (enter graph) finished) := by
  induction starts generalizing finished left with
  | nil => exact Drains.pass hleft rfl
  | cons group starts ih =>
    rw [List.foldlM_cons, List.map_cons, List.foldlM_cons]
    exact (drains_enter hbuilt hleft group _).bind fun _ _ _ hleft => ih hleft

/-- The first phase finds what the recursive search finds, and no group in it needs itself. -/
theorem searchOrder_yields_finishOrder (hbuilt : graph.IsBuilt) :
    graph.searchOrder.Yields
      (fun order => graph.finishOrder = .ok order ∧ ∀ group ∈ order, ¬ graph.Needed group group)
      (fun fault => graph.finishOrder = .error fault) := by
  have hleft : IsLeft graph.groups [] graph.groups := ⟨hbuilt.nodup, fun group => by simp⟩
  have hfold := drains_foldlM_enter hbuilt graph.groups.attach hleft
  rw [List.attach_map_subtype_val] at hfold
  unfold Drains at hfold
  rw [searchOrder_eq]
  unfold finishOrder
  cases hsearch : graph.groups.attach.foldlM (enter graph) [] with
  | error fault =>
    rw [hsearch] at hfold
    have hfold : graph.groups.foldlM (start graph) (graph.groups, []) = .error fault := hfold
    show _ = _
    rw [hfold]
    rfl
  | ok order =>
    rw [hsearch] at hfold
    obtain ⟨hadds, left, -, hfold⟩ := hfold
    refine ⟨?_, fun group hmem => ?_⟩
    · rw [hfold]
      rfl
    · exact ((hadds.added group hmem).resolve_left List.not_mem_nil).2

/-! ## The second phase is the check of the order -/

theorem discover_filter (graph : GroupGraph) (discovered stack : List String) :
    (discover graph discovered (stack.filter (· ∉ discovered))).map Prod.fst
      = stack.find? fun group => !discovered.contains group := by
  induction stack with
  | nil => rfl
  | cons top stack ih =>
    by_cases hmem : top ∈ discovered
    · rw [List.filter_cons_of_neg (by simpa using hmem),
        List.find?_cons_of_neg (by simpa using hmem)]
      exact ih
    · rw [List.filter_cons_of_pos (by simpa using hmem),
        List.find?_cons_of_pos (by simpa using hmem),
        discover, if_neg hmem]
      rfl

theorem checkBack_eq {order seen : List String} (hnodup : order.Nodup)
    (hfresh : ∀ group ∈ order, group ∉ seen) :
    checkBack graph seen order = checkOrder graph seen order := by
  induction order generalizing seen with
  | nil => rfl
  | cons group order ih =>
    obtain ⟨hgroup, horder⟩ := List.forall_mem_cons.mp hfresh
    obtain ⟨hnot, hnodup⟩ := List.nodup_cons.mp hnodup
    have hrest : ∀ other ∈ order, other ∉ group :: seen := fun other hother hin =>
      (List.mem_cons.mp hin).elim (fun heq => hnot (heq ▸ hother)) (horder other hother)
    have hfirst : discover graph seen [group] = some (group, group :: seen,
        (graph.predecessors group).filter (· ∉ group :: seen)) := by
      rw [discover, if_neg hgroup, List.append_nil]
    have hsecond := discover_filter graph (group :: seen) (graph.predecessors group)
    rw [checkBack, checkOrder, hfirst]
    dsimp only
    cases hdiscover : discover graph (group :: seen)
        ((graph.predecessors group).filter (· ∉ group :: seen)) with
    | none =>
      rw [hdiscover] at hsecond
      rw [← hsecond]
      exact ih hnodup hrest
    | some found =>
      rw [hdiscover] at hsecond
      rw [← hsecond]
      rfl

theorem IsFinished.nodup {order : List String} (h : graph.IsFinished order) : order.Nodup := by
  induction h with
  | nil => exact List.nodup_nil
  | cons _ hfresh _ ih => exact List.nodup_cons.mpr ⟨hfresh, ih⟩

/-- Both phases with their stacks find what the recursive search and its check find. -/
theorem toposort_eq (hbuilt : graph.IsBuilt) : graph.toposort = graph.order := by
  have hphase := searchOrder_yields_finishOrder hbuilt
  have hfinished := searchOrder_yields hbuilt
  unfold toposort order
  cases hsearch : graph.searchOrder with
  | error fault =>
    rw [hsearch] at hphase
    have hphase : graph.finishOrder = .error fault := hphase
    rw [hphase]
    rfl
  | ok order =>
    rw [hsearch] at hphase hfinished
    have hback : checkBack graph [] order = checkOrder graph [] order :=
      checkBack_eq hfinished.1.nodup fun _ _ => List.not_mem_nil
    rw [hphase.1]
    show (checkBack graph [] order >>= fun _ => _) = (checkOrder graph [] order >>= fun _ => _)
    rw [hback]

end Order

end ClusterBlueprint.GroupGraph
