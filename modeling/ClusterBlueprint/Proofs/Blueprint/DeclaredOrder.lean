import ClusterBlueprint.Proofs.Blueprint.GroupOrder

/-!
What the declared order of the groups decides.

The references of a group are references to modules that are there, so the graph can be built.  With
names and ids of their own the groups stand where the references say, and the declared order passes
exactly if no setting refers to a later group.
-/

namespace ClusterBlueprint

namespace Blueprint

variable {bp : Blueprint}

/-- Whether no setting holds a reference to a module of a later group. -/
def RefersBack (bp : Blueprint) : Prop :=
  ∀ i j module target, bp.Placed i module → bp.Placed j target → i ≠ j →
    ∀ name reference, Value.Holds reference (module.settings.get name) →
      reference.module? = some target.id → j < i

theorem refersBack_iff : bp.RefersBack ↔ ∀ i j, bp.Refers i j → j < i := by
  constructor
  · rintro h i j ⟨hne, module, hmodule, name, reference, href, target, htarget, hid⟩
    exact h i j module target hmodule htarget hne name reference
      (Value.mem_references_iff_holds.mp href) hid
  · intro h i j module target hmodule htarget hne name reference hholds hid
    exact h i j ⟨hne, module, hmodule, name, reference, Value.mem_references_iff_holds.mpr hholds,
      target, htarget, hid⟩

/-- What a group refers to is in a group. -/
theorem exists_groupOf_of_mem {group : Group} {reference : Reference}
    (h : reference ∈ Intergroup.groupReferences bp group) :
    ∃ id producer, reference.module? = some id ∧ bp.groupOf? id = some producer := by
  rw [Intergroup.groupReferences, Intergroup.mem_sortedReferences, List.mem_flatMap] at h
  obtain ⟨module, -, href⟩ := h
  obtain ⟨-, -, -, j, -, hposition⟩ := mem_moduleReferences.mp href
  obtain ⟨id, hid, hindex⟩ := Option.bind_eq_some_iff.mp hposition
  obtain ⟨hlt, -, -⟩ := List.findIdx?_eq_some_iff_getElem.mp hindex
  exact ⟨id, bp.groups[j], hid, groupOf?_eq_some.mpr ⟨j, hindex, List.getElem?_eq_getElem hlt⟩⟩

end Blueprint

namespace GroupGraph

variable {bp : Blueprint}

/-- The graph with what a reference of a group says, or a fault if it is to no module. -/
def linkChecked (bp : Blueprint) (group : Group) (graph : GroupGraph) (reference : Reference) :
    Checked GroupGraph := do
  let producer ← bp.groupOf (reference.module?.getD "")
  return graph.depend group.name producer.name

/-- The groups of a blueprint, and which of them need which, or a fault if a reference is to no
module. -/
def build (bp : Blueprint) : Checked GroupGraph :=
  bp.groups.foldlM (fun graph group =>
      (Intergroup.groupReferences bp group).foldlM (linkChecked bp group) graph)
    (bp.groups.foldl (fun graph group => graph.add group.name) ∅)

theorem linkChecked_eq_ok {group : Group} {reference : Reference}
    (h : reference ∈ Intergroup.groupReferences bp group) (graph : GroupGraph) :
    linkChecked bp group graph reference = .ok (link bp group graph reference) := by
  obtain ⟨id, producer, hid, hproducer⟩ := Blueprint.exists_groupOf_of_mem h
  unfold linkChecked link Blueprint.groupOf
  rw [hid, Option.getD_some, Option.bind_some, hproducer]
  rfl

/-- No graph is refused. -/
theorem build_eq_ok (bp : Blueprint) : build bp = .ok (ofBlueprint bp) := by
  rw [ofBlueprint_eq]
  exact Checked.foldlM_eq_ok_foldl (fun group _ graph =>
    Checked.foldlM_eq_ok_foldl (fun _ href graph => linkChecked_eq_ok href graph) graph) _

/-- With names and ids of their own, the groups have a graph.  Their declared order passes exactly
if no setting refers to a later group, and then they can be ordered. -/
theorem build_decides_refersBack (h : bp.HasOwnNames) : ∃ graph, build bp = .ok graph
    ∧ (graph.checkDeclaredOrder bp = .ok () ↔ bp.RefersBack)
    ∧ (graph.checkDeclaredOrder bp = .ok () → ∃ order, graph.order = .ok order) := by
  refine ⟨ofBlueprint bp, build_eq_ok bp, ?_, fun hdeclared => ?_⟩
  · rw [Blueprint.refersBack_iff]
    exact checkDeclaredOrder_eq_ok h
  · exact exists_order_ofBlueprint h ((checkDeclaredOrder_eq_ok h).mp hdeclared)

/-- Three groups of one module each, of which the middle one has settings. -/
def flanked (settings : Dict) : Blueprint where
  name := "bp"
  groups := [
    { name := "first", modules := [{ source := "modules/m", id := "a" }] },
    { name := "second", modules := [{ source := "modules/m", id := "b", settings }] },
    { name := "third", modules := [{ source := "modules/m", id := "c" }] }]

theorem hasOwnNames_flanked (settings : Dict) : (flanked settings).HasOwnNames :=
  ⟨by show ["first", "second", "third"].Nodup; decide, by show ["a", "b", "c"].Nodup; decide⟩

def outputSetting (id : String) : Dict :=
  .ofValues (.ofList [("in", .list [.ofReference (.ofModule id "out")])])

theorem module?_of_holds_outputSetting {id name : String} {reference : Reference}
    (h : Value.Holds reference ((outputSetting id).get name)) : reference.module? = some id := by
  rw [← Value.mem_references_iff_holds] at h
  have hname : name = "in" :=
    List.mem_singleton.mp (Dict.has_iff_mem_keys.mp (Dict.has_of_mem_references h))
  subst hname
  obtain rfl : reference = .ofModule id "out" := List.mem_singleton.mp h
  rfl

theorem placed_flanked {settings : Dict} {i : Nat} {module : Module}
    (h : (flanked settings).Placed i module) :
    (i = 0 ∧ module.id = "a" ∧ module.settings = ∅)
      ∨ (i = 1 ∧ module.id = "b" ∧ module.settings = settings)
      ∨ (i = 2 ∧ module.id = "c" ∧ module.settings = ∅) := by
  obtain ⟨group, hgroup, hmem⟩ := h
  rcases i with _ | _ | _ | i
  · obtain rfl := Option.some.inj hgroup
    obtain rfl := List.mem_singleton.mp hmem
    exact .inl ⟨rfl, rfl, rfl⟩
  · obtain rfl := Option.some.inj hgroup
    obtain rfl := List.mem_singleton.mp hmem
    exact .inr (.inl ⟨rfl, rfl, rfl⟩)
  · obtain rfl := Option.some.inj hgroup
    obtain rfl := List.mem_singleton.mp hmem
    exact .inr (.inr ⟨rfl, rfl, rfl⟩)
  · exact absurd hgroup (Option.some_ne_none group).symm

/-- The middle group may refer to the first one. -/
theorem refersBack_flanked : (flanked (outputSetting "a")).RefersBack := by
  intro i j module target hmodule htarget hne name reference hholds hid
  have hempty : module.settings = ∅ → False := by
    intro hsettings
    rw [hsettings] at hholds
    nomatch hholds
  rcases placed_flanked hmodule with ⟨-, -, hsettings⟩ | ⟨rfl, -, hsettings⟩ | ⟨-, -, hsettings⟩
  · exact (hempty hsettings).elim
  · rw [hsettings] at hholds
    have htargetId : target.id = "a" :=
      Option.some.inj (hid.symm.trans (module?_of_holds_outputSetting hholds))
    rcases placed_flanked htarget with ⟨rfl, -, -⟩ | ⟨-, hother, -⟩ | ⟨-, hother, -⟩
    · exact Nat.zero_lt_one
    · exact absurd (htargetId.symm.trans hother) (by decide)
    · exact absurd (htargetId.symm.trans hother) (by decide)
  · exact (hempty hsettings).elim

theorem build_decides_refersBack_of_flanked :
    (∃ graph, build (flanked (outputSetting "a")) = .ok graph
      ∧ graph.checkDeclaredOrder (flanked (outputSetting "a")) = .ok ()
      ∧ ∃ order, graph.order = .ok order)
    ∧ ∃ graph, build (flanked (outputSetting "c")) = .ok graph
      ∧ graph.checkDeclaredOrder (flanked (outputSetting "c")) ≠ .ok () := by
  constructor
  · obtain ⟨graph, hbuild, hdecides, horder⟩ :=
      build_decides_refersBack (hasOwnNames_flanked (outputSetting "a"))
    have hdeclared := hdecides.mpr refersBack_flanked
    exact ⟨graph, hbuild, hdeclared, horder hdeclared⟩
  · obtain ⟨graph, hbuild, hdecides, -⟩ :=
      build_decides_refersBack (hasOwnNames_flanked (outputSetting "c"))
    refine ⟨graph, hbuild, fun hdeclared => ?_⟩
    have hholds : Value.Holds (.ofModule "c" "out") ((outputSetting "c").get "in") :=
      Value.mem_references_iff_holds.mp List.mem_cons_self
    -- The third group stands after the second one, which refers to it.
    have hlt : 2 < 1 := hdecides.mp hdeclared 1 2 _ _ ⟨_, rfl, List.mem_singleton_self _⟩
      ⟨_, rfl, List.mem_singleton_self _⟩ (by decide) "in" _ hholds rfl
    exact absurd hlt (by decide)

end GroupGraph

end ClusterBlueprint
