import ClusterBlueprint.Proofs.Evaluation.Yields
import ClusterBlueprint.Proofs.SortedMap
import ClusterBlueprint.Variables
import Mathlib.Logic.Relation

/-!
What the search for the values of the variables does.

A variable that is neither free nor resolved is one whose search led to the current one: that is the
invariant from which a reference to it is known to close a cycle.  `Variables.visit_yields` is one
step of the search and `Variables.resolveAll_yields` the whole search.
-/

namespace ClusterBlueprint.Variables

open Evaluation Relation

/-- An edge: the value of one variable refers to another variable. -/
def Refers (vars : Dict) (name target : String) : Prop :=
  .global target ∈ (vars.get name).references

/-- Whether a reference is to a variable that has its value. -/
def IsResolved (resolved : SortedMap Value) (reference : Reference) : Prop :=
  ∃ target, reference = .global target ∧ resolved.contains target

/-- The maps that the search builds up: each variable comes after those it refers to. -/
inductive Resolves (vars : Dict) : SortedMap Value → Prop
  | empty : Resolves vars ∅
  | insert {resolved : SortedMap Value} {name : String} {value : Value} : Resolves vars resolved →
      vars.has name → ¬ resolved.contains name →
      (∀ reference ∈ (vars.get name).references, IsResolved resolved reference) →
      ((vars.get name).eval resolved).result = .ok value →
      Resolves vars (resolved.insert name value)

inductive Failure (vars : Dict) : Fault → Prop
  | nonGlobal {name : String} {group : Option String} {module output : String} : vars.has name →
      .output group module output ∈ (vars.get name).references →
      Failure vars (.located (Location.vars.key name) Cause.nonGlobalReference)
  | cyclic {name target : String} : vars.has name → Refers vars name target →
      ReflTransGen (Refers vars) target name →
      Failure vars (.located (Location.vars.key name) (Cause.cyclicDependency name target))
  | unknown {name target : String} : vars.has name → Refers vars name target → ¬ vars.has target →
      Failure vars (.located (Location.vars.key name) (Cause.unknownVariable target))
  | evaluation {name : String} {resolved : SortedMap Value} {fault : Fault} : vars.has name →
      Resolves vars resolved →
      (∀ reference ∈ (vars.get name).references, IsResolved resolved reference) →
      ((vars.get name).eval resolved).result = .error fault →
      Failure vars (.located (Location.vars.key name) fault)

/-! ## One step -/

/-- A reference of `name` followed to the variable that is meant. -/
def follow (vars : Dict) (free : List String) (name : String) (resolved : SortedMap Value)
    (reference : Reference) : Evaluation (SortedMap Value) :=
  match reference with
  | .output .. =>
    ofChecked (.error (.located (Location.vars.key name) Cause.nonGlobalReference))
  | .global target =>
    if resolved.contains target then pure resolved
    else if htarget : target ∈ free.erase name then
      visit vars (free.erase name) resolved target htarget
    else if vars.has target then
      ofChecked (.error (.located (Location.vars.key name) (Cause.cyclicDependency name target)))
    else ofChecked (.error (.located (Location.vars.key name) (Cause.unknownVariable target)))

theorem visit_eq (vars : Dict) (free : List String) (resolved : SortedMap Value) (name : String)
    (h : name ∈ free) :
    visit vars free resolved name h = (do
      let resolved ← (vars.get name).references.foldlM (follow vars free name) resolved
      let value ← ((vars.get name).eval resolved).located (Location.vars.key name)
      pure (resolved.insert name value)) := by
  rw [visit]
  rfl

/-- What a search adds to what is resolved: variables that were free, and none is lost. -/
structure Extends (vars : Dict) (free : List String) (resolved after : SortedMap Value) : Prop where
  resolves : Resolves vars after
  keeps : ∀ name, resolved.contains name → after.contains name
  free_or : ∀ name, after.contains name → resolved.contains name ∨ name ∈ free

/-- The variables that are neither free nor resolved lead to the current one. -/
def LeadTo (vars : Dict) (free : List String) (resolved : SortedMap Value) (name : String) : Prop :=
  ∀ other, vars.has other → other ∉ free → ¬ resolved.contains other →
    ReflTransGen (Refers vars) other name

section Step

variable {vars : Dict} {free : List String} {resolved after : SortedMap Value} {name : String}

theorem Extends.refl (h : Resolves vars resolved) : Extends vars free resolved resolved :=
  ⟨h, fun _ => id, fun _ => .inl⟩

theorem Extends.trans {last : SortedMap Value} (hfirst : Extends vars free resolved after)
    (hsecond : Extends vars free after last) : Extends vars free resolved last where
  resolves := hsecond.resolves
  keeps name h := hsecond.keeps name (hfirst.keeps name h)
  free_or name h := (hsecond.free_or name h).elim (hfirst.free_or name) .inr

theorem IsResolved.mono {reference : Reference} (h : IsResolved resolved reference)
    (hkeeps : ∀ name, resolved.contains name → after.contains name) :
    IsResolved after reference := by
  obtain ⟨target, rfl, htarget⟩ := h
  exact ⟨target, rfl, hkeeps target htarget⟩

theorem IsResolved.insert {reference : Reference} (h : IsResolved resolved reference)
    (value : Value) : IsResolved (resolved.insert name value) reference :=
  h.mono fun _ hcontains => SortedMap.contains_insert.mpr (.inr hcontains)

/-- What the search from each free variable is known to do. -/
def Visits (vars : Dict) (free : List String) : Prop :=
  ∀ (resolved : SortedMap Value) (name : String) (h : name ∈ free), Resolves vars resolved →
    ¬ resolved.contains name → LeadTo vars (free.erase name) resolved name →
    (visit vars free resolved name h).Yields
      (fun after => Extends vars free resolved after ∧ after.contains name) (Failure vars)

theorem follow_yields (hvisits : Visits vars (free.erase name)) (hname : vars.has name)
    (hres : Resolves vars resolved) (hlead : LeadTo vars (free.erase name) resolved name)
    {reference : Reference} (href : reference ∈ (vars.get name).references) :
    (follow vars free name resolved reference).Yields
      (fun after => Extends vars (free.erase name) resolved after ∧ IsResolved after reference)
      (Failure vars) := by
  cases reference with
  | output group module output => exact Failure.nonGlobal hname href
  | global target =>
    unfold follow
    dsimp only
    by_cases hdone : resolved.contains target
    · rw [if_pos hdone]
      exact yields_pure ⟨.refl hres, target, rfl, hdone⟩
    rw [if_neg hdone]
    by_cases hfree : target ∈ free.erase name
    · rw [dif_pos hfree]
      have hlead' : LeadTo vars ((free.erase name).erase target) resolved target := by
        intro other hother hnot hunresolved
        by_cases heq : other = target
        · rw [heq]
        · have hnot' : other ∉ free.erase name := fun hmem =>
            hnot ((List.mem_erase_of_ne heq).mpr hmem)
          exact (hlead other hother hnot' hunresolved).tail href
      refine (hvisits resolved target hfree hres hdone hlead').mono ?_ fun _ => id
      exact fun after ⟨hextends, hcontains⟩ => ⟨hextends, target, rfl, hcontains⟩
    rw [dif_neg hfree]
    by_cases hhas : vars.has target
    · rw [if_pos hhas]
      exact Failure.cyclic hname href (hlead target hhas hfree hdone)
    · rw [if_neg hhas]
      exact Failure.unknown hname href hhas

theorem follow_foldlM_yields (hvisits : Visits vars (free.erase name)) (hname : vars.has name)
    {references : List Reference} (hsub : ∀ r ∈ references, r ∈ (vars.get name).references)
    (hres : Resolves vars resolved) (hlead : LeadTo vars (free.erase name) resolved name) :
    (references.foldlM (follow vars free name) resolved).Yields
      (fun after => Extends vars (free.erase name) resolved after
        ∧ ∀ r ∈ references, IsResolved after r) (Failure vars) := by
  induction references generalizing resolved with
  | nil => exact yields_pure ⟨.refl hres, List.forall_mem_nil _⟩
  | cons reference references ih =>
    obtain ⟨hfirst, hrest⟩ := List.forall_mem_cons.mp hsub
    rw [List.foldlM_cons]
    refine (follow_yields hvisits hname hres hlead hfirst).bind fun middle hmiddle => ?_
    obtain ⟨hextends, hresolved⟩ := hmiddle
    have hlead' : LeadTo vars (free.erase name) middle name := fun other hother hnot hunresolved =>
      hlead other hother hnot fun hcontains => hunresolved (hextends.keeps other hcontains)
    refine (ih hrest hextends.resolves hlead').mono ?_ fun _ => id
    rintro after ⟨hlast, hall⟩
    exact ⟨hextends.trans hlast, List.forall_mem_cons.mpr ⟨hresolved.mono hlast.keeps, hall⟩⟩

end Step

/-- One variable: after those it refers to, it is resolved itself. -/
theorem visit_yields {vars : Dict} {free : List String} (hnodup : free.Nodup)
    (hhas : ∀ name ∈ free, vars.has name) : Visits vars free := by
  intro resolved name h hres hnot hlead
  have hlt := length_erase_lt h
  -- The search goes on without this name among the free ones: the induction is on their number.
  have hvisits : Visits vars (free.erase name) :=
    visit_yields (hnodup.erase name) fun other hother => hhas other (List.mem_of_mem_erase hother)
  have hname := hhas name h
  rw [visit_eq]
  refine (follow_foldlM_yields hvisits hname (fun _ => id) hres hlead).bind fun middle hmiddle => ?_
  obtain ⟨hextends, hresolved⟩ := hmiddle
  have hfresh : ¬ middle.contains name := fun hcontains =>
    (hextends.free_or name hcontains).elim hnot hnodup.not_mem_erase
  have hvalue : (((vars.get name).eval middle).located (Location.vars.key name)).Yields
      (fun value => ((vars.get name).eval middle).result = .ok value) (Failure vars) := by
    unfold Yields
    rw [result_located]
    cases heval : ((vars.get name).eval middle).result with
    | ok value => rfl
    | error fault => exact Failure.evaluation hname hextends.resolves hresolved heval
  refine hvalue.bind fun value heval => yields_pure ⟨⟨?_, ?_, ?_⟩, ?_⟩
  · exact .insert hextends.resolves hname hfresh hresolved heval
  · exact fun other hother => SortedMap.contains_insert.mpr (.inr (hextends.keeps other hother))
  · intro other hother
    rcases SortedMap.contains_insert.mp hother with rfl | hother
    · exact .inr h
    · exact (hextends.free_or other hother).imp id List.mem_of_mem_erase
  · exact SortedMap.contains_insert.mpr (.inl rfl)
termination_by free.length

/-! ## The whole search -/

def enter (vars : Dict) (resolved : SortedMap Value) (key : { name // name ∈ vars.keys }) :
    Evaluation (SortedMap Value) :=
  if resolved.contains key then pure resolved else visit vars vars.keys resolved key key.property

theorem enter_yields {vars : Dict} {resolved : SortedMap Value} (h : Resolves vars resolved)
    (key : { name // name ∈ vars.keys }) :
    (enter vars resolved key).Yields
      (fun after => Extends vars vars.keys resolved after ∧ after.contains key) (Failure vars) := by
  unfold enter
  split
  · next hdone => exact yields_pure ⟨.refl h, hdone⟩
  · next hnot =>
    have hkeys := vars.entries.nodup_keys
    have hlead : LeadTo vars (vars.keys.erase key) resolved key := by
      intro other hother hfree _
      by_cases heq : other = key
      · rw [heq]
      · exact absurd ((List.mem_erase_of_ne heq).mpr (Dict.has_iff_mem_keys.mp hother)) hfree
    exact visit_yields hkeys (fun _ => Dict.has_iff_mem_keys.mpr) resolved key key.property h hnot
      hlead

theorem enter_foldlM_yields {vars : Dict} {keys : List { name // name ∈ vars.keys }}
    {resolved : SortedMap Value} (h : Resolves vars resolved) :
    (keys.foldlM (enter vars) resolved).Yields
      (fun after => Extends vars vars.keys resolved after ∧ ∀ key ∈ keys, after.contains key)
      (Failure vars) := by
  induction keys generalizing resolved with
  | nil => exact yields_pure ⟨.refl h, List.forall_mem_nil _⟩
  | cons key keys ih =>
    rw [List.foldlM_cons]
    refine (enter_yields h key).bind fun middle hmiddle => ?_
    obtain ⟨hextends, hcontains⟩ := hmiddle
    refine (ih hextends.resolves).mono ?_ fun _ => id
    rintro after ⟨hlast, hall⟩
    exact ⟨hextends.trans hlast, List.forall_mem_cons.mpr ⟨hlast.keeps key hcontains, hall⟩⟩

theorem resolveAll_eq (vars : Dict) :
    resolveAll vars = vars.keys.attach.foldlM (enter vars) ∅ := rfl

theorem resolveAll_yields (vars : Dict) :
    (resolveAll vars).Yields
      (fun resolved => Resolves vars resolved ∧ ∀ name, resolved.contains name ↔ vars.has name)
      (Failure vars) := by
  rw [resolveAll_eq]
  refine (enter_foldlM_yields .empty).mono ?_ fun _ => id
  rintro resolved ⟨hextends, hall⟩
  refine ⟨hextends.resolves, fun name => ⟨fun h => ?_, fun h => ?_⟩⟩
  · exact (hextends.free_or name h).elim (absurd · Bool.false_ne_true) Dict.has_iff_mem_keys.mpr
  · have hmem := Dict.has_iff_mem_keys.mp h
    exact hall ⟨name, hmem⟩ (List.mem_attach _ _)

end ClusterBlueprint.Variables
