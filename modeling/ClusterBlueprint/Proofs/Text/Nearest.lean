import ClusterBlueprint.Proofs.Text.PrefixRows

/-!
The nearest of some names.

Names are compared by the least number of edits that lead to them.  Of the names that are nearest
the first is taken, unless it is farther than three edits.
-/

namespace ClusterBlueprint.Text

/-- Whether a candidate is the first of those that none is nearer to a name than. -/
def IsFirstNearest (name : String) (candidates : List String) (candidate : String) : Prop :=
  ∃ before after, candidates = before ++ candidate :: after
    ∧ (∀ other ∈ before, distance name candidate < distance name other)
    ∧ ∀ other ∈ after, distance name candidate ≤ distance name other

variable {name candidate : String} {candidates : List String}

theorem IsFirstNearest.le (h : IsFirstNearest name candidates candidate) {other : String}
    (hother : other ∈ candidates) : distance name candidate ≤ distance name other := by
  obtain ⟨before, after, rfl, hbefore, hafter⟩ := h
  rcases List.mem_append.mp hother with hmem | hmem
  · exact Nat.le_of_lt (hbefore other hmem)
  · rcases List.mem_cons.mp hmem with rfl | hrest
    · exact Nat.le_refl _
    · exact hafter other hrest

theorem exists_isFirstNearest (name : String) (h : candidates ≠ []) :
    ∃ candidate, IsFirstNearest name candidates candidate := by
  induction candidates with
  | nil => exact absurd rfl h
  | cons first rest ih =>
    by_cases hrest : rest = []
    · exact ⟨first, [], rest, rfl, nofun, by rw [hrest]; nofun⟩
    · -- Of the first candidate and the first nearest of the rest, the first wins a tie.
      obtain ⟨nearest, hnearest⟩ := ih hrest
      by_cases hfirst : distance name first ≤ distance name nearest
      · refine ⟨first, [], rest, rfl, nofun, ?_⟩
        intro other hother
        exact Nat.le_trans hfirst (hnearest.le hother)
      · obtain ⟨before, after, hsplit, hbefore, hafter⟩ := hnearest
        refine ⟨nearest, first :: before, after, by rw [hsplit]; rfl, ?_, hafter⟩
        intro other hother
        rcases List.mem_cons.mp hother with rfl | hmem
        · omega
        · exact hbefore other hmem

def inReach (name : String) (candidates : List String) : List String :=
  candidates.filter fun candidate => distance name candidate ≤ nearDistance

theorem mem_inReach :
    candidate ∈ inReach name candidates
      ↔ candidate ∈ candidates ∧ distance name candidate ≤ 3 := by
  rw [inReach, List.mem_filter, decide_eq_true_iff]
  rfl

theorem nearest?_eq (name : String) (candidates : List String) :
    nearest? name candidates = (inReach name candidates).find? fun candidate =>
      (inReach name candidates).all fun other =>
        distance name candidate ≤ distance name other := rfl

/-- Within reach, the first of the nearest is found. -/
theorem nearest?_of_isFirstNearest (h : IsFirstNearest name candidates candidate)
    (hreach : distance name candidate ≤ 3) : nearest? name candidates = some candidate := by
  have hle : ∀ other ∈ candidates, distance name candidate ≤ distance name other :=
    fun _ => h.le
  obtain ⟨before, after, hsplit, hbefore, -⟩ := h
  have hfirst : inReach name candidates
      = inReach name before ++ candidate :: inReach name after := by
    have hnear : decide (distance name candidate ≤ nearDistance) = true := decide_eq_true hreach
    simp only [hsplit, inReach, List.filter_append, List.filter_cons, hnear, if_true]
  rw [nearest?_eq, List.find?_eq_some_iff_append]
  refine ⟨?_, inReach name before, inReach name after, hfirst, ?_⟩
  · rw [List.all_eq_true]
    intro other hother
    exact decide_eq_true (hle other (mem_inReach.mp hother).1)
  · intro other hother
    have hfarther := hbefore other (mem_inReach.mp hother).1
    rw [Bool.not_eq_true', List.all_eq_false]
    refine ⟨candidate, mem_inReach.mpr ⟨by simp [hsplit], hreach⟩, ?_⟩
    simpa using hfarther

theorem nearest?_of_far (h : ∀ candidate ∈ candidates, 3 < distance name candidate) :
    nearest? name candidates = none := by
  have hnone : inReach name candidates = [] := by
    rw [List.eq_nil_iff_forall_not_mem]
    intro candidate hcandidate
    obtain ⟨hmem, hreach⟩ := mem_inReach.mp hcandidate
    have hfar := h candidate hmem
    omega
  rw [nearest?_eq, hnone]
  rfl

/-- Either some candidate is the first of the nearest and within reach, or none is within reach. -/
theorem nearest_cases (name : String) (candidates : List String) :
    (∃ candidate, IsFirstNearest name candidates candidate ∧ distance name candidate ≤ 3)
      ∨ ∀ candidate ∈ candidates, 3 < distance name candidate := by
  by_cases hempty : candidates = []
  · rw [hempty]
    exact .inr nofun
  · obtain ⟨nearest, hnearest⟩ := exists_isFirstNearest name hempty
    by_cases hreach : distance name nearest ≤ 3
    · exact .inl ⟨nearest, hnearest, hreach⟩
    · refine .inr fun candidate hcandidate => ?_
      have hle := hnearest.le hcandidate
      omega

theorem nearest?_eq_some_iff :
    nearest? name candidates = some candidate
      ↔ IsFirstNearest name candidates candidate ∧ distance name candidate ≤ 3 := by
  constructor
  · intro hfound
    rcases nearest_cases name candidates with ⟨nearest, hnearest, hreach⟩ | hfar
    · rw [nearest?_of_isFirstNearest hnearest hreach] at hfound
      rw [← Option.some.inj hfound]
      exact ⟨hnearest, hreach⟩
    · rw [nearest?_of_far hfar] at hfound
      exact absurd hfound nofun
  · intro hnearest
    exact nearest?_of_isFirstNearest hnearest.1 hnearest.2

theorem nearest?_eq_none_iff :
    nearest? name candidates = none
      ↔ ∀ candidate ∈ candidates, 3 < distance name candidate := by
  constructor
  · intro hnone
    rcases nearest_cases name candidates with ⟨nearest, hnearest, hreach⟩ | hfar
    · rw [nearest?_of_isFirstNearest hnearest hreach] at hnone
      exact absurd hnone nofun
    · exact hfar
  · exact nearest?_of_far

/-- The distance is the least number of insertions, deletions and replacements of single characters,
which the rows of prefixes come to as well, and so it is a metric.  The nearest of some names is the
first of those at the least distance, if that is at most three, and there is none otherwise. -/
theorem nearest?_by_least_edits :
    (∀ s t : String, IsLeast {n | EditsIn n s.toList t.toList} (distance s t)
        ∧ prefixDistance? s t = some (distance s t))
      ∧ (∀ s t, distance s t = distance t s)
      ∧ (∀ s t, distance s t = 0 ↔ s = t)
      ∧ (∀ s t u, distance s u ≤ distance s t + distance t u)
      ∧ ∀ name candidates,
        (∀ candidate, nearest? name candidates = some candidate
            ↔ IsFirstNearest name candidates candidate ∧ distance name candidate ≤ 3)
          ∧ (nearest? name candidates = none
            ↔ ∀ candidate ∈ candidates, 3 < distance name candidate) := by
  refine ⟨?_, ?_, ?_, ?_, ?_⟩
  · intro s t
    exact ⟨isLeast_charDistance s.toList t.toList, prefixDistance?_eq s t⟩
  · intro s t
    exact charDistance_comm s.toList t.toList
  · intro s t
    rw [distance_eq, charDistance_eq_zero_iff, String.toList_inj]
  · intro s t u
    exact charDistance_triangle s.toList t.toList u.toList
  · intro name candidates
    exact ⟨fun _ => nearest?_eq_some_iff, nearest?_eq_none_iff⟩

example : nearest? "ab" ["abcdef", "ax", "ay"] = some "ax" := by decide

end ClusterBlueprint.Text
