import ClusterBlueprint.Proofs.Evaluation.Yields

/-!
What the table of staged files holds after some calls.

A destination depends on the spelling of a source, and the table goes by the path that the source
resolves to.  So of several calls that resolve to one path the table answers for the last, and it
answers for all of them only if their spellings have one destination.
-/

namespace ClusterBlueprint

namespace StagedFiles

variable {directory path source : String} {sources : List String}

theorem get?_record_self (staged : StagedFiles) (directory source destination : String) :
    (staged.record directory source destination).get? (resolve directory source)
      = some destination := SortedMap.find?_insert_self ..

theorem get?_record_of_ne (staged : StagedFiles) (h : path ≠ resolve directory source)
    (destination : String) :
    (staged.record directory source destination).get? path = staged.get? path :=
  SortedMap.find?_insert_of_ne staged.files h destination

/-- The sources among some that resolve to a path, in order. -/
def resolvingTo (directory path : String) (sources : List String) : List String :=
  sources.filter (resolve directory · = path)

theorem mem_resolvingTo :
    source ∈ resolvingTo directory path sources
      ↔ source ∈ sources ∧ resolve directory source = path := by
  rw [resolvingTo, List.mem_filter, decide_eq_true_iff]

/-- Under a path stands the destination of the last source that resolves to it. -/
theorem get?_recordAll (staged : StagedFiles) (directory : String) (sources : List String)
    (path : String) :
    (staged.recordAll directory sources).get? path
      = ((resolvingTo directory path sources).getLast?.map destination).or (staged.get? path) := by
  induction sources generalizing staged with
  | nil => rfl
  | cons source sources ih =>
    have hstep : staged.recordAll directory (source :: sources)
        = (staged.record directory source (destination source)).recordAll directory sources := rfl
    rw [hstep, ih, resolvingTo, resolvingTo, List.filter_cons]
    by_cases hpath : resolve directory source = path
    · subst hpath
      rw [get?_record_self, if_pos (decide_eq_true rfl), List.getLast?_cons]
      cases (sources.filter _).getLast? <;> rfl
    · rw [get?_record_of_ne staged (Ne.symm hpath), if_neg (by simpa using hpath)]

theorem exists_last_of_mem (h : source ∈ sources) :
    ∃ last ∈ sources, resolve directory last = resolve directory source
      ∧ ∀ staged : StagedFiles, (staged.recordAll directory sources).get? (resolve directory source)
        = some (destination last) := by
  have hmem : source ∈ resolvingTo directory (resolve directory source) sources :=
    mem_resolvingTo.mpr ⟨h, rfl⟩
  obtain ⟨last, hlast⟩ := Option.isSome_iff_exists.mp
    (List.getLast?_isSome.mpr (List.ne_nil_of_mem hmem))
  obtain ⟨hsource, hpath⟩ := mem_resolvingTo.mp (List.mem_of_getLast? hlast)
  refine ⟨last, hsource, hpath, fun staged => ?_⟩
  rw [get?_recordAll, hlast]
  rfl

/-- The keys of the table are those that it had and the paths of the sources. -/
theorem isSome_get?_recordAll {staged : StagedFiles} :
    ((staged.recordAll directory sources).get? path).isSome
      ↔ (staged.get? path).isSome ∨ ∃ source ∈ sources, resolve directory source = path := by
  rw [get?_recordAll, Option.isSome_or, Option.isSome_map, Bool.or_eq_true, or_comm,
    List.getLast?_isSome, Ne, List.eq_nil_iff_forall_not_mem]
  simp only [mem_resolvingTo, Classical.not_forall, Classical.not_not]

/-- The table holds what each of some calls returned exactly if the sources that resolve to one path
have one destination. -/
theorem get?_recordAll_eq_destination_iff (staged : StagedFiles) (directory : String)
    (sources : List String) :
    (∀ source ∈ sources, (staged.recordAll directory sources).get? (resolve directory source)
        = some (destination source))
      ↔ ∀ a ∈ sources, ∀ b ∈ sources, resolve directory a = resolve directory b →
        destination a = destination b := by
  constructor
  · intro hheld a ha b hb hpath
    refine Option.some.inj ?_
    rw [← hheld a ha, hpath, hheld b hb]
  · intro hsame source hsource
    obtain ⟨last, hlast, hpath, hget⟩ := exists_last_of_mem hsource
    rw [hget, hsame last hlast source hsource hpath]

end StagedFiles

/-! ## Calls -/

namespace Term

def stagingOf (source : String) : Term := .call Function.stageName [.ofString source]

theorem eval_stagingOf (bindings : SortedMap Value) (source : String) :
    (stagingOf source).eval bindings
      = ⟨[source], .ok (.string (StagedFiles.destination source))⟩ := by
  have htext : (ofString source).eval bindings = ⟨[], .ok (.string (source ++ ""))⟩ := rfl
  rw [String.append_empty] at htext
  simp only [stagingOf, eval, evalList, htext]
  rfl

/-- Staging sources one after the other stages each of them, and returns the destinations. -/
theorem evalList_stagingOf (bindings : SortedMap Value) (sources : List String) :
    evalList bindings (sources.map stagingOf)
      = ⟨sources, .ok (sources.map fun source => .string (StagedFiles.destination source))⟩ := by
  induction sources with
  | nil => rfl
  | cons source sources ih =>
    rw [List.map_cons, evalList, eval_stagingOf, ih, Evaluation.bind_ok, Evaluation.bind_ok]
    show (⟨[source] ++ (sources ++ []), _⟩ : Evaluation _) = _
    rw [List.append_nil]
    rfl

end Term

namespace StagedFiles

/-- Calls that stage sources return the destinations of the spellings.  The table ends up with the
destination of the last call for each path, so none of the destinations dangles exactly if the
sources that resolve to one path have one destination. -/
theorem staged_destinations (bindings : SortedMap Value) (staged : StagedFiles) (directory : String)
    (sources : List String) :
    let calls := Term.evalList bindings (sources.map Term.stagingOf)
    let table := staged.recordAll directory calls.staged
    calls.result = .ok (sources.map fun source => .string (destination source))
      ∧ (∀ path, table.get? path
          = ((resolvingTo directory path sources).getLast?.map destination).or (staged.get? path))
      ∧ ((∀ source ∈ sources, table.get? (resolve directory source) = some (destination source))
        ↔ ∀ a ∈ sources, ∀ b ∈ sources, resolve directory a = resolve directory b →
          destination a = destination b) := by
  rw [Term.evalList_stagingOf]
  exact ⟨rfl, get?_recordAll staged directory sources,
    get?_recordAll_eq_destination_iff staged directory sources⟩

/-- Two spellings of one file leave the destination of the first one dangling. -/
theorem staged_destinations_of_two_spellings :
    let calls := Term.evalList ∅ (["zero/one.txt", "./zero/one.txt"].map Term.stagingOf)
    let table := StagedFiles.recordAll ∅ "/zebra" calls.staged
    calls.result = .ok [.string (destination "zero/one.txt"),
        .string (destination "./zero/one.txt")]
      ∧ table.get? (resolve "/zebra" "zero/one.txt") ≠ some (destination "zero/one.txt") := by
  have hdestination : destination "zero/one.txt" ≠ destination "./zero/one.txt" := by
    decide +kernel
  have hpath : resolve "/zebra" "zero/one.txt" = resolve "/zebra" "./zero/one.txt" := rfl
  rw [Term.evalList_stagingOf]
  refine ⟨rfl, fun hheld => ?_⟩
  have hlast := get?_record_self (record ∅ "/zebra" "zero/one.txt" (destination "zero/one.txt"))
    "/zebra" "./zero/one.txt" (destination "./zero/one.txt")
  rw [hpath] at hheld
  exact hdestination (Option.some.inj (hheld.symm.trans hlast))

end StagedFiles

end ClusterBlueprint
