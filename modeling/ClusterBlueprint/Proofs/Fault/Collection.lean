import ClusterBlueprint.Blueprint.Structure

/-!
What a check of a list of located faults returns.

A located fault has no parts but itself.  So the parts of the fault that is returned are the listed
ones, less those whose wording came before; and there are none only if none were listed.
-/

namespace ClusterBlueprint

namespace Fault

/-- Whether a fault was found at a place. -/
def IsLocated (fault : Fault) : Prop := ∃ place inner, fault = .located place inner

theorem IsLocated.parts_eq {fault : Fault} (h : fault.IsLocated) : fault.parts = [fault] := by
  obtain ⟨place, inner, rfl⟩ := h
  rfl

end Fault

namespace Faults

variable {start : Faults} {faults : List Fault} {fault : Fault}

theorem mem_record {other : Fault} (h : other ∈ (start.record fault).toList) :
    other ∈ start.toList ∨ other = fault := by
  unfold record at h
  split at h
  · exact .inl h
  · exact (List.mem_append.mp h).imp_right List.mem_singleton.mp

theorem subset_record : start.toList ⊆ (start.record fault).toList := by
  unfold record
  split
  · exact List.Subset.refl _
  · exact List.subset_append_left _ _

/-- After a fault was recorded there is one of its wording. -/
theorem exists_message_of_record (start : Faults) (fault : Fault) :
    ∃ old ∈ (start.record fault).toList, old.message = fault.message := by
  unfold record
  split
  · next hany =>
    obtain ⟨old, hold, hmessage⟩ := List.any_eq_true.mp hany
    exact ⟨old, hold, beq_iff_eq.mp hmessage⟩
  · exact ⟨fault, List.mem_append_right _ (List.mem_singleton_self _), rfl⟩

theorem mem_foldl_record {other : Fault} (h : other ∈ (faults.foldl record start).toList) :
    other ∈ start.toList ∨ other ∈ faults := by
  induction faults generalizing start with
  | nil => exact .inl h
  | cons first faults ih =>
    rcases ih h with hrecord | hrest
    · rcases mem_record hrecord with hstart | rfl
      · exact .inl hstart
      · exact .inr List.mem_cons_self
    · exact .inr (List.mem_cons_of_mem _ hrest)

theorem exists_message_of_foldl_record (h : fault ∈ start.toList ∨ fault ∈ faults) :
    ∃ old ∈ (faults.foldl record start).toList, old.message = fault.message := by
  induction faults generalizing start fault with
  | nil => exact ⟨fault, h.resolve_right List.not_mem_nil, rfl⟩
  | cons first faults ih =>
    rcases h with hstart | hmem
    · exact ih (.inl (subset_record hstart))
    · rcases List.mem_cons.mp hmem with rfl | hmem
      · obtain ⟨old, hold, hmessage⟩ := exists_message_of_record start fault
        obtain ⟨kept, hkept, heq⟩ := ih (.inl hold)
        exact ⟨kept, hkept, heq.trans hmessage⟩
      · exact ih (.inr hmem)

theorem foldl_add_eq (h : ∀ fault ∈ faults, fault.IsLocated) :
    faults.foldl add start = faults.foldl record start := by
  induction faults generalizing start with
  | nil => rfl
  | cons first faults ih =>
    obtain ⟨hfirst, hrest⟩ := List.forall_mem_cons.mp h
    rw [List.foldl_cons, List.foldl_cons, add, hfirst.parts_eq]
    exact ih hrest

/-- What is returned for a listed fault has a part of its wording, and it is a listed one. -/
theorem exists_part_of_mem (h : ∀ fault ∈ faults, fault.IsLocated) (hmem : fault ∈ faults) :
    ∃ whole, checkAll faults = .error whole
      ∧ ∃ part ∈ whole.parts, part ∈ faults ∧ part.message = fault.message := by
  have hempty : fault ∈ Faults.toList ∅ ∨ fault ∈ faults := .inr hmem
  obtain ⟨part, hpart, hmessage⟩ := exists_message_of_foldl_record hempty
  have hlisted := (mem_foldl_record hpart).resolve_left List.not_mem_nil
  unfold checkAll result
  rw [foldl_add_eq h]
  split
  · next hnil =>
    rw [hnil] at hpart
    exact absurd hpart List.not_mem_nil
  · next single hsingle =>
    rw [hsingle, List.mem_singleton] at hpart
    subst hpart
    exact ⟨part, rfl, part,
      (h part hlisted).parts_eq ▸ List.mem_singleton_self _, hlisted, hmessage⟩
  · exact ⟨_, rfl, part, hpart, hlisted, hmessage⟩

theorem checkAll_eq_ok (h : ∀ fault ∈ faults, fault.IsLocated) :
    checkAll faults = .ok () ↔ faults = [] := by
  constructor
  · intro hok
    refine List.eq_nil_iff_forall_not_mem.mpr fun fault hmem => ?_
    obtain ⟨whole, hwhole, -⟩ := exists_part_of_mem h hmem
    exact absurd (hok.symm.trans hwhole) nofun
  · rintro rfl
    rfl

end Faults

namespace Structure

theorem mem_faultAt {place : Location} {check : Checked Unit} {fault : Fault} :
    fault ∈ faultAt place check ↔ ∃ inner, check = .error inner ∧ fault = .located place inner := by
  cases check with
  | ok _ => exact ⟨fun h => absurd h List.not_mem_nil, nofun⟩
  | error inner =>
    refine List.mem_singleton.trans ⟨fun h => ⟨inner, rfl, h⟩, ?_⟩
    rintro ⟨_, ⟨⟩, h⟩
    exact h

theorem faultAt_eq_nil {place : Location} {check : Checked Unit} :
    faultAt place check = [] ↔ check = .ok () := by
  cases check with
  | ok _ => exact ⟨fun _ => rfl, fun _ => rfl⟩
  | error inner => exact ⟨nofun, nofun⟩

end Structure

end ClusterBlueprint
