import ClusterBlueprint.Proofs.Fault.Collection
import Mathlib.Data.List.Induction

/-!
What a collection of faults holds after any operations.

An operation gives single faults, those that it comes with or their parts, located where it says so.
Of all that the operations gave, the collection holds the first fault of each wording, in order.
-/

namespace ClusterBlueprint

namespace Faults

/-- What may be done to a collection. -/
inductive Operation where
  | add (fault : Fault)
  | addAt (place : Location) (fault : Fault)
  | check {α : Type} (result : Checked α)

namespace Operation

/-- The collection after an operation. -/
def apply (faults : Faults) : Operation → Faults
  | add fault => faults.add fault
  | addAt place fault => faults.addAt place fault
  | check result => faults.check result

/-- The fault that an operation comes with; a check that succeeds has none. -/
def fault? : Operation → Option Fault
  | add fault => some fault
  | addAt _ fault => some fault
  | check (.error fault) => some fault
  | check (.ok _) => none

/-- The faults that an operation gives: in place of several in one, each of them. -/
def given : Operation → List Fault
  | add (.several members) => members
  | add fault => [fault]
  | addAt place (.several members) => members.map (Fault.located place)
  | addAt place fault => [.located place fault]
  | check (.error (.several members)) => members
  | check (.error fault) => [fault]
  | check (.ok _) => []

theorem apply_eq_foldl (faults : Faults) (operation : Operation) :
    operation.apply faults = operation.given.foldl record faults := by
  cases operation with
  | add fault => cases fault <;> rfl
  | addAt place fault => cases fault <;> rfl
  | check result =>
    cases result with
    | error fault => cases fault <;> rfl
    | ok _ => rfl

/-- What is given is a part of the fault that the operation comes with, or is located. -/
theorem mem_given {operation : Operation} {fault : Fault} (h : fault ∈ operation.given) :
    (∃ whole, operation.fault? = some whole ∧ fault ∈ whole.parts) ∨ fault.IsLocated := by
  cases operation with
  | add whole =>
    refine .inl ⟨whole, rfl, ?_⟩
    cases whole <;> exact h
  | addAt place whole =>
    refine .inr ?_
    cases whole with
    | several members =>
      obtain ⟨part, -, rfl⟩ := List.mem_map.mp h
      exact ⟨place, part, rfl⟩
    | _ => exact ⟨place, _, List.mem_singleton.mp h⟩
  | check result =>
    cases result with
    | error whole =>
      refine .inl ⟨whole, rfl, ?_⟩
      cases whole <;> exact h
    | ok _ => exact absurd h List.not_mem_nil

end Operation

def collect (operations : List Operation) : Faults := operations.foldl Operation.apply ∅

/-- Operations record what they give, one fault after the other. -/
theorem collect_eq_foldl (operations : List Operation) :
    collect operations = (operations.flatMap Operation.given).foldl record ∅ := by
  rw [collect, List.foldl_flatMap]
  have happly : Operation.apply = fun faults operation => operation.given.foldl record faults :=
    funext fun faults => funext (Operation.apply_eq_foldl faults)
  rw [happly]

/-! ## The first fault of each wording -/

/-- Whether the wording of a fault, which stands at a position among faults, is that of none before
it. -/
def isFirst (faults : List Fault) (entry : Fault × Nat) : Bool :=
  (faults.take entry.2).all fun earlier => earlier.message != entry.1.message

/-- The faults whose wording none before them has. -/
def firstOfWording (faults : List Fault) : List Fault :=
  (faults.zipIdx.filter (isFirst faults)).map Prod.fst

theorem isFirst_concat {faults : List Fault} {fault : Fault} {entry : Fault × Nat}
    (h : entry ∈ faults.zipIdx) : isFirst (faults ++ [fault]) entry = isFirst faults entry := by
  have hlt := (List.getElem?_eq_some_iff.mp (List.mk_mem_zipIdx_iff_getElem?.mp h)).1
  rw [isFirst, List.take_append_of_le_length (Nat.le_of_lt hlt)]
  rfl

theorem isFirst_last (faults : List Fault) (fault : Fault) :
    isFirst (faults ++ [fault]) (fault, faults.length)
      = !faults.any fun old => old.message == fault.message := by
  rw [isFirst, List.take_left, List.not_any_eq_all_not]
  rfl

theorem firstOfWording_concat (faults : List Fault) (fault : Fault) :
    firstOfWording (faults ++ [fault]) = firstOfWording faults
      ++ if faults.any (fun old => old.message == fault.message) then [] else [fault] := by
  have hlast : [fault].zipIdx (0 + faults.length) = [(fault, faults.length)] := by
    rw [Nat.zero_add]
    rfl
  unfold firstOfWording
  rw [List.zipIdx_append, List.filter_append, List.map_append, hlast,
    List.filter_congr fun entry => isFirst_concat, List.filter_cons, isFirst_last]
  cases faults.any fun old => old.message == fault.message <;> rfl

/-- Recording keeps the first fault of each wording. -/
theorem toList_foldl_record (faults : List Fault) :
    (faults.foldl record ∅).toList = firstOfWording faults := by
  induction faults using List.reverseRecOn with
  | nil => rfl
  | append_singleton faults fault ih =>
    -- What is recorded has the wordings of what was given, so both are searched alike.
    have hany : ((faults.foldl record ∅).toList.any fun old => old.message == fault.message)
        = faults.any fun old => old.message == fault.message := by
      refine Bool.eq_iff_iff.mpr (List.any_eq_true.trans (Iff.trans ?_ List.any_eq_true.symm))
      constructor
      · rintro ⟨old, hold, heq⟩
        exact ⟨old, (mem_foldl_record hold).resolve_left List.not_mem_nil, heq⟩
      · rintro ⟨old, hold, heq⟩
        have hgiven : old ∈ Faults.toList ∅ ∨ old ∈ faults := .inr hold
        obtain ⟨kept, hkept, hmessage⟩ := exists_message_of_foldl_record hgiven
        exact ⟨kept, hkept, by rw [hmessage, heq]⟩
    rw [List.foldl_append, List.foldl_cons, List.foldl_nil, firstOfWording_concat, ← ih, record,
      hany]
    split
    · exact (List.append_nil _).symm
    · rfl

theorem nodup_messages_record {start : Faults} (h : (start.toList.map Fault.message).Nodup)
    (fault : Fault) : ((start.record fault).toList.map Fault.message).Nodup := by
  unfold record
  split
  · exact h
  · next hany =>
    rw [List.map_append, List.nodup_append]
    refine ⟨h, List.pairwise_singleton _ _, fun message hmem other hother heq => hany ?_⟩
    obtain ⟨old, hold, rfl⟩ := List.mem_map.mp hmem
    rw [List.mem_singleton.mp hother] at heq
    exact List.any_eq_true.mpr ⟨old, hold, beq_iff_eq.mpr heq⟩

theorem nodup_messages_foldl_record {start : Faults} {faults : List Fault}
    (h : (start.toList.map Fault.message).Nodup) :
    ((faults.foldl record start).toList.map Fault.message).Nodup := by
  induction faults generalizing start with
  | nil => exact h
  | cons fault faults ih => exact ih (nodup_messages_record h fault)

end Faults

/-! ## Collections in faults -/

namespace Fault

open Faults

/-- Whether wherever a fault stands for several, they are what some operations collected. -/
inductive IsBuilt : Fault → Prop
  | cause (c : Cause) : IsBuilt (.cause c)
  | hinted {fault : Fault} (h : IsBuilt fault) (hint : String) : IsBuilt (.hinted fault hint)
  | located {fault : Fault} (place : Location) (h : IsBuilt fault) : IsBuilt (.located place fault)
  | several {operations : List Operation}
    (h : ∀ operation ∈ operations, ∀ fault, operation.fault? = some fault → IsBuilt fault) :
    IsBuilt (.several (collect operations).toList)

/-- Whether a fault does not stand for several. -/
def IsSingle (fault : Fault) : Prop := ∀ faults, fault ≠ .several faults

end Fault

namespace Faults

/-- What is given does not stand for several, if no part of the fault that the operation comes with
does. -/
theorem isSingle_of_mem_given {operation : Operation} {fault : Fault}
    (hparts : ∀ whole, operation.fault? = some whole → ∀ part ∈ whole.parts, part.IsSingle)
    (h : fault ∈ operation.given) : fault.IsSingle := by
  rcases Operation.mem_given h with ⟨whole, hwhole, hpart⟩ | ⟨place, inner, rfl⟩
  · exact hparts whole hwhole fault hpart
  · exact nofun

theorem mem_given_of_mem_collect {operations : List Operation} {fault : Fault}
    (h : fault ∈ (collect operations).toList) :
    ∃ operation ∈ operations, fault ∈ operation.given := by
  rw [collect_eq_foldl] at h
  exact List.mem_flatMap.mp ((mem_foldl_record h).resolve_left List.not_mem_nil)

theorem isSingle_of_mem_parts {whole : Fault} (h : whole.IsBuilt) :
    ∀ part ∈ whole.parts, part.IsSingle := by
  induction h with
  | cause | hinted | located =>
    intro part hpart
    obtain rfl := List.mem_singleton.mp hpart
    exact nofun
  | several _ ih =>
    intro part hpart
    obtain ⟨operation, hoperation, hgiven⟩ := mem_given_of_mem_collect hpart
    exact isSingle_of_mem_given (ih operation hoperation) hgiven

/-- A collection returns no fault if it holds none. -/
theorem result_eq_ok {faults : Faults} : faults.result = .ok () ↔ faults.toList = [] := by
  unfold result
  split
  · next hnone => exact iff_of_true rfl hnone
  · next hone => exact iff_of_false nofun (hone ▸ List.cons_ne_nil _ _)
  · next hnone _ => exact iff_of_false nofun hnone

/-- Nothing that is given is lost altogether. -/
theorem foldl_record_eq_nil {faults : List Fault} :
    (faults.foldl record ∅).toList = [] ↔ faults = [] := by
  constructor
  · intro h
    refine List.eq_nil_iff_forall_not_mem.mpr fun fault hmem => ?_
    have hgiven : fault ∈ Faults.toList ∅ ∨ fault ∈ faults := .inr hmem
    obtain ⟨kept, hkept, -⟩ := exists_message_of_foldl_record hgiven
    exact absurd (h ▸ hkept) List.not_mem_nil
  · rintro rfl
    rfl

/-- A new collection holds, after any operations, the first fault of each wording of what they gave,
and none that stands for several.  It returns a fault if anything was given: the one that it holds,
or one that stands for all. -/
theorem collect_holds_firsts {operations : List Operation}
    (h : ∀ operation ∈ operations, ∀ fault, operation.fault? = some fault → fault.IsBuilt) :
    let given := operations.flatMap Operation.given
    let collected := collect operations
    (collected.toList.map Fault.message).Nodup
      ∧ (∀ fault ∈ collected.toList, fault.IsSingle)
      ∧ collected.toList = firstOfWording given
      ∧ (collected.result = .ok () ↔ given = [])
      ∧ (∀ fault, collected.toList = [fault] → collected.result = .error fault)
      ∧ (2 ≤ collected.toList.length → collected.result = .error (.several collected.toList)) := by
  intro given collected
  have hfold : collected = given.foldl record ∅ := collect_eq_foldl operations
  refine ⟨?_, fun fault hmem => ?_, ?_, ?_, fun fault hone => ?_, fun hmany => ?_⟩
  · rw [hfold]
    exact nodup_messages_foldl_record List.nodup_nil
  · obtain ⟨operation, hoperation, hgiven⟩ := mem_given_of_mem_collect hmem
    refine isSingle_of_mem_given (fun whole hwhole => ?_) hgiven
    exact isSingle_of_mem_parts (h operation hoperation whole hwhole)
  · rw [hfold, toList_foldl_record]
  · rw [result_eq_ok, hfold, foldl_record_eq_nil]
  · rw [result, hone]
  · unfold result
    split
    · next hnone => rw [hnone] at hmany; exact absurd hmany (by decide)
    · next hone => rw [hone] at hmany; exact absurd hmany (by simp)
    · rfl

/-- Two faults are added together after one of them was, then they are found at a place, and a check
fails with both in one. -/
theorem collect_holds_firsts_of_repeated :
    let name : Fault := .cause .emptyGroupName
    let id : Fault := .cause .emptyModuleId
    let inner : Fault := .several (collect [.add name, .add id, .add name]).toList
    let operations : List Operation := [.add name, .add inner, .check (.ok 3 : Checked Nat),
      .addAt .vars inner, .check (.error (.located .vars inner) : Checked Unit)]
    let given := operations.flatMap Operation.given
    let collected := collect operations
    (∀ operation ∈ operations, ∀ fault, operation.fault? = some fault → fault.IsBuilt)
      ∧ (collected.toList.map Fault.message).Nodup
      ∧ (∀ fault ∈ collected.toList, fault.IsSingle)
      ∧ collected.toList = firstOfWording given
      ∧ (collected.result = .ok () ↔ given = [])
      ∧ (∀ fault, collected.toList = [fault] → collected.result = .error fault)
      ∧ (2 ≤ collected.toList.length → collected.result = .error (.several collected.toList)) := by
  intro name id inner operations given collected
  have hname : name.IsBuilt := .cause _
  have hid : id.IsBuilt := .cause _
  have hinner : inner.IsBuilt := by
    refine .several ?_
    simpa [Operation.fault?] using ⟨hname, hid, hname⟩
  have hlocated : (Fault.located .vars inner).IsBuilt := .located .vars hinner
  have h : ∀ operation ∈ operations, ∀ fault, operation.fault? = some fault → fault.IsBuilt := by
    simpa [operations, Operation.fault?] using ⟨hname, hinner, hlocated⟩
  exact ⟨h, collect_holds_firsts h⟩

end Faults

end ClusterBlueprint
