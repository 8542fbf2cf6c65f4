import ClusterBlueprint.Fault
import ClusterBlueprint.Proofs.Text.Separation

/-!
What the texts of locations and of faults at them tell.

A text that starts with the place of a module tells the positions of the module, whatever follows.
-/

namespace ClusterBlueprint

namespace Location

theorem steps_group (i : Nat) : (group i).steps ≠ [] := nofun

theorem steps_module (i j : Nat) : (module i j).steps ≠ [] := nofun

theorem text_child {place : Location} (h : place.steps ≠ []) (step : Step) :
    (place.child step).text = place.text ++ step.tail := by
  obtain ⟨steps⟩ := place
  cases steps with
  | nil => exact absurd rfl h
  | cons first rest => simp [child, text, List.foldl_append]

theorem toList_tail_index (i : Nat) :
    (Step.index i).tail.toList = '[' :: (Nat.toDigits 10 i ++ [']']) := by
  simp [Step.tail, Nat.toString_eq_repr, Nat.toList_repr]

theorem toList_text_group (i : Nat) : (group i).text.toList
    = "deployment_groups[".toList ++ (Nat.toDigits 10 i ++ [']']) := by
  have htext : (group i).text = "deployment_groups" ++ (Step.index i).tail := rfl
  simp [htext, toList_tail_index]

theorem toList_text_module (i j : Nat) : (module i j).text.toList
    = (group i).text.toList ++ (".modules[".toList ++ (Nat.toDigits 10 j ++ [']'])) := by
  have htext : (module i j).text = (group i).text ++ ".modules" ++ (Step.index j).tail := rfl
  simp [htext, toList_tail_index]

/-- The text of a place starts with the texts of the places above. -/
theorem exists_text_below {place : Location} (h : place.steps ≠ []) (step : Step)
    (more : List Step) :
    ∃ rest, (⟨place.steps ++ step :: more⟩ : Location).text = place.text ++ step.tail ++ rest := by
  have hfold : ∀ (steps : List Step) (start : String),
      ∃ rest, steps.foldl (fun text step => text ++ step.tail) start = start ++ rest := by
    intro steps
    induction steps with
    | nil => exact fun start => ⟨"", by simp⟩
    | cons first steps ih =>
      intro start
      obtain ⟨rest, hrest⟩ := ih (start ++ first.tail)
      exact ⟨first.tail ++ rest, by rw [List.foldl_cons, hrest, String.append_assoc]⟩
  obtain ⟨steps⟩ := place
  cases steps with
  | nil => exact absurd rfl h
  | cons first steps =>
    obtain ⟨rest, hrest⟩ := hfold more ((⟨first :: steps⟩ : Location).text ++ step.tail)
    refine ⟨rest, hrest ▸ ?_⟩
    simp [text, List.foldl_append]

variable {i j k l : Nat} {x y : List Char}

theorem text_group_inj (h : (group i).text.toList ++ x = (group k).text.toList ++ y) :
    i = k ∧ x = y := by
  rw [toList_text_group, toList_text_group] at h
  simp only [List.append_assoc, List.append_cancel_left_eq] at h
  exact Text.bracketed_inj h

theorem text_module_inj (h : (module i j).text.toList ++ x = (module k l).text.toList ++ y) :
    i = k ∧ j = l ∧ x = y := by
  rw [toList_text_module, toList_text_module] at h
  simp only [List.append_assoc] at h
  obtain ⟨hgroup, hmodules⟩ := text_group_inj h
  rw [List.append_cancel_left_eq] at hmodules
  obtain ⟨hposition, hrest⟩ := Text.bracketed_inj hmodules
  exact ⟨hgroup, hposition, hrest⟩

theorem module_inj (h : module i j = module k l) : i = k ∧ j = l := by
  have htext : (module i j).text.toList ++ [] = (module k l).text.toList ++ [] := by rw [h]
  obtain ⟨hgroup, hposition, -⟩ := text_module_inj htext
  exact ⟨hgroup, hposition⟩

end Location

namespace Fault

theorem toList_message_located (place : Location) (fault : Fault) :
    (located place fault).message.toList
      = place.text.toList ++ ':' :: ' ' :: fault.message.toList := by
  simp [message]

/-- The wording of a fault at a field tells the place of the field. -/
theorem toList_message_field {place : Location} (h : place.steps ≠ []) (f : Location.Field)
    (fault : Fault) : (located (place.field f) fault).message.toList
      = place.text.toList ++ ('.' :: (f.text.toList ++ ':' :: ' ' :: fault.message.toList)) := by
  rw [toList_message_located, Location.field, Location.text_child h]
  simp [Location.Step.tail]

end Fault

end ClusterBlueprint
