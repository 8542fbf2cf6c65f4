import ClusterBlueprint.Text.Distance
import Mathlib.Order.Bounds.Defs

/-!
The distance between two texts as a least number of edits.

An edit inserts, deletes or replaces one character anywhere.  One edit moves a text by at most one
from any other, so no fewer edits than the distance lead from one text to the other, and the choices
that the distance is the least of are edits that do lead there.  What edits can do backwards, one
after the other or to reversed texts, the distance therefore knows as well.
-/

namespace ClusterBlueprint.Text

/-! ## Edits -/

/-- A text and the same with one character inserted, deleted or replaced. -/
inductive Edit : List Char → List Char → Prop
  | insert (before after : List Char) (c : Char) : Edit (before ++ after) (before ++ c :: after)
  | delete (before after : List Char) (c : Char) : Edit (before ++ c :: after) (before ++ after)
  | replace (before after : List Char) (c d : Char) :
      Edit (before ++ c :: after) (before ++ d :: after)

/-- Whether edits, `n` of them one after the other, turn a text into another. -/
inductive EditsIn : Nat → List Char → List Char → Prop
  | none (s : List Char) : EditsIn 0 s s
  | step {n : Nat} {s t u : List Char} (first : Edit s t) (rest : EditsIn n t u) :
      EditsIn (n + 1) s u

variable {n m : Nat} {s t u : List Char}

theorem Edit.symm (h : Edit s t) : Edit t s := by
  cases h with
  | insert before after c => exact .delete before after c
  | delete before after c => exact .insert before after c
  | replace before after c d => exact .replace before after d c

theorem Edit.cons (c : Char) (h : Edit s t) : Edit (c :: s) (c :: t) := by
  cases h with
  | insert before after d => exact .insert (c :: before) after d
  | delete before after d => exact .delete (c :: before) after d
  | replace before after d e => exact .replace (c :: before) after d e

theorem Edit.reverse (h : Edit s t) : Edit s.reverse t.reverse := by
  cases h with
  | insert before after c => simpa using Edit.insert after.reverse before.reverse c
  | delete before after c => simpa using Edit.delete after.reverse before.reverse c
  | replace before after c d => simpa using Edit.replace after.reverse before.reverse c d

namespace EditsIn

theorem trans (h : EditsIn n s t) (h' : EditsIn m t u) : EditsIn (n + m) s u := by
  induction h with
  | none s => rwa [Nat.zero_add]
  | step first _ ih =>
    rw [Nat.add_right_comm]
    exact .step first (ih h')

theorem symm (h : EditsIn n s t) : EditsIn n t s := by
  induction h with
  | none s => exact .none s
  | step first _ ih => exact ih.trans (.step first.symm (.none _))

theorem cons (c : Char) (h : EditsIn n s t) : EditsIn n (c :: s) (c :: t) := by
  induction h with
  | none s => exact .none (c :: s)
  | step first _ ih => exact .step (first.cons c) ih

theorem reverse (h : EditsIn n s t) : EditsIn n s.reverse t.reverse := by
  induction h with
  | none s => exact .none s.reverse
  | step first _ ih => exact .step first.reverse ih

theorem eq_of_zero (h : EditsIn 0 s t) : s = t := by
  cases h
  rfl

end EditsIn

/-! ## The distance -/

def charDistance (s t : List Char) : Nat := (distanceRow t s).headD 0

/-- What a character costs against another. -/
def mismatch (c d : Char) : Nat := if c = d then 0 else 1

theorem mismatch_self (c : Char) : mismatch c c = 0 := if_pos rfl

theorem mismatch_le_one (c d : Char) : mismatch c d ≤ 1 := by
  unfold mismatch
  split <;> omega

theorem distance_eq (s t : String) : distance s t = charDistance s.toList t.toList := rfl

theorem charDistance_nil_left (t : List Char) : charDistance [] t = t.length := by
  cases t <;> rfl

theorem charDistance_nil_right (s : List Char) : charDistance s [] = s.length := by
  induction s with
  | nil => rfl
  | cons c s ih => exact congrArg (· + 1) ih

/-- A row holds the distances to the suffixes of the second text. -/
theorem distanceRow_cons (s t : List Char) (d : Char) :
    distanceRow (d :: t) s = charDistance s (d :: t) :: distanceRow t s := by
  induction s with
  | nil => rfl
  | cons c s ih =>
    rw [charDistance, distanceRow, ih]
    rfl

theorem charDistance_cons_cons (c d : Char) (s t : List Char) :
    charDistance (c :: s) (d :: t)
      = min (charDistance s t + mismatch c d)
          (min (charDistance s (d :: t) + 1) (charDistance (c :: s) t + 1)) := by
  rw [charDistance, distanceRow, distanceRow_cons]
  rfl

/-- The first characters are kept or replaced, or one of them is deleted or inserted. -/
theorem charDistance_cases (c d : Char) (s t : List Char) :
    charDistance (c :: s) (d :: t) = charDistance s t + mismatch c d
      ∨ charDistance (c :: s) (d :: t) = charDistance s (d :: t) + 1
      ∨ charDistance (c :: s) (d :: t) = charDistance (c :: s) t + 1 := by
  rw [charDistance_cons_cons]
  omega

theorem charDistance_self (s : List Char) : charDistance s s = 0 := by
  induction s with
  | nil => rfl
  | cons c s ih =>
    rw [charDistance_cons_cons, ih, mismatch_self]
    omega

/-! ### An edit moves a text by at most one -/

theorem charDistance_cons_le (c : Char) (s t : List Char) :
    charDistance (c :: s) t ≤ charDistance s t + 1 := by
  cases t with
  | nil =>
    rw [charDistance_nil_right, charDistance_nil_right]
    exact Nat.le_refl _
  | cons d t =>
    rw [charDistance_cons_cons]
    omega

theorem charDistance_le_cons_right (d : Char) (s t : List Char) :
    charDistance s (d :: t) ≤ charDistance s t + 1 := by
  cases s with
  | nil =>
    rw [charDistance_nil_left, charDistance_nil_left]
    exact Nat.le_refl _
  | cons c s =>
    rw [charDistance_cons_cons]
    omega

theorem charDistance_le_cons (c : Char) (s t : List Char) :
    charDistance s t ≤ charDistance (c :: s) t + 1 := by
  induction t with
  | nil =>
    rw [charDistance_nil_right, charDistance_nil_right, List.length_cons]
    omega
  | cons d t ih =>
    have hinsert := charDistance_le_cons_right d s t
    rw [charDistance_cons_cons]
    omega

theorem charDistance_replace_le (c d : Char) (s t : List Char) :
    charDistance (c :: s) t ≤ charDistance (d :: s) t + 1 := by
  induction t with
  | nil =>
    rw [charDistance_nil_right, charDistance_nil_right, List.length_cons, List.length_cons]
    omega
  | cons e t ih =>
    have hcost := mismatch_le_one c e
    rw [charDistance_cons_cons, charDistance_cons_cons]
    omega

/-- What moves a text by at most one does so behind any character. -/
theorem charDistance_le_of_cons (c : Char)
    (h : ∀ u, charDistance s u ≤ charDistance t u + 1) (u : List Char) :
    charDistance (c :: s) u ≤ charDistance (c :: t) u + 1 := by
  induction u with
  | nil =>
    have hnil := h []
    rw [charDistance_nil_right, charDistance_nil_right] at hnil
    rw [charDistance_nil_right, charDistance_nil_right, List.length_cons, List.length_cons]
    omega
  | cons d u ih =>
    have hrest := h u
    have hwhole := h (d :: u)
    rw [charDistance_cons_cons, charDistance_cons_cons]
    omega

theorem charDistance_le_of_append (before : List Char)
    (h : ∀ u, charDistance s u ≤ charDistance t u + 1) (u : List Char) :
    charDistance (before ++ s) u ≤ charDistance (before ++ t) u + 1 := by
  induction before generalizing u with
  | nil => exact h u
  | cons c before ih => exact charDistance_le_of_cons c ih u

theorem Edit.charDistance_le (h : Edit s t) (u : List Char) :
    charDistance s u ≤ charDistance t u + 1 := by
  cases h with
  | insert before after c => exact charDistance_le_of_append before (charDistance_le_cons c after) u
  | delete before after c => exact charDistance_le_of_append before (charDistance_cons_le c after) u
  | replace before after c d =>
    exact charDistance_le_of_append before (charDistance_replace_le c d after) u

/-- No fewer edits than the distance turn a text into another. -/
theorem EditsIn.charDistance_le (h : EditsIn n s t) : charDistance s t ≤ n := by
  induction h with
  | none s => exact Nat.le_of_eq (charDistance_self s)
  | @step n s m t first _ ih =>
    have hstep := first.charDistance_le t
    omega

/-! ### Edits that make up the distance -/

theorem editsIn_nil (t : List Char) : EditsIn t.length [] t := by
  induction t with
  | nil => exact .none []
  | cons d t ih => exact .step (.insert [] [] d) (ih.cons d)

theorem editsIn_keep (c d : Char) (h : EditsIn n s t) :
    EditsIn (n + mismatch c d) (c :: s) (d :: t) := by
  by_cases hsame : c = d
  · rw [hsame, mismatch_self]
    exact h.cons d
  · rw [mismatch, if_neg hsame]
    exact .step (.replace [] s c d) (h.cons d)

/-- As many edits as the distance turn a text into another. -/
theorem editsIn_charDistance (s t : List Char) : EditsIn (charDistance s t) s t := by
  induction s generalizing t with
  | nil =>
    rw [charDistance_nil_left]
    exact editsIn_nil t
  | cons c s ihs =>
    induction t with
    | nil =>
      rw [charDistance_nil_right]
      exact (editsIn_nil (c :: s)).symm
    | cons d t iht =>
      rcases charDistance_cases c d s t with hkeep | hdelete | hinsert
      · rw [hkeep]
        exact editsIn_keep c d (ihs t)
      · rw [hdelete]
        exact .step (.delete [] s c) (ihs (d :: t))
      · rw [hinsert]
        exact .step (.insert [] (c :: s) d) (iht.cons d)

/-- The distance is the least number of edits. -/
theorem isLeast_charDistance (s t : List Char) :
    IsLeast {n | EditsIn n s t} (charDistance s t) :=
  ⟨editsIn_charDistance s t, fun _ => EditsIn.charDistance_le⟩

/-! ## Distances backwards, one after the other and of reversed texts -/

theorem charDistance_comm (s t : List Char) : charDistance s t = charDistance t s :=
  Nat.le_antisymm (editsIn_charDistance t s).symm.charDistance_le
    (editsIn_charDistance s t).symm.charDistance_le

theorem charDistance_eq_zero_iff : charDistance s t = 0 ↔ s = t := by
  constructor
  · intro hzero
    have hedits := editsIn_charDistance s t
    rw [hzero] at hedits
    exact hedits.eq_of_zero
  · intro hsame
    rw [hsame, charDistance_self]

theorem charDistance_triangle (s t u : List Char) :
    charDistance s u ≤ charDistance s t + charDistance t u :=
  ((editsIn_charDistance s t).trans (editsIn_charDistance t u)).charDistance_le

theorem charDistance_reverse (s t : List Char) :
    charDistance s.reverse t.reverse = charDistance s t := by
  have hle (s t : List Char) : charDistance s.reverse t.reverse ≤ charDistance s t :=
    (editsIn_charDistance s t).reverse.charDistance_le
  refine Nat.le_antisymm (hle s t) ?_
  have hback := hle s.reverse t.reverse
  rwa [List.reverse_reverse, List.reverse_reverse] at hback

/-- The distance by the last characters. -/
theorem charDistance_concat (s t : List Char) (c d : Char) :
    charDistance (s ++ [c]) (t ++ [d])
      = min (charDistance s t + mismatch c d)
          (min (charDistance s (t ++ [d]) + 1) (charDistance (s ++ [c]) t + 1)) := by
  have hlast (r : List Char) (e : Char) : (r ++ [e]).reverse = e :: r.reverse := by simp
  rw [← charDistance_reverse, hlast, hlast, charDistance_cons_cons, ← hlast, ← hlast,
    charDistance_reverse, charDistance_reverse, charDistance_reverse]

end ClusterBlueprint.Text
