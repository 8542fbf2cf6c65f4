import ClusterBlueprint.Proofs.Text.Distance

/-!
The distance by rows of prefixes.

The distance can be computed from the first characters on as well.  A row then holds the distances
from what was taken of the first text to every prefix of the second, and the next row is filled from
left to right out of the row above it.  Every place that is read is there, and the last place of the
last row holds the distance.
-/

namespace ClusterBlueprint.Text

variable {c d : Char} {s t before after : List Char}

/-! ## Rows as a program -/

/-- A row with one more place, filled from the row above.  There is none if a row is too short. -/
def fillPlace (c : Char) (above row : List Nat) (next : Char × Nat) : Option (List Nat) := do
  let corner ← above[next.2]?
  let up ← above[next.2 + 1]?
  let left ← row[next.2]?
  return row ++ [min (min (corner + mismatch c next.1) (up + 1)) (left + 1)]

def fillRow (target : List Char) (above : List Nat) (next : Char × Nat) : Option (List Nat) :=
  target.zipIdx.foldlM (fillPlace next.1 above) [next.2 + 1]

/-- The distance by rows of prefixes: every row is filled from the row above, and the last place of
the last row is the distance. -/
def prefixDistance? (source target : String) : Option Nat := do
  let first := List.range (target.toList.length + 1)
  let row ← source.toList.zipIdx.foldlM (fillRow target.toList) first
  row[target.toList.length]?

/-! ## What the rows hold -/

/-- The distances to the prefixes of the second text, up to a length. -/
def prefixRow (s t : List Char) (length : Nat) : List Nat :=
  (List.range (length + 1)).map fun k => charDistance s (t.take k)

theorem getElem?_prefixRow {k length : Nat} (h : k ≤ length) :
    (prefixRow s t length)[k]? = some (charDistance s (t.take k)) := by
  have hk : k < length + 1 := by omega
  rw [prefixRow, List.getElem?_map, List.getElem?_range hk]
  rfl

theorem prefixRow_succ (s t : List Char) (length : Nat) :
    prefixRow s t (length + 1)
      = prefixRow s t length ++ [charDistance s (t.take (length + 1))] := by
  rw [prefixRow, List.range_succ, List.map_append]
  rfl

theorem prefixRow_nil (t : List Char) :
    prefixRow [] t t.length = List.range (t.length + 1) := by
  have hplace : ∀ k ∈ List.range (t.length + 1), charDistance [] (t.take k) = k := by
    intro k hk
    rw [charDistance_nil_left, List.length_take]
    have hlt := List.mem_range.mp hk
    omega
  rw [prefixRow, List.map_congr_left hplace, List.map_id']

/-- One step fills the next place of a row. -/
theorem fillPlace_prefixRow (s : List Char) (c : Char) (h : t = before ++ d :: after) :
    fillPlace c (prefixRow s t t.length) (prefixRow (s ++ [c]) t before.length) (d, before.length)
      = some (prefixRow (s ++ [c]) t (before.length + 1)) := by
  have hbefore : t.take before.length = before := by
    rw [h]
    exact List.take_left
  have hnext : t.take (before.length + 1) = before ++ [d] := by
    rw [h, List.take_length_add_append]
    rfl
  have hlength : before.length + 1 ≤ t.length := by
    rw [h, List.length_append, List.length_cons]
    omega
  have hcost : min (min (charDistance s before + mismatch c d) (charDistance s (before ++ [d]) + 1))
      (charDistance (s ++ [c]) before + 1) = charDistance (s ++ [c]) (before ++ [d]) := by
    rw [charDistance_concat]
    omega
  rw [fillPlace, getElem?_prefixRow (by omega), getElem?_prefixRow hlength,
    getElem?_prefixRow (Nat.le_refl _), hbefore, hnext, prefixRow_succ, hnext, ← hcost]
  rfl

theorem foldlM_fillPlace (s : List Char) (c : Char) (h : t = before ++ after) :
    (after.zipIdx before.length).foldlM (fillPlace c (prefixRow s t t.length))
        (prefixRow (s ++ [c]) t before.length)
      = some (prefixRow (s ++ [c]) t t.length) := by
  induction after generalizing before with
  | nil =>
    rw [List.append_nil] at h
    rw [h]
    rfl
  | cons d after ih =>
    have hsplit : t = (before ++ [d]) ++ after := by
      rw [h, List.append_assoc]
      rfl
    have hrest := ih hsplit
    rw [List.length_append] at hrest
    rw [List.zipIdx_cons, List.foldlM_cons, fillPlace_prefixRow s c h]
    exact hrest

/-- One row of the program holds the distances from one more character. -/
theorem fillRow_prefixRow (s t : List Char) (c : Char) :
    fillRow t (prefixRow s t t.length) (c, s.length)
      = some (prefixRow (s ++ [c]) t t.length) := by
  have hfirst : prefixRow (s ++ [c]) t 0 = [s.length + 1] := by
    have hcost : charDistance (s ++ [c]) (t.take 0) = s.length + 1 := by
      rw [List.take_zero, charDistance_nil_right, List.length_append]
      rfl
    exact congrArg (fun cost => [cost]) hcost
  rw [fillRow, ← hfirst]
  have hsplit : t = [] ++ t := rfl
  exact foldlM_fillPlace s c hsplit

theorem foldlM_fillRow (s rest t : List Char) :
    (rest.zipIdx s.length).foldlM (fillRow t) (prefixRow s t t.length)
      = some (prefixRow (s ++ rest) t t.length) := by
  induction rest generalizing s with
  | nil => simp
  | cons c rest ih =>
    have hrest := ih (s ++ [c])
    rw [List.append_assoc, List.length_append] at hrest
    rw [List.zipIdx_cons, List.foldlM_cons, fillRow_prefixRow]
    exact hrest

/-- The rows are never too short, and come to the distance. -/
theorem prefixDistance?_eq (s t : String) : prefixDistance? s t = some (distance s t) := by
  have hrows := foldlM_fillRow [] s.toList t.toList
  rw [List.nil_append, prefixRow_nil] at hrows
  have hlast : (prefixRow s.toList t.toList t.toList.length)[t.toList.length]?
      = some (distance s t) := by
    rw [getElem?_prefixRow (Nat.le_refl _), List.take_length]
    rfl
  rw [← hlast]
  exact congrArg (fun rows : Option (List Nat) => rows >>= fun row => row[t.toList.length]?) hrows

end ClusterBlueprint.Text
