import ClusterBlueprint.Fault

/-!
Computations that may fail, taken apart: when they succeed, so did their parts.
-/

namespace ClusterBlueprint.Checked

variable {α β : Type}

theorem bind_eq_ok {read : Checked α} {next : α → Checked β} {b : β} :
    (read >>= next) = .ok b ↔ ∃ a, read = .ok a ∧ next a = .ok b := by
  cases read with
  | error fault => exact ⟨nofun, nofun⟩
  | ok a =>
    constructor
    · exact fun h => ⟨a, rfl, h⟩
    · rintro ⟨_, ⟨⟩, h⟩
      exact h

theorem exists_of_isOk {read : Checked α} (h : read.isOk) : ∃ a, read = .ok a := by
  cases read with
  | error fault => exact absurd h Bool.false_ne_true
  | ok a => exact ⟨a, rfl⟩

theorem discard_eq_ok {read : Checked α} : discard read = .ok () ↔ ∃ a, read = .ok a := by
  cases read with
  | error fault => exact ⟨nofun, nofun⟩
  | ok a => exact ⟨fun _ => ⟨a, rfl⟩, fun _ => rfl⟩

theorem forM_eq_ok {check : α → Checked Unit} {xs : List α} :
    xs.forM check = .ok () ↔ ∀ x ∈ xs, check x = .ok () := by
  induction xs with
  | nil => exact ⟨fun _ => List.forall_mem_nil _, fun _ => rfl⟩
  | cons x xs ih =>
    have hcons : (x :: xs).forM check = check x >>= fun _ => xs.forM check := rfl
    rw [hcons, bind_eq_ok, List.forall_mem_cons, ← ih]
    constructor
    · rintro ⟨_, hfirst, hrest⟩
      exact ⟨hfirst, hrest⟩
    · exact fun ⟨hfirst, hrest⟩ => ⟨(), hfirst, hrest⟩

/-- A list is mapped item by item. -/
theorem mapM_eq_ok {read : α → Checked β} {xs : List α} {ys : List β} :
    xs.mapM read = .ok ys ↔ xs.map read = ys.map .ok := by
  induction xs generalizing ys with
  | nil =>
    rw [List.mapM_nil, List.map_nil]
    cases ys with
    | nil => exact ⟨fun _ => rfl, fun _ => rfl⟩
    | cons y ys => exact ⟨nofun, nofun⟩
  | cons x xs ih =>
    rw [List.mapM_cons, bind_eq_ok]
    constructor
    · rintro ⟨y, hy, hrest⟩
      obtain ⟨rest, hmap, hys⟩ := bind_eq_ok.mp hrest
      obtain rfl : y :: rest = ys := Except.ok.inj hys
      rw [List.map_cons, List.map_cons, hy, ih.mp hmap]
    · intro h
      cases ys with
      | nil => exact absurd h nofun
      | cons y ys =>
        obtain ⟨hy, hrest⟩ := List.cons.inj h
        exact ⟨y, hy, bind_eq_ok.mpr ⟨ys, ih.mpr hrest, rfl⟩⟩

/-- What a list is mapped to by a function of the positions, at each position. -/
theorem getElem?_of_mapM_zipIdx {read : α × Nat → Checked β} {xs : List α} {ys : List β}
    (h : xs.zipIdx.mapM read = .ok ys) (i : Nat) :
    (xs[i]?).map (fun x => read (x, i)) = (ys[i]?).map .ok := by
  have heq : (xs.zipIdx.map read)[i]? = (ys.map .ok)[i]? := by rw [mapM_eq_ok.mp h]
  rw [List.getElem?_map, List.getElem?_map, List.getElem?_zipIdx, Option.map_map] at heq
  rw [← heq, Nat.zero_add]
  rfl

/-- What an item has in common with its image, a list has in common with what it is mapped to. -/
theorem map_eq_of_mapM_zipIdx {γ : Type} {read : α × Nat → Checked β} {xs : List α} {ys : List β}
    {f : α → γ} {g : β → γ} (h : xs.zipIdx.mapM read = .ok ys)
    (hread : ∀ x i y, read (x, i) = .ok y → g y = f x) : ys.map g = xs.map f := by
  refine List.ext_getElem? fun i => ?_
  have hi := getElem?_of_mapM_zipIdx h i
  rw [List.getElem?_map, List.getElem?_map]
  cases hx : xs[i]? with
  | none =>
    rw [hx] at hi
    rw [Option.map_eq_none_iff.mp hi.symm]
    rfl
  | some x =>
    rw [hx] at hi
    obtain ⟨y, hy, hok⟩ := Option.map_eq_some_iff.mp hi.symm
    rw [hy]
    exact congrArg some (hread x i y hok.symm)

/-- What each step keeps, a fold keeps. -/
theorem foldlM_keeps {step : β → α → Checked β} {xs : List α} {start last : β} (p : β → Prop)
    (hstart : p start) (hstep : ∀ x ∈ xs, ∀ b next, p b → step b x = .ok next → p next)
    (h : xs.foldlM step start = .ok last) : p last := by
  induction xs generalizing start with
  | nil => exact Except.ok.inj h ▸ hstart
  | cons x xs ih =>
    obtain ⟨hfirst, hrest⟩ := List.forall_mem_cons.mp hstep
    rw [List.foldlM_cons] at h
    obtain ⟨next, hnext, hlast⟩ := bind_eq_ok.mp h
    exact ih (hfirst start next hstart hnext) hrest hlast

/-- A fold of steps that cannot fail. -/
theorem foldlM_eq_ok_foldl {step : β → α → Checked β} {image : β → α → β} {xs : List α}
    (h : ∀ x ∈ xs, ∀ b, step b x = .ok (image b x)) (start : β) :
    xs.foldlM step start = .ok (xs.foldl image start) := by
  induction xs generalizing start with
  | nil => rfl
  | cons x xs ih =>
    obtain ⟨hfirst, hrest⟩ := List.forall_mem_cons.mp h
    rw [List.foldlM_cons, hfirst start]
    exact ih hrest (image start x)

/-- The value has a property if there is one, and the fault has one if there is none. -/
def Yields (good : α → Prop) (bad : Fault → Prop) : Checked α → Prop
  | .ok a => good a
  | .error fault => bad fault

theorem Yields.bind {good : α → Prop} {good' : β → Prop} {bad : Fault → Prop} {read : Checked α}
    {next : α → Checked β} (h : read.Yields good bad)
    (hnext : ∀ a, good a → (next a).Yields good' bad) : (read >>= next).Yields good' bad := by
  cases read with
  | error fault => exact h
  | ok a => exact hnext a h

theorem Yields.mono {good good' : α → Prop} {bad : Fault → Prop} {read : Checked α}
    (h : read.Yields good bad) (hgood : ∀ a, good a → good' a) : read.Yields good' bad := by
  cases read with
  | error fault => exact h
  | ok a => exact hgood a h

theorem mapError_eq_ok {read : Checked α} {f : Fault → Fault} {a : α} :
    read.mapError f = .ok a ↔ read = .ok a := by
  cases read with
  | ok _ => exact Iff.rfl
  | error _ => exact ⟨nofun, nofun⟩

theorem located_eq_ok {read : Checked α} {place : Location} {a : α} :
    read.located place = .ok a ↔ read = .ok a := mapError_eq_ok

end ClusterBlueprint.Checked
