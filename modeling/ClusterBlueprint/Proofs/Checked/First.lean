import ClusterBlueprint.Proofs.Checked

/-!
Where checks over a list fail: at the first item whose check fails.
-/

namespace ClusterBlueprint

/-- Whether an item of a list has a property, and no item before it. -/
def IsFirstWith {α : Type} (p : α → Prop) (xs : List α) (x : α) : Prop :=
  ∃ before after, xs = before ++ x :: after ∧ (∀ y ∈ before, ¬ p y) ∧ p x

section IsFirstWith

variable {α : Type} {p q : α → Prop} {xs : List α} {x y : α}

theorem isFirstWith_cons :
    IsFirstWith p (y :: xs) x ↔ p y ∧ x = y ∨ ¬ p y ∧ IsFirstWith p xs x := by
  constructor
  · rintro ⟨before, after, heq, hbefore, hx⟩
    cases before with
    | nil =>
      obtain ⟨rfl, rfl⟩ := List.cons.inj heq
      exact .inl ⟨hx, rfl⟩
    | cons first before =>
      obtain ⟨rfl, rfl⟩ := List.cons.inj heq
      obtain ⟨hy, hbefore⟩ := List.forall_mem_cons.mp hbefore
      exact .inr ⟨hy, before, after, rfl, hbefore, hx⟩
  · rintro (⟨hy, rfl⟩ | ⟨hy, before, after, rfl, hbefore, hx⟩)
    · exact ⟨[], xs, rfl, List.forall_mem_nil _, hy⟩
    · exact ⟨y :: before, after, rfl, List.forall_mem_cons.mpr ⟨hy, hbefore⟩, hx⟩

theorem not_isFirstWith_nil : ¬ IsFirstWith p [] x := by
  rintro ⟨before, after, heq, -, -⟩
  exact absurd heq.symm (List.append_ne_nil_of_right_ne_nil _ (List.cons_ne_nil _ _))

/-- Where some item has a property there is a first one. -/
theorem exists_isFirstWith : (∃ x, IsFirstWith p xs x) ↔ ∃ x ∈ xs, p x := by
  induction xs with
  | nil =>
    exact ⟨fun ⟨_, h⟩ => absurd h not_isFirstWith_nil, fun ⟨_, h, _⟩ => absurd h List.not_mem_nil⟩
  | cons y xs ih =>
    simp only [isFirstWith_cons, exists_or, exists_and_left, exists_eq, and_true, ih,
      List.mem_cons, or_and_right, exists_eq_left]
    by_cases hy : p y <;> simp [hy]

theorem IsFirstWith.mem (h : IsFirstWith p xs x) : x ∈ xs := by
  obtain ⟨before, after, rfl, -, -⟩ := h
  exact List.mem_append_right _ List.mem_cons_self

theorem IsFirstWith.holds (h : IsFirstWith p xs x) : p x := by
  obtain ⟨_, _, -, -, hx⟩ := h
  exact hx

theorem IsFirstWith.congr (h : IsFirstWith p xs x) (hpq : ∀ y ∈ xs, p y ↔ q y) :
    IsFirstWith q xs x := by
  have hx := (hpq x h.mem).mp
  obtain ⟨before, after, rfl, hbefore, hp⟩ := h
  refine ⟨before, after, rfl, fun y hy => ?_, hx hp⟩
  exact mt (hpq y (List.mem_append_left _ hy)).mpr (hbefore y hy)

end IsFirstWith

namespace Checked

variable {α β : Type} {fault : Fault}

theorem bind_eq_error {read : Checked α} {next : α → Checked β} :
    (read >>= next) = .error fault
      ↔ read = .error fault ∨ ∃ a, read = .ok a ∧ next a = .error fault := by
  cases read with
  | error other =>
    refine ⟨fun h => .inl (congrArg Except.error (Except.error.inj h)), ?_⟩
    rintro (h | ⟨_, ⟨⟩, _⟩)
    exact congrArg Except.error (Except.error.inj h)
  | ok a =>
    refine ⟨fun h => .inr ⟨a, rfl, h⟩, ?_⟩
    rintro (⟨⟨⟩⟩ | ⟨_, ⟨⟩, h⟩)
    exact h

theorem located_eq_error {read : Checked α} {place : Location} :
    read.located place = .error fault
      ↔ ∃ inner, read = .error inner ∧ fault = .located place inner := by
  cases read with
  | error inner =>
    constructor
    · exact fun h => ⟨inner, rfl, (Except.error.inj h).symm⟩
    · rintro ⟨_, ⟨⟩, rfl⟩
      rfl
  | ok _ => exact ⟨nofun, nofun⟩

theorem discard_eq_error {read : Checked α} :
    discard read = .error fault ↔ read = .error fault := by
  cases read with
  | error other =>
    exact ⟨fun h => congrArg _ (Except.error.inj h), fun h => congrArg _ (Except.error.inj h)⟩
  | ok _ => exact ⟨nofun, nofun⟩

theorem discard_bind_pure (read : Checked α) (image : α → β) :
    discard (read >>= fun a => pure (image a)) = discard read := by
  cases read <;> rfl

theorem discard_mapM (read : α → Checked β) (xs : List α) :
    discard (xs.mapM read) = xs.forM fun x => discard (read x) := by
  induction xs with
  | nil => rfl
  | cons x xs ih =>
    have hcons : (x :: xs).forM (fun x => discard (read x))
      = discard (read x) >>= fun _ => xs.forM fun x => discard (read x) := rfl
    rw [List.mapM_cons, hcons, ← ih]
    cases read x with
    | error _ => rfl
    | ok _ => cases xs.mapM read <;> rfl

theorem forM_flatMap {γ : Type} (xs : List γ) (items : γ → List α) (check : α → Checked Unit) :
    (xs.flatMap items).forM check = xs.forM fun x => (items x).forM check := by
  induction xs with
  | nil => rfl
  | cons x xs ih =>
    have hcons : (x :: xs).forM (fun x => (items x).forM check)
      = (items x).forM check >>= fun _ => xs.forM fun x => (items x).forM check := rfl
    rw [List.flatMap_cons, hcons, ← ih]
    exact List.forM_append

/-- Checks fail at the first item whose check fails. -/
theorem forM_eq_error {check : α → Checked Unit} {xs : List α} :
    xs.forM check = .error fault
      ↔ ∃ x, IsFirstWith (fun x => ∃ fault, check x = .error fault) xs x
        ∧ check x = .error fault := by
  induction xs with
  | nil => exact ⟨nofun, fun ⟨_, h, _⟩ => absurd h not_isFirstWith_nil⟩
  | cons x xs ih =>
    have hcons : (x :: xs).forM check = check x >>= fun _ => xs.forM check := rfl
    rw [hcons, bind_eq_error]
    constructor
    · rintro (h | ⟨_, hok, hrest⟩)
      · exact ⟨x, isFirstWith_cons.mpr (.inl ⟨⟨fault, h⟩, rfl⟩), h⟩
      · obtain ⟨y, hfirst, hy⟩ := ih.mp hrest
        refine ⟨y, isFirstWith_cons.mpr (.inr ⟨?_, hfirst⟩), hy⟩
        rintro ⟨_, herror⟩
        exact absurd (hok.symm.trans herror) nofun
    · rintro ⟨y, hfirst, hy⟩
      rcases isFirstWith_cons.mp hfirst with ⟨-, rfl⟩ | ⟨hok, hrest⟩
      · exact .inl hy
      · refine .inr ⟨(), ?_, ih.mpr ⟨y, hrest, hy⟩⟩
        cases hx : check x with
        | error other => exact absurd ⟨other, hx⟩ hok
        | ok _ => rfl

end Checked

end ClusterBlueprint
