import ClusterBlueprint.Evaluation
import ClusterBlueprint.Proofs.Checked

/-!
What an evaluation comes to.

Evaluations follow the laws of a monad, since what they stage is listed in order.
`Evaluation.Yields` is a postcondition: one for the value and one for the fault.
-/

namespace ClusterBlueprint.Evaluation

variable {α β : Type} {x : Evaluation α} {f : α → Evaluation β}

theorem bind_ok (staged : List String) (a : α) (f : α → Evaluation β) :
    (⟨staged, .ok a⟩ : Evaluation α) >>= f = ⟨staged ++ (f a).staged, (f a).result⟩ := rfl

protected theorem bind_assoc {γ : Type} (x : Evaluation α) (f : α → Evaluation β)
    (g : β → Evaluation γ) : x >>= f >>= g = x >>= fun a => f a >>= g := by
  obtain ⟨staged, result⟩ := x
  cases result with
  | error fault => rfl
  | ok a =>
    rw [bind_ok, bind_ok]
    rcases f a with ⟨more, _ | b⟩
    · rfl
    · rw [bind_ok, bind_ok, List.append_assoc]

protected theorem id_map (x : Evaluation α) : id <$> x = x := by
  obtain ⟨staged, result⟩ := x
  cases result with
  | error fault => rfl
  | ok a =>
    show (⟨staged ++ [], .ok a⟩ : Evaluation α) = _
    rw [List.append_nil]

instance : LawfulMonad Evaluation :=
  LawfulMonad.mk' Evaluation Evaluation.id_map (fun _ _ => rfl) Evaluation.bind_assoc

theorem result_bind : (x >>= f).result = x.result >>= fun a => (f a).result := by
  show (Evaluation.bind x f).result = _
  unfold Evaluation.bind
  cases x.result <;> rfl

theorem result_bind_eq_ok {b : β} :
    (x >>= f).result = .ok b ↔ ∃ a, x.result = .ok a ∧ (f a).result = .ok b := by
  rw [result_bind, Checked.bind_eq_ok]

/-- The value of an evaluation may be dropped if what follows does not depend on it. -/
theorem bind_eq_discard_bind {next : Evaluation β} (h : ∀ a, x.result = .ok a → f a = next) :
    x >>= f = discard x >>= fun _ => next := by
  obtain ⟨staged, result⟩ := x
  cases result with
  | error fault => rfl
  | ok a =>
    show _ = (⟨staged ++ [], .ok ()⟩ : Evaluation Unit) >>= _
    rw [bind_ok, bind_ok, h a rfl, List.append_nil]

theorem bind_congr_ok {g : α → Evaluation β} (h : ∀ a, x.result = .ok a → f a = g a) :
    x >>= f = x >>= g := by
  obtain ⟨staged, result⟩ := x
  cases result with
  | error fault => rfl
  | ok a => rw [bind_ok, bind_ok, h a rfl]

theorem result_discard_eq_ok : (discard x).result = .ok () ↔ ∃ a, x.result = .ok a := by
  obtain ⟨staged, result⟩ := x
  cases result with
  | error fault => exact ⟨nofun, nofun⟩
  | ok a => exact ⟨fun _ => ⟨a, rfl⟩, fun _ => rfl⟩

theorem result_forM_eq_ok {check : α → Evaluation Unit} {xs : List α} :
    (xs.forM check).result = .ok () ↔ ∀ a ∈ xs, (check a).result = .ok () := by
  induction xs with
  | nil => exact ⟨fun _ => List.forall_mem_nil _, fun _ => rfl⟩
  | cons a xs ih =>
    have hcons : (a :: xs).forM check = check a >>= fun _ => xs.forM check := rfl
    rw [hcons, result_bind_eq_ok, List.forall_mem_cons, ← ih]
    constructor
    · rintro ⟨_, hfirst, hrest⟩
      exact ⟨hfirst, hrest⟩
    · exact fun ⟨hfirst, hrest⟩ => ⟨(), hfirst, hrest⟩

theorem result_mapM (f : α → Evaluation β) (xs : List α) :
    (xs.mapM f).result = xs.mapM fun x => (f x).result := by
  induction xs with
  | nil => rfl
  | cons x xs ih =>
    rw [List.mapM_cons, List.mapM_cons, result_bind]
    congr 1
    funext y
    rw [result_bind, ih]
    rfl

theorem result_foldlM (f : β → α → Evaluation β) (xs : List α) (b : β) :
    (xs.foldlM f b).result = xs.foldlM (fun b x => (f b x).result) b := by
  induction xs generalizing b with
  | nil => rfl
  | cons x xs ih =>
    rw [List.foldlM_cons, List.foldlM_cons, result_bind]
    congr 1
    funext next
    exact ih next

theorem result_located (place : Location) (x : Evaluation α) :
    (x.located place).result = x.result.mapError (Fault.located place) := rfl

/-- The value has a property if there is one, and the fault has one if there is none. -/
def Yields (good : α → Prop) (bad : Fault → Prop) (x : Evaluation α) : Prop :=
  match x.result with
  | .ok a => good a
  | .error fault => bad fault

section Yields

variable {good good' : α → Prop} {next : β → Prop} {bad bad' : Fault → Prop}

theorem yields_pure {a : α} (h : good a) : Yields good bad (pure a : Evaluation α) := h

theorem yields_fail {cause : Cause} (h : bad cause) : Yields good bad (fail cause) := h

theorem Yields.bind (hx : Yields good bad x) (hf : ∀ a, good a → Yields next bad (f a)) :
    Yields next bad (x >>= f) := by
  unfold Yields at hx ⊢
  rw [result_bind]
  cases hresult : x.result with
  | error fault =>
    rw [hresult] at hx
    exact hx
  | ok a =>
    rw [hresult] at hx
    exact hf a hx

theorem Yields.mono (hx : Yields good bad x) (hgood : ∀ a, good a → good' a)
    (hbad : ∀ fault, bad fault → bad' fault) : Yields good' bad' x := by
  unfold Yields at hx ⊢
  split at hx
  · exact hgood _ hx
  · exact hbad _ hx

theorem Yields.ok {a : α} (hx : Yields good bad x) (h : x.result = .ok a) : good a := by
  unfold Yields at hx
  rwa [h] at hx

theorem Yields.error {fault : Fault} (hx : Yields good bad x) (h : x.result = .error fault) :
    bad fault := by
  unfold Yields at hx
  rwa [h] at hx

end Yields

end ClusterBlueprint.Evaluation

namespace ClusterBlueprint.Term

theorem eval_ofString (bindings : SortedMap Value) (text : String) :
    (ofString text).eval bindings = ⟨[], .ok (.string text)⟩ := by
  have htext : (ofString text).eval bindings = ⟨[], .ok (.string (text ++ ""))⟩ := rfl
  rwa [String.append_empty] at htext

end ClusterBlueprint.Term
