import ClusterBlueprint.Text.Split

/-!
Texts taken apart at a mark.

A text that was put together of parts is told by them if what stands before a mark does not have the
mark itself.
-/

namespace ClusterBlueprint.Text

/-! ## Parts between marks -/

variable {mark : Char}

theorem splitChars_eq_splitOn (mark : Char) (cs : List Char) :
    splitChars mark cs = cs.splitOn mark := by
  induction cs with
  | nil => rfl
  | cons c cs ih =>
    rw [splitChars, ih, List.splitOn_cons_eq_if_modifyHead]
    by_cases hc : c = mark
    · rw [if_pos hc, if_pos (beq_iff_eq.mpr hc)]
    · rw [if_neg hc, if_neg (by simpa using hc)]
      cases hparts : cs.splitOn mark with
      | nil => exact absurd hparts (List.splitOn_ne_nil mark cs)
      | cons first more => rfl

theorem splitChars_ne_nil (mark : Char) (cs : List Char) : splitChars mark cs ≠ [] := by
  rw [splitChars_eq_splitOn]
  exact List.splitOn_ne_nil mark cs

theorem splitChars_mark (mark : Char) (cs : List Char) :
    splitChars mark (mark :: cs) = [] :: splitChars mark cs := by
  rw [splitChars, if_pos rfl]

theorem splitChars_cons {c : Char} (h : c ≠ mark) {cs first : List Char} {more : List (List Char)}
    (hcs : splitChars mark cs = first :: more) :
    splitChars mark (c :: cs) = (c :: first) :: more := by
  rw [splitChars, if_neg h, hcs]

theorem splitChars_append_mark (mark : Char) (before after : List Char) :
    splitChars mark (before ++ mark :: after)
      = splitChars mark before ++ splitChars mark after := by
  simp only [splitChars_eq_splitOn, List.splitOn_append_cons_self]

theorem splitChars_of_notMem {cs : List Char} (h : mark ∉ cs) : splitChars mark cs = [cs] := by
  rw [splitChars_eq_splitOn, List.splitOn_eq_singleton h]

/-- Between two marks there is none. -/
theorem notMem_of_mem_splitChars {cs part : List Char} (h : part ∈ splitChars mark cs) :
    mark ∉ part := by
  induction cs generalizing part with
  | nil =>
    rw [List.mem_singleton.mp h]
    exact List.not_mem_nil
  | cons c cs ih =>
    by_cases hc : c = mark
    · subst hc
      rw [splitChars_mark] at h
      rcases List.mem_cons.mp h with rfl | hrest
      · exact List.not_mem_nil
      · exact ih hrest
    · obtain ⟨first, more, hcs⟩ := List.exists_cons_of_ne_nil (splitChars_ne_nil mark cs)
      rw [splitChars_cons hc hcs] at h
      rw [hcs] at ih
      rcases List.mem_cons.mp h with rfl | hrest
      · exact List.not_mem_cons_of_ne_of_not_mem (Ne.symm hc) (ih List.mem_cons_self)
      · exact ih (List.mem_cons_of_mem _ hrest)

theorem intercalate_splitChars (mark : Char) (cs : List Char) :
    [mark].intercalate (splitChars mark cs) = cs := by
  rw [splitChars_eq_splitOn, List.intercalate_splitOn]

theorem splitChars_intercalate {parts : List (List Char)} (hne : parts ≠ [])
    (h : ∀ part ∈ parts, mark ∉ part) : splitChars mark ([mark].intercalate parts) = parts := by
  rw [splitChars_eq_splitOn, List.splitOn_intercalate mark h hne]

theorem intercalate_concat {parts : List (List Char)} (h : parts ≠ []) (part : List Char) :
    [mark].intercalate (parts ++ [part]) = [mark].intercalate parts ++ mark :: part := by
  induction parts with
  | nil => exact absurd rfl h
  | cons first rest ih =>
    by_cases hrest : rest = []
    · simp [hrest]
    · rw [List.cons_append, List.intercalate_cons_of_ne_nil (by simp), ih hrest,
        List.intercalate_cons_of_ne_nil hrest, List.append_assoc _ _ (mark :: part)]

/-! ## Parts that tell the text -/

/-- Up to a mark that neither has, two texts are the same. -/
theorem append_inj_of_notMem {mark : Char} {x y : List Char} (hx : ∀ c ∈ x.head?, c = mark)
    (hy : ∀ c ∈ y.head?, c = mark) : ∀ {a b : List Char}, mark ∉ a → mark ∉ b →
      a ++ x = b ++ y → a = b ∧ x = y
  | [], [], _, _, h => ⟨rfl, h⟩
  | [], c :: b, _, hb, h => by
    obtain rfl : x = c :: (b ++ y) := h
    exact absurd (hx c rfl ▸ List.mem_cons_self) hb
  | c :: a, [], ha, _, h => by
    obtain rfl : c :: (a ++ x) = y := h
    exact absurd (hy c rfl ▸ List.mem_cons_self) ha
  | c :: a, d :: b, ha, hb, h => by
    obtain ⟨rfl, htail⟩ := List.cons.inj h
    obtain ⟨rfl, hrest⟩ := append_inj_of_notMem hx hy
      (fun hmem => ha (List.mem_cons_of_mem _ hmem)) (fun hmem => hb (List.mem_cons_of_mem _ hmem))
      htail
    exact ⟨rfl, hrest⟩

/-- The digits of a number tell it. -/
theorem toDigits_inj {m n : Nat} (h : Nat.toDigits 10 m = Nat.toDigits 10 n) : m = n :=
  calc
    m = Nat.ofDigitChars 10 (Nat.toDigits 10 m) 0 := Nat.ofDigitChars_ten_toDigits.symm
    _ = Nat.ofDigitChars 10 (Nat.toDigits 10 n) 0 := by rw [h]
    _ = n := Nat.ofDigitChars_ten_toDigits

theorem notMem_toDigits {mark : Char} (h : ¬ mark.isDigit) (n : Nat) : mark ∉ Nat.toDigits 10 n :=
  fun hmem => h (Nat.isDigit_of_mem_toDigits (by decide) (by decide) hmem)

/-- A number in brackets tells the number. -/
theorem bracketed_inj {m n : Nat} {x y : List Char}
    (h : Nat.toDigits 10 m ++ ']' :: x = Nat.toDigits 10 n ++ ']' :: y) : m = n ∧ x = y := by
  have hmark : ∀ rest : List Char, ∀ c ∈ (']' :: rest).head?, c = ']' :=
    fun _ _ hc => (Option.some.inj hc).symm
  obtain ⟨hdigits, hrest⟩ := append_inj_of_notMem (hmark x) (hmark y)
    (notMem_toDigits (by decide) m) (notMem_toDigits (by decide) n) h
  exact ⟨toDigits_inj hdigits, (List.cons.inj hrest).2⟩

end ClusterBlueprint.Text
