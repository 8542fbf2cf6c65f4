import ClusterBlueprint.Proofs.Number.Rounding

/-!
The decimal text of a number reads back.

A decimal is read by its value alone, so the shortest decimal of a finite magnitude reads as that
magnitude whether or not its zeros are stripped.  `Number.source_spelled` then says which digits the
text of a number in an expression consists of, and which decimal they stand for.
-/

namespace ClusterBlueprint

namespace Magnitude

theorem digitCount_ten_mul {n : Nat} (hn : 0 < n) :
    Decimal.digitCount (10 * n) = Decimal.digitCount n + 1 := by
  have h := Nat.toDigits_append_toDigits (b := 10) (d := 0) (by decide) hn (by decide)
  unfold Decimal.digitCount
  rw [← Nat.add_zero (10 * n), ← h, List.length_append, Nat.toDigits_zero]
  rfl

theorem ofDecimal_zero (exponent : Int) : ofDecimal ⟨0, exponent⟩ = zero := by
  unfold ofDecimal
  simp

/-- A zero moves from the digits to the exponent. -/
theorem ofDecimal_ten_mul (n : Nat) (exponent : Int) :
    ofDecimal ⟨10 * n, exponent⟩ = ofDecimal ⟨n, exponent + 1⟩ := by
  by_cases hn : n = 0
  · subst hn
    rw [Nat.mul_zero, ofDecimal_zero, ofDecimal_zero]
  have horder : Decimal.order ⟨10 * n, exponent⟩ = Decimal.order ⟨n, exponent + 1⟩ := by
    unfold Decimal.order
    rw [digitCount_ten_mul (Nat.pos_of_ne_zero hn)]
    push_cast
    ring
  have hten : 10 * n ≠ 0 := Nat.mul_ne_zero (by decide) hn
  unfold ofDecimal
  rw [horder]
  simp only [hn, hten, decide_false, Bool.false_or]
  congr 2
  rcases Int.lt_or_le exponent (-1) with hlt | hge
  · -- both exponents are negative, and the powers below differ by the factor ten
    have hpow : Decimal.powerOfTen (-exponent).toNat
        = 10 * Decimal.powerOfTen (-(exponent + 1)).toNat := by
      have h : (-exponent).toNat = (-(exponent + 1)).toNat + 1 := by omega
      rw [h]
      exact Nat.pow_succ'
    rw [if_neg (by omega), if_neg (by omega), hpow, nearest_mul (by decide)]
  · rw [if_pos (show 0 ≤ exponent + 1 by omega)]
    by_cases hzero : 0 ≤ exponent
    · have h : (exponent + 1).toNat = exponent.toNat + 1 := by omega
      rw [if_pos hzero, h]
      congr 1
      show 10 * n * 10 ^ exponent.toNat = n * 10 ^ (exponent.toNat + 1)
      ring
    · have h : exponent = -1 := by omega
      subst h
      show nearest (10 * n) (10 * 1) = nearest (n * 1) 1
      rw [nearest_mul (by decide), Nat.mul_one]

theorem ofDecimal_mul_pow (n zeros : Nat) (exponent : Int) :
    ofDecimal ⟨n * 10 ^ zeros, exponent⟩ = ofDecimal ⟨n, exponent + zeros⟩ := by
  induction zeros generalizing exponent with
  | zero => simp
  | succ zeros ih =>
    have hpow : n * 10 ^ (zeros + 1) = 10 * (n * 10 ^ zeros) := by ring
    rw [hpow, ofDecimal_ten_mul, ih]
    push_cast
    rw [Int.add_assoc, Int.add_comm 1]

theorem ofDecimal_strip (d : Decimal) : ofDecimal d.strip = ofDecimal d := by
  fun_induction Decimal.strip d with
  | case1 exponent => rw [ofDecimal_zero, ofDecimal_zero]
  | case2 digits exponent hne hmod ih =>
    have hdigits : digits = 10 * (digits / 10) := by omega
    rw [ih, ← ofDecimal_ten_mul, ← hdigits]
  | case3 => rfl

theorem significand_lt (m : Magnitude) : m.significand < 2 ^ 53 := by
  have hpow : 2 ^ 53 = rangeSize + rangeSize := rfl
  unfold significand
  have hmod := Nat.mod_lt m.val (Nat.two_pow_pos 52)
  split
  · next h => exact Nat.lt_of_lt_of_le h (hpow ▸ Nat.le_add_right ..)
  · exact hpow ▸ Nat.add_lt_add_left hmod rangeSize

theorem shift_le_of_isFinite {m : Magnitude} (h : m.isFinite) : m.shift ≤ 2046 := by
  have hm : m.val < 2047 * rangeSize := of_decide_eq_true h
  have hdiv : m.val / rangeSize < 2047 :=
    Nat.div_lt_of_lt_mul (Nat.mul_comm 2047 rangeSize ▸ hm)
  unfold shift
  omega

theorem units_lt {m : Magnitude} {bound : Nat} (h : m.shift ≤ bound) :
    m.units < 2 ^ 53 * 2 ^ bound := by
  unfold units
  rw [Nat.shiftLeft_eq]
  calc m.significand * 2 ^ m.shift
      < 2 ^ 53 * 2 ^ m.shift := Nat.mul_lt_mul_of_pos_right m.significand_lt (Nat.two_pow_pos _)
    _ ≤ 2 ^ 53 * 2 ^ bound := Nat.mul_le_mul_left _ (Nat.pow_le_pow_right Nat.two_pos h)

/-- How many decimal digits a product has, from bounds on its factors. -/
theorem digitCount_mul_bounds {n most : Nat} (factor low high : Nat) (hn : n ≠ 0)
    (hmost : n < most) (hfactor : 0 < factor) (hlow : 0 < low) (hleast : 10 ^ low ≤ factor)
    (hhigh : most * factor ≤ 10 ^ high) :
    low < Decimal.digitCount (n * factor) ∧ Decimal.digitCount (n * factor) ≤ high := by
  have hlt : n * factor < 10 ^ high :=
    Nat.lt_of_lt_of_le (Nat.mul_lt_mul_of_pos_right hmost hfactor) hhigh
  have hhighpos : 0 < high := by
    rcases Nat.eq_zero_or_pos high with hzero | hpos
    · rw [hzero, Nat.pow_zero, Nat.lt_one_iff] at hlt
      exact absurd hlt (Nat.mul_ne_zero hn hfactor.ne')
    · exact hpos
  constructor
  · rw [← Nat.not_le, Decimal.digitCount, Nat.length_toDigits_le_iff (by decide) hlow, Nat.not_lt]
    exact Nat.le_trans hleast (Nat.le_mul_of_pos_left _ (Nat.pos_of_ne_zero hn))
  · exact (Nat.length_toDigits_le_iff (by decide) hhighpos).mpr hlt

/-- A finite magnitude that is not zero, written out in full, has a number of digits for which the
bounds of `ofDecimal` do not matter. -/
theorem order_exactDecimal {m : Magnitude} (h : m.isFinite) (hzero : m.units ≠ 0) :
    -400 ≤ m.exactDecimal.order ∧ m.exactDecimal.order ≤ 400 := by
  have hcount := digitCount_mul_bounds (Nat.pow 5 1074) 673 1474 hzero
    (units_lt (shift_le_of_isFinite h)) (by decide +kernel) (by decide) (by decide +kernel)
    (by decide +kernel)
  have horder : m.exactDecimal.order
    = (Decimal.digitCount (m.units * Nat.pow 5 1074) : Int) + -1074 := rfl
  rw [horder]
  omega

theorem ofDecimal_exactDecimal {m : Magnitude} (h : m.isFinite) :
    ofDecimal m.exactDecimal = m := by
  by_cases hzero : m.units = 0
  · unfold exactDecimal
    generalize Nat.pow 5 1074 = fives
    rw [hzero, Nat.zero_mul]
    exact (ofDecimal_zero _).trans (eq_zero_of_units hzero).symm
  · obtain ⟨hleast, hmost⟩ := order_exactDecimal h hzero
    have hten : Decimal.powerOfTen 1074 = Nat.pow 5 1074 * unitsInOne := by decide +kernel
    have hfive : 0 < Nat.pow 5 1074 := by decide +kernel
    have hdigits : m.exactDecimal.digits ≠ 0 := Nat.mul_ne_zero hzero hfive.ne'
    have hread : ofDecimal m.exactDecimal
        = nearest (m.units * Nat.pow 5 1074) (Decimal.powerOfTen 1074) := by
      unfold ofDecimal
      rw [if_neg (by simp [hdigits, hleast]), if_neg (Int.not_lt.mpr hmost)]
      exact if_neg (show ¬ (0 : Int) ≤ -1074 by decide)
    rw [hread, hten]
    generalize Nat.pow 5 1074 = fives at hfive
    rw [Nat.mul_comm m.units, nearest_mul hfive, nearest_units]

/-- A whole number of few digits reads as the magnitude with as many units. -/
theorem ofDecimal_whole {m : Magnitude} {n : Nat} (hn : n < 10 ^ 15)
    (h : m.units = unitsInOne * n) : ofDecimal ⟨n, 0⟩ = m := by
  by_cases hzero : n = 0
  · have hm : m = zero := eq_zero_of_units (by rw [h, hzero, Nat.mul_zero])
    rw [hzero, hm]
    exact ofDecimal_zero 0
  · have hcount : Decimal.digitCount n ≤ 15 :=
      (Nat.length_toDigits_le_iff (by decide) (by decide)).mpr hn
    have horder : Decimal.order ⟨n, 0⟩ = Decimal.digitCount n := Int.add_zero _
    unfold ofDecimal
    rw [horder, if_neg (by simp [hzero]), if_neg (by omega), if_pos (Int.le_refl 0)]
    show nearest (n * 1) 1 = m
    rw [Nat.mul_one, ← nearest_mul unitsInOne_pos, Nat.mul_one, ← h, nearest_units]

theorem reads_of_first {reads : Decimal → Bool} {first second d : Decimal}
    (h : (if reads first then some first else if reads second then some second else none)
      = some d) : reads d := by
  split at h
  · next hfirst => exact Option.some.inj h ▸ hfirst
  · split at h
    · next hsecond => exact Option.some.inj h ▸ hsecond
    · exact absurd h.symm (Option.some_ne_none d)

theorem ofDecimal_of_candidate? {tie : Tie} {m : Magnitude} {count : Nat} {d : Decimal}
    (h : m.candidate? tie count = some d) : ofDecimal d = m := by
  unfold candidate? at h
  extract_lets _ _ _ _ _ lower upper preferUpper reads at h
  clear_value lower upper preferUpper
  have hreads : reads d := by
    split at h
    · exact reads_of_first h
    · exact reads_of_first h
  exact of_decide_eq_true hreads

/-- The shortest decimal of a magnitude reads as that magnitude. -/
theorem ofDecimal_shortest (tie : Tie) {m : Magnitude} (h : m.isFinite) :
    ofDecimal (m.shortest tie) = m := by
  unfold shortest
  rw [ofDecimal_strip]
  cases hfound : (List.range 17).findSome? fun n => m.candidate? tie (n + 1) with
  | none => exact ofDecimal_exactDecimal h
  | some d =>
    obtain ⟨n, -, hn⟩ := List.exists_of_findSome?_eq_some hfound
    exact ofDecimal_of_candidate? hn

end Magnitude

/-! ## The characters of a number -/

def AreDigits (cs : List Char) : Prop := ∀ c ∈ cs, c.isDigit

def pointed (fraction : List Char) : List Char :=
  if fraction.isEmpty then [] else '.' :: fraction

def Decimal.ofDigits (whole fraction : List Char) : Decimal :=
  ⟨Nat.ofDigitChars 10 (whole ++ fraction) 0, -fraction.length⟩

/-- The characters spell a number that reads as the magnitude: a whole part, and perhaps a point and
a fraction. -/
def Spells (cs : List Char) (m : Magnitude) : Prop :=
  ∃ whole fraction, whole ≠ [] ∧ AreDigits whole ∧ AreDigits fraction
    ∧ cs = whole ++ pointed fraction
    ∧ Magnitude.ofDecimal (Decimal.ofDigits whole fraction) = m

theorem areDigits_toDigits (n : Nat) : AreDigits (Nat.toDigits 10 n) :=
  fun _ hc => Nat.isDigit_of_mem_toDigits (by decide) (by decide) hc

theorem areDigits_zeros (n : Nat) : AreDigits (List.replicate n '0') :=
  fun _ hc => List.eq_of_mem_replicate hc ▸ rfl

theorem AreDigits.append {xs ys : List Char} (hxs : AreDigits xs) (hys : AreDigits ys) :
    AreDigits (xs ++ ys) := fun c hc => (List.mem_append.mp hc).elim (hxs c) (hys c)

namespace Decimal

/-- Zeros after the digits of a whole number. -/
theorem spells_whole (n zeros : Nat) :
    Spells (Nat.toDigits 10 n ++ List.replicate zeros '0') (Magnitude.ofDecimal ⟨n, zeros⟩) := by
  refine ⟨Nat.toDigits 10 n ++ List.replicate zeros '0', [], by simp,
    (areDigits_toDigits n).append (areDigits_zeros zeros), by simp [AreDigits],
    by simp [pointed], ?_⟩
  have hvalue : ofDigits (Nat.toDigits 10 n ++ List.replicate zeros '0') []
      = ⟨n * 10 ^ zeros, 0⟩ := by
    simp [ofDigits, Nat.ofDigitChars_append, Nat.mul_comm]
  rw [hvalue, Magnitude.ofDecimal_mul_pow, Int.zero_add]

/-- A point among the digits of a number. -/
theorem spells_pointed (n position : Nat) (hpos : 0 < position)
    (hlt : position < (Nat.toDigits 10 n).length) :
    Spells ((Nat.toDigits 10 n).take position ++ '.' :: (Nat.toDigits 10 n).drop position)
      (Magnitude.ofDecimal ⟨n, position - (Nat.toDigits 10 n).length⟩) := by
  have hdigits := areDigits_toDigits n
  have hdrop : ((Nat.toDigits 10 n).drop position).isEmpty = false := by
    simpa using hlt
  refine ⟨(Nat.toDigits 10 n).take position, (Nat.toDigits 10 n).drop position, ?_,
    fun c hc => hdigits c (List.mem_of_mem_take hc),
    fun c hc => hdigits c (List.mem_of_mem_drop hc), ?_, ?_⟩
  · intro hnil
    have hlength := congrArg List.length hnil
    rw [List.length_take, List.length_nil] at hlength
    omega
  · rw [pointed, if_neg (by simp [hdrop])]
  · congr 1
    unfold ofDigits
    rw [List.take_append_drop, Nat.ofDigitChars_ten_toDigits, List.length_drop]
    congr 1
    omega

/-- Zeros between the point and the digits of a number below one. -/
theorem spells_small (n zeros : Nat) :
    Spells ('0' :: '.' :: (List.replicate zeros '0' ++ Nat.toDigits 10 n))
      (Magnitude.ofDecimal ⟨n, -(zeros + (Nat.toDigits 10 n).length : Nat)⟩) := by
  refine ⟨['0'], List.replicate zeros '0' ++ Nat.toDigits 10 n, by simp, ?_,
    (areDigits_zeros zeros).append (areDigits_toDigits n), ?_, ?_⟩
  · intro c hc
    rw [List.mem_singleton.mp hc]
    rfl
  · simp [pointed]
  · congr 1
    unfold ofDigits
    congr 1
    · simp [Nat.ofDigitChars_append, Nat.ofDigitChars_cons]
    · rw [List.length_append, List.length_replicate]

/-- The digits of a decimal with the point in its place spell it. -/
theorem spells_positional (d : Decimal) :
    Spells (d.positional false).toList (Magnitude.ofDecimal d) := by
  obtain ⟨n, exponent⟩ := d
  have hcount : digitCount n = (Nat.toDigits 10 n).length := rfl
  unfold positional
  simp only [order, hcount]
  by_cases hwhole : 0 ≤ exponent
  · have h := spells_whole n exponent.toNat
    rw [Int.toNat_of_nonneg hwhole] at h
    simpa [if_pos hwhole] using h
  · rw [if_neg hwhole]
    by_cases hpoint : 0 < ((Nat.toDigits 10 n).length : Int) + exponent
    · have h := spells_pointed n (((Nat.toDigits 10 n).length : Int) + exponent).toNat
        (by omega) (by omega)
      have hexponent : (((((Nat.toDigits 10 n).length : Int) + exponent).toNat : Nat) : Int)
          - (Nat.toDigits 10 n).length = exponent := by omega
      rw [hexponent] at h
      simpa [if_pos hpoint] using h
    · have h := spells_small n (-(((Nat.toDigits 10 n).length : Int) + exponent)).toNat
      have hexponent : -(((-(((Nat.toDigits 10 n).length : Int) + exponent)).toNat
          + (Nat.toDigits 10 n).length : Nat) : Int) = exponent := by omega
      rw [hexponent] at h
      simpa [if_neg hpoint] using h

end Decimal

namespace Number

/-- Whether the number is finite and not negative, so that it can be written in an expression.  The
zero below zero counts as negative. -/
def isWritable : Number → Bool
  | .nan => false
  | .signed negative m => !negative && m.isFinite

/-- The text of a number in an expression spells the number. -/
theorem source_spelled {m : Magnitude} (h : m.isFinite) :
    Spells (source (.signed false m)).toList m := by
  unfold source
  cases hshort : shortInt? (.signed false m) with
  | none =>
    have hplain : plain (.signed false m) = (m.shortest .up).positional false := by
      simp [plain, render, h]
    have hspelled := Decimal.spells_positional (m.shortest .up)
    rw [Magnitude.ofDecimal_shortest .up h] at hspelled
    rw [hplain]
    exact hspelled
  | some n =>
    obtain ⟨hint, hsmall⟩ := Option.filter_eq_some_iff.mp hshort
    simp only [toInt?, h, Bool.true_and] at hint
    split at hint
    · next hmod =>
      obtain rfl := Option.some.inj hint
      have hunits := Nat.mul_div_cancel' (Nat.dvd_of_mod_eq_zero (of_decide_eq_true hmod))
      rw [if_neg Bool.false_ne_true] at hsmall ⊢
      have hsmall : m.units / Magnitude.unitsInOne < 10 ^ 15 := of_decide_eq_true hsmall
      have hspelled := Decimal.spells_whole (m.units / Magnitude.unitsInOne) 0
      rw [List.replicate_zero, List.append_nil, Nat.cast_zero,
        Magnitude.ofDecimal_whole hsmall hunits.symm] at hspelled
      show Spells (m.units / Magnitude.unitsInOne).repr.toList m
      rw [Nat.toList_repr]
      exact hspelled
    · exact absurd hint.symm (Option.some_ne_none n)

end Number

end ClusterBlueprint
