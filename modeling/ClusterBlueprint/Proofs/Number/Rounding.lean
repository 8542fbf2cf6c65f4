import ClusterBlueprint.Number.Decimal
import Mathlib.Data.Nat.Log
import Mathlib.Tactic.Ring

/-!
What rounding leaves alone.

A magnitude that is written as a quotient in any way is its own nearest magnitude, and a quotient
may be widened by a common factor.  From the two follows that a decimal is read by its value alone,
so zeros moved between its digits and its exponent change nothing.
-/

namespace ClusterBlueprint.Magnitude

theorem roundQuotient_mul {c : Nat} (hc : 0 < c) (num den : Nat) :
    roundQuotient (c * num) (c * den) = roundQuotient num den := by
  unfold roundQuotient
  rw [Nat.mul_div_mul_left _ _ hc, Nat.mul_mod_mul_left]
  have hdouble : 2 * (c * (num % den)) = c * (2 * (num % den)) := by ring
  simp only [hdouble, Nat.mul_lt_mul_left hc]

theorem roundQuotient_mul_self {den : Nat} (hden : 0 < den) (n : Nat) :
    roundQuotient (n * den) den = n := by
  unfold roundQuotient
  simp [Nat.mul_div_cancel _ hden, hden]

/-- A common factor of both sides of a quotient does not matter. -/
theorem nearest_mul {c : Nat} (hc : 0 < c) (num den : Nat) :
    nearest (c * num) (c * den) = nearest num den := by
  unfold nearest
  have hscaled : c * num * unitsInOne = c * (num * unitsInOne) := by ring
  have hshift (s : Nat) : (c * den) <<< s = c * (den <<< s) := by
    rw [Nat.shiftLeft_eq, Nat.shiftLeft_eq, Nat.mul_assoc]
  simp only [hscaled, hshift, Nat.mul_div_mul_left _ _ hc, roundQuotient_mul hc]

theorem unitsInOne_pos : 0 < unitsInOne := by decide +kernel

/-- The ranks below the second range are their own count of units. -/
theorem units_of_lt {m : Magnitude} (h : m.val < rangeSize) : m.units = m.val := by
  unfold units significand shift
  rw [if_pos h, Nat.div_eq_of_lt h]
  rfl

/-- Above, the significand has all of its digits. -/
theorem units_of_ge {m : Magnitude} (h : rangeSize ≤ m.val) :
    m.units = (rangeSize + m.val % rangeSize) * 2 ^ (m.val / rangeSize - 1) := by
  unfold units significand shift
  rw [if_neg (Nat.not_lt.mpr h), Nat.shiftLeft_eq]

theorem rangeSize_eq : rangeSize = 2 ^ 52 := rfl

/-- A full significand has 53 binary digits, and the shift adds to them. -/
theorem log2_units_of_ge {m : Magnitude} (h : rangeSize ≤ m.val) :
    m.units.log2 = 52 + (m.val / rangeSize - 1) := by
  rw [units_of_ge h, rangeSize_eq]
  have hlt := Nat.mod_lt m.val (Nat.two_pow_pos 52)
  have hpos := Nat.two_pow_pos (m.val / 2 ^ 52 - 1)
  generalize m.val % 2 ^ 52 = low at hlt ⊢
  generalize m.val / 2 ^ 52 - 1 = s at hpos ⊢
  rw [Nat.log2_eq_iff (Nat.mul_ne_zero (by omega) hpos.ne')]
  constructor
  · rw [Nat.pow_add]
    exact Nat.mul_le_mul_right _ (by omega)
  · have hpow : 2 ^ (52 + s + 1) = (2 ^ 52 + 2 ^ 52) * 2 ^ s := by ring
    rw [hpow]
    exact Nat.mul_lt_mul_of_pos_right (by omega) hpos

theorem log2_units_of_lt {m : Magnitude} (h : m.val < rangeSize) : m.units.log2 - 52 = 0 := by
  rw [units_of_lt h]
  by_cases hzero : m.val = 0
  · rw [hzero, Nat.log2_zero]
  · have hlog : m.val.log2 < 52 := (Nat.log2_lt hzero).mpr h
    omega

/-- A quotient of the units by one unit shifted as far as the units are has no remainder. -/
theorem roundQuotient_units (m : Magnitude) :
    roundQuotient (m.units * unitsInOne) (unitsInOne <<< m.shift) = m.significand := by
  rw [units, Nat.shiftLeft_eq, Nat.shiftLeft_eq, Nat.mul_assoc, Nat.mul_comm (2 ^ _)]
  exact roundQuotient_mul_self (Nat.mul_pos unitsInOne_pos (Nat.two_pow_pos _)) _

/-- The rank of a magnitude from its shift and its significand. -/
theorem shift_mul_add_significand (m : Magnitude) :
    m.shift * rangeSize + m.significand = m.val := by
  unfold shift significand
  have hdivmod := Nat.div_add_mod m.val rangeSize
  by_cases h : m.val < rangeSize
  · rw [if_pos h, Nat.div_eq_of_lt h, Nat.zero_sub, Nat.zero_mul, Nat.zero_add]
  · rw [if_neg h, Nat.sub_mul, Nat.one_mul, Nat.mul_comm]
    have hpos : 1 ≤ m.val / rangeSize :=
      Nat.div_pos (Nat.le_of_not_lt h) (Nat.two_pow_pos 52)
    have hle := Nat.mul_le_mul_left rangeSize hpos
    rw [Nat.mul_one] at hle
    generalize rangeSize * (m.val / rangeSize) = high at hdivmod hle ⊢
    omega

/-- A magnitude is nearest to its own units. -/
theorem nearest_units (m : Magnitude) : nearest m.units unitsInOne = m := by
  have hshift : m.units.log2 - 52 = m.shift := by
    by_cases h : m.val < rangeSize
    · rw [log2_units_of_lt h, shift, Nat.div_eq_of_lt h]
    · rw [log2_units_of_ge (Nat.le_of_not_lt h), shift, Nat.add_sub_cancel_left]
  apply Fin.ext
  simp only [nearest, Nat.mul_div_cancel _ unitsInOne_pos, hshift, roundQuotient_units,
    shift_mul_add_significand]
  exact Nat.min_eq_left (Nat.le_of_lt_succ m.isLt)

theorem eq_zero_of_units {m : Magnitude} (h : m.units = 0) : m = zero := by
  by_cases hlt : m.val < rangeSize
  · exact Fin.ext (units_of_lt hlt ▸ h)
  · rw [units_of_ge (Nat.le_of_not_lt hlt)] at h
    rcases Nat.mul_eq_zero.mp h with hzero | hzero
    · exact absurd (Nat.eq_zero_of_add_eq_zero_right hzero) (by decide)
    · exact absurd hzero (Nat.two_pow_pos _).ne'

end ClusterBlueprint.Magnitude

namespace ClusterBlueprint.Number

theorem ne_nan_of_isFinite {x : Number} (h : x.isFinite) : x ≠ .nan := by
  rintro rfl
  exact absurd h Bool.false_ne_true

theorem eq_self {x : Number} (h : x ≠ .nan) : x.eq x := by
  cases x with
  | nan => exact absurd rfl h
  | signed negative m => simp [eq]

/-- An integer of as many units is the number, whatever sign its zero has. -/
theorem ofInt_eq {negative : Bool} {m : Magnitude} {whole : Nat}
    (h : Magnitude.unitsInOne * whole = m.units) :
    (ofInt (if negative then -whole else whole)).eq (.signed negative m) := by
  have hnearest : Magnitude.nearest whole 1 = m := by
    rw [← Magnitude.nearest_mul Magnitude.unitsInOne_pos, Nat.mul_one, h, Magnitude.nearest_units]
  have hcount : (if negative then -(whole : Int) else whole).natAbs = whole := by
    cases negative <;> simp
  have hsign : (decide ((if negative then -(whole : Int) else whole) < 0) == negative)
      || decide (m.val = 0) := by
    by_cases hzero : whole = 0
    · have hm : m = Magnitude.zero :=
        Magnitude.eq_zero_of_units (by rw [← h, hzero, Nat.mul_zero])
      simp [hm, Magnitude.zero]
    · have hpos : 0 < whole := Nat.pos_of_ne_zero hzero
      cases negative <;> simp [hpos]
  rw [ofInt, hcount, hnearest, eq, hsign]
  simp

/-- The integer that a number is stands for that number. -/
theorem ofInt_eq_of_toInt? {x : Number} {n : Int} (h : x.toInt? = some n) : (ofInt n).eq x := by
  cases x with
  | nan => exact absurd h nofun
  | signed negative m =>
    rw [toInt?] at h
    split at h
    · next hwhole =>
      obtain ⟨-, hmod⟩ := Bool.and_eq_true_iff.mp hwhole
      obtain rfl := Option.some.inj h
      exact ofInt_eq (Nat.mul_div_cancel' (Nat.dvd_of_mod_eq_zero (of_decide_eq_true hmod)))
    · exact absurd h nofun

end ClusterBlueprint.Number
