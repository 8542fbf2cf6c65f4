/-!
Double-precision numbers, exactly.

A finite magnitude is a whole number of units of 2 ^ -1074, the least positive one.  Magnitudes are
stored by rank: rank 0 is zero, rank 1 is one unit, and so on up to `Magnitude.top`, which stands
for infinity.  The rank orders the magnitudes, each magnitude has one rank, and `units` reads a rank
back as a count of units.

Every operation computes in whole numbers and rounds once by `Magnitude.nearest`: the nearest
magnitude to a quotient of two naturals, a tie going to the even rank.
-/

namespace ClusterBlueprint

/-- How many ranks a range of magnitudes with one spacing has: 2 ^ 52. -/
abbrev Magnitude.rangeSize : Nat := 0x10000000000000

/-- The rank of infinity.  There are 2047 ranges of finite ranks, the first of them for the
magnitudes below the least normal one. -/
def Magnitude.top : Nat := 2047 * Magnitude.rangeSize

/-- A magnitude, by its rank. -/
abbrev Magnitude := Fin (Magnitude.top + 1)

namespace Magnitude

def zero : Magnitude := ⟨0, Nat.succ_pos top⟩

def infinite : Magnitude := Fin.last top

def isFinite (m : Magnitude) : Bool := m.val < top

/-- The leading binary digits: 53 of them, or fewer in the first range. -/
def significand (m : Magnitude) : Nat :=
  if m.val < rangeSize then m.val else rangeSize + m.val % rangeSize

/-- How far the significand is shifted.  The first two ranges share the shift zero. -/
def shift (m : Magnitude) : Nat := m.val / rangeSize - 1

/-- A finite magnitude as a multiple of 2 ^ -1074. -/
def units (m : Magnitude) : Nat := m.significand <<< m.shift

/-- One as a count of units. -/
def unitsInOne : Nat := 1 <<< 1074

/-- The whole number nearest to `num / den`, a tie going to the even one. -/
def roundQuotient (num den : Nat) : Nat :=
  let quotient := num / den
  let double := 2 * (num % den)
  if double < den then quotient
  else if den < double then quotient + 1
  else quotient + quotient % 2

/-- The magnitude nearest to `num / den`, a tie going to the even rank.  The shift is that of the
quotient's own binary length; rounding up to the next power of two carries into the next range by
itself, and what lies beyond the last range is infinite. -/
def nearest (num den : Nat) : Magnitude :=
  let scaled := num * unitsInOne
  let shift := (scaled / den).log2 - 52
  let rank := shift * rangeSize + roundQuotient scaled (den <<< shift)
  ⟨min rank top, Nat.lt_succ_of_le (Nat.min_le_right rank top)⟩

end Magnitude

/-- A number: a magnitude with a sign, or no number at all. -/
inductive Number where
  | nan
  | signed (negative : Bool) (magnitude : Magnitude)
deriving DecidableEq

namespace Number

def zero : Number := .signed false .zero

instance : Inhabited Number := ⟨zero⟩

def isFinite : Number → Bool
  | .nan => false
  | .signed _ m => m.isFinite

def isZero : Number → Bool
  | .nan => false
  | .signed _ m => m.val = 0

/-- A finite number as a signed count of units. -/
def signedUnits (negative : Bool) (m : Magnitude) : Int :=
  if negative then -(m.units : Int) else m.units

/-- The number nearest to a signed count of units; zero takes the given sign. -/
def ofUnits (zeroSign : Bool) (total : Int) : Number :=
  .signed (if total = 0 then zeroSign else total < 0) (.nearest total.natAbs Magnitude.unitsInOne)

def ofNat (n : Nat) : Number := .signed false (.nearest n 1)

/-- The number nearest to an integer; zero is positive. -/
def ofInt (n : Int) : Number := .signed (n < 0) (.nearest n.natAbs 1)

def neg : Number → Number
  | .nan => .nan
  | .signed negative m => .signed (!negative) m

/-- The rounded sum.  A sum of zero is negative only if both terms are, and opposite infinities have
no sum. -/
def add : Number → Number → Number
  | .signed s a, .signed t b =>
    if a.isFinite then
      if b.isFinite then ofUnits (s && t) (signedUnits s a + signedUnits t b) else .signed t b
    else if b.isFinite || s == t then .signed s a
    else .nan
  | _, _ => .nan

/-- The rounded difference. -/
def sub (x y : Number) : Number := x.add y.neg

def mul : Number → Number → Number
  | .signed s a, .signed t b =>
    if a.isFinite && b.isFinite then
      .signed (s != t) (.nearest (a.units * b.units) (Magnitude.unitsInOne * Magnitude.unitsInOne))
    else if a.val = 0 || b.val = 0 then .nan
    else .signed (s != t) .infinite
  | _, _ => .nan

/-- The rounded quotient; zero by zero and infinity by infinity are no numbers. -/
def div : Number → Number → Number
  | .signed s a, .signed t b =>
    if a.isFinite then
      if !b.isFinite then .signed (s != t) .zero
      else if b.val ≠ 0 then .signed (s != t) (.nearest a.units b.units)
      else if a.val = 0 then .nan
      else .signed (s != t) .infinite
    else if b.isFinite then .signed (s != t) .infinite
    else .nan
  | _, _ => .nan

/-- The remainder of division rounded toward zero, which is exact; it has the sign of the
dividend. -/
def rem : Number → Number → Number
  | .signed s a, .signed _ b =>
    if !a.isFinite || b.val = 0 then .nan
    else if !b.isFinite then .signed s a
    else .signed s (.nearest (a.units % b.units) Magnitude.unitsInOne)
  | _, _ => .nan

/-- Equality of values: the two zeros are equal, and what is no number equals nothing. -/
def eq : Number → Number → Bool
  | .signed s a, .signed t b => a = b && (s == t || a.val = 0)
  | _, _ => false

/-- A place in the order of the numbers; both zeros have one place. -/
def place (negative : Bool) (m : Magnitude) : Int := if negative then -(m.val : Int) else m.val

/-- Strictly less; false if either side is no number. -/
def lt : Number → Number → Bool
  | .signed s a, .signed t b => place s a < place t b
  | _, _ => false

/-- Less or equal; false if either side is no number. -/
def le : Number → Number → Bool
  | .signed s a, .signed t b => place s a ≤ place t b
  | _, _ => false

def toInt? : Number → Option Int
  | .nan => none
  | .signed negative m =>
    if m.isFinite && m.units % Magnitude.unitsInOne = 0 then
      let whole : Int := (m.units / Magnitude.unitsInOne : Nat)
      some (if negative then -whole else whole)
    else none

def shortInt? (x : Number) : Option Int := x.toInt?.filter (·.natAbs < 1000000000000000)

end Number

end ClusterBlueprint
