import ClusterBlueprint.Number.Basic

/-!
Decimal text of numbers.

`Magnitude.ofDecimal` reads a decimal as the nearest magnitude.  `Magnitude.shortest` goes the other
way: it takes the fewest digits that read back, of two candidates with that many digits the nearer
one, and on an exact tie the one that `Tie` names.  All of it is arithmetic on naturals.

A layout then places the point.  `Number.plain` never writes an exponent; `Number.scientific` writes
one outside the usual range; `Number.source` is the spelling inside expressions.
-/

namespace ClusterBlueprint

/-- The decimal number `digits * 10 ^ exponent`. -/
structure Decimal where
  digits : Nat
  exponent : Int

/-- Which of two equally near candidates is taken. -/
inductive Tie where
  | toEven
  | up

namespace Decimal

def powerOfTen (n : Nat) : Nat := Nat.pow 10 n

/-- How many decimal digits a natural has; zero has one. -/
def digitCount (n : Nat) : Nat := (Nat.toDigits 10 n).length

def strip : Decimal → Decimal
  | ⟨digits, exponent⟩ =>
    if h : digits = 0 then ⟨0, 0⟩
    else if digits % 10 = 0 then strip ⟨digits / 10, exponent + 1⟩
    else ⟨digits, exponent⟩
termination_by d => d.digits
decreasing_by exact Nat.div_lt_self (Nat.pos_of_ne_zero h) (by decide)

/-- The power of ten below which the decimal lies: one more than the exponent of its first digit. -/
def order (d : Decimal) : Int := digitCount d.digits + d.exponent

/-- The digits with a point in their place and no exponent.  A whole number has no point, or ends in
`.0` if `pointZero` asks for it. -/
def positional (pointZero : Bool) (d : Decimal) : String :=
  let digits := Nat.toDigits 10 d.digits
  if 0 ≤ d.exponent then
    String.ofList (digits ++ List.replicate d.exponent.toNat '0') ++
      (if pointZero then ".0" else "")
  else if 0 < d.order then
    let whole := d.order.toNat
    String.ofList (digits.take whole) ++ "." ++ String.ofList (digits.drop whole)
  else
    "0." ++ String.ofList (List.replicate (-d.order).toNat '0' ++ digits)

/-- One digit, the other digits after a point, and the exponent of the first. -/
def scientific (plusSign : Bool) (d : Decimal) : String :=
  let exponent := d.order - 1
  let sign := if exponent < 0 then "-" else if plusSign then "+" else ""
  let mantissa := match Nat.toDigits 10 d.digits with
    | [] => "0"
    | [digit] => String.singleton digit
    | first :: rest => String.ofList (first :: '.' :: rest)
  mantissa ++ "e" ++ sign ++ String.ofList (Nat.toDigits 10 exponent.natAbs)

end Decimal

namespace Magnitude

/-- The magnitude nearest to a decimal.  Beyond 10 ^ 400 every decimal is infinite and below
10 ^ -400 it is zero, whatever its digits; the bounds keep the powers small. -/
def ofDecimal (d : Decimal) : Magnitude :=
  if d.digits = 0 || d.order < -400 then zero
  else if 400 < d.order then infinite
  else if 0 ≤ d.exponent then nearest (d.digits * Decimal.powerOfTen d.exponent.toNat) 1
  else nearest d.digits (Decimal.powerOfTen (-d.exponent).toNat)

/-- A finite magnitude written out in full: 2 ^ -1074 is 5 ^ 1074 * 10 ^ -1074. -/
def exactDecimal (m : Magnitude) : Decimal := ⟨m.units * Nat.pow 5 1074, -1074⟩

/-- On the decimal grid that keeps `count` leading digits of the exact value, the neighbour of the
value that reads back as `m`, if there is one. -/
def candidate? (tie : Tie) (m : Magnitude) (count : Nat) : Option Decimal :=
  let exact := m.exactDecimal
  let dropped := Decimal.digitCount exact.digits - count
  let grid := Decimal.powerOfTen dropped
  let below := exact.digits / grid
  let double := 2 * (exact.digits % grid)
  let lower : Decimal := ⟨below, exact.exponent + dropped⟩
  let upper : Decimal := ⟨below + 1, exact.exponent + dropped⟩
  let preferUpper := match tie with
    | .toEven => grid < double || (double = grid && below % 2 = 1)
    | .up => grid ≤ double
  let reads (d : Decimal) : Bool := ofDecimal d = m
  if preferUpper then
    if reads upper then some upper else if reads lower then some lower else none
  else
    if reads lower then some lower else if reads upper then some upper else none

/-- The shortest decimal that reads back as the finite magnitude `m`.  Seventeen digits are always
enough; the exact value stands behind them so that the answer needs no proof of that. -/
def shortest (tie : Tie) (m : Magnitude) : Decimal :=
  (((List.range 17).findSome? fun n => m.candidate? tie (n + 1)).getD m.exactDecimal).strip

end Magnitude

namespace Number

def ofDecimal (negative : Bool) (d : Decimal) : Number := .signed negative (.ofDecimal d)

def render (nan infinite : String) (finite : Magnitude → String) : Number → String
  | .nan => nan
  | .signed negative m =>
    (if negative then "-" else "") ++ (if m.isFinite then finite m else infinite)

/-- The shortest digits without an exponent: `3`, `-0`, `0.1`, `NaN`, `-inf`. -/
def plain : Number → String := render "NaN" "inf" fun m => (m.shortest .up).positional false

/-- The shortest digits with a fraction, in scientific form from 10 ^ 16 on and below 10 ^ -5. -/
def scientific (plusSign : Bool) (nan infinite : String) : Number → String :=
  render nan infinite fun m =>
    let d := m.shortest .toEven
    if -5 < d.order && d.order ≤ 16 then d.positional true else d.scientific plusSign

/-- The spelling inside expressions: whole numbers below 10 ^ 15 as integers, so `-0` is `0`, and
all others by their shortest digits. -/
def source (x : Number) : String :=
  match x.shortInt? with
  | some n => toString n
  | none => x.plain

/-- The number with the digits `whole`, `.fraction`, `eexponent`, each part a list of decimal
digits. -/
def ofDigits (negative : Bool) (whole fraction : List Char) (exponent : Int) : Number :=
  let value := (whole ++ fraction).foldl (fun n c => 10 * n + (c.toNat - '0'.toNat)) 0
  ofDecimal negative ⟨value, exponent - fraction.length⟩

end Number

end ClusterBlueprint
