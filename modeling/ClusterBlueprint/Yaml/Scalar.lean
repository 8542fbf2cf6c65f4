import ClusterBlueprint.Document.Node
import ClusterBlueprint.Expression.Lexer
import ClusterBlueprint.Fields

/-!
What the plain scalars of YAML stand for.

The words of the core schema are numbers, truth values and null; every other plain scalar is a text.
-/

namespace ClusterBlueprint.Yaml

def nullWords : List String := ["null", "Null", "NULL", "~"]

def trueWords : List String := ["true", "True", "TRUE"]

def falseWords : List String := ["false", "False", "FALSE"]

def infinityWords : List String := [".inf", ".Inf", ".INF"]

def nanWords : List String := [".nan", ".NaN", ".NAN"]

def bool? (word : String) : Option Bool :=
  if trueWords.contains word then some true
  else if falseWords.contains word then some false
  else none

def digit? (base : Nat) (c : Char) : Option Nat :=
  let value? :=
    if c.isDigit then some (c.toNat - '0'.toNat)
    else if 'a' ≤ c && c ≤ 'f' then some (c.toNat - 'a'.toNat + 10)
    else if 'A' ≤ c && c ≤ 'F' then some (c.toNat - 'A'.toNat + 10)
    else none
  value?.filter (· < base)

def natural? (base : Nat) (digits : List Char) : Option Nat :=
  if digits.isEmpty then none
  else digits.foldlM (fun n c => (digit? base c).map (base * n + ·)) 0

def splitSign : List Char → Option Bool × List Char
  | '+' :: rest => (some false, rest)
  | '-' :: rest => (some true, rest)
  | rest => (none, rest)

/-- The number that an integer without a sign spells: in base 10, or after `0x`, `0o` or `0b` in
base 16, 8 or 2.  Decimal digits with a leading zero are no number. -/
def magnitude? (digits : List Char) : Option Nat :=
  match digits with
  | '0' :: 'x' :: rest => natural? 16 rest
  | '0' :: 'o' :: rest => natural? 8 rest
  | '0' :: 'b' :: rest => natural? 2 rest
  | '0' :: _ :: _ => none
  | digits => natural? 10 digits

/-- The integer that a word spells, if it fits 128 bits: without a sign if it is not negative, and
with one if it is. -/
def integer? (word : List Char) : Option Int := do
  let (sign, digits) := splitSign word
  let n ← magnitude? digits
  if sign = some true then
    if n ≤ 1 <<< 127 then some (-n) else none
  else if n < 1 <<< 128 then some n
  else none

/-- Whether a word is decimal digits with a leading zero, which are a text. -/
def hasLeadingZero (word : List Char) : Bool :=
  match (splitSign word).2 with
  | '0' :: next :: rest => (next :: rest).all Char.isDigit
  | _ => false

/-- The number that digits with a point and an exponent spell.  A point may have no digits on one of
its sides. -/
def decimal? (digits : List Char) : Option Number :=
  let whole := digits.takeWhile Char.isDigit
  let rest := digits.dropWhile Char.isDigit
  let (fraction, rest) := match rest with
    | '.' :: rest => (rest.takeWhile Char.isDigit, rest.dropWhile Char.isDigit)
    | rest => ([], rest)
  let (exponent, rest) := Lexer.scanExponent rest
  if (whole ++ fraction).isEmpty || !rest.isEmpty then none
  else some (.ofDigits false whole fraction exponent)

def float? (word : List Char) : Option Number := do
  let (sign, digits) := splitSign word
  let negative := sign = some true
  let text := String.ofList digits
  if infinityWords.contains text then some (.signed negative .infinite)
  else if nanWords.contains text then if sign.isNone then some .nan else none
  else
    let x ← decimal? digits
    if x.isFinite then some (if negative then x.neg else x) else none

def plainScalar (word : String) : Scalar :=
  if word.isEmpty || nullWords.contains word then .null
  else
    match bool? word with
    | some value => .bool value
    | none =>
      match integer? word.toList with
      | some n => .integer n
      | none =>
        if hasLeadingZero word.toList then .text word
        else
          match float? word.toList with
          | some x => .float x
          | none => .text word

end ClusterBlueprint.Yaml
