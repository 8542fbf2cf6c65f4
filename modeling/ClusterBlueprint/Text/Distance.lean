/-!
The distance between two texts, and the nearest of some names.

The distance counts the characters to insert, delete and replace.  It is computed one character of
the first text at a time: a row holds the distances from what was taken of the first text to every
suffix of the second, longest suffix first.
-/

namespace ClusterBlueprint.Text

def emptyRow : List Char → List Nat
  | [] => [0]
  | _ :: suffix => (suffix.length + 1) :: emptyRow suffix

/-- The row with one more character in front of the first text.  At the longest suffix the character
is kept or replaced, or it is deleted, or the suffix's own first character is inserted. -/
def nextRow (c : Char) : List Char → List Nat → List Nat
  | d :: suffix, whole :: rest =>
    let shorter := nextRow c suffix rest
    let replaced := rest.headD 0 + if c = d then 0 else 1
    min replaced (min (whole + 1) (shorter.headD 0 + 1)) :: shorter
  | _, row => [row.headD 0 + 1]

/-- The distances from the first text to every suffix of the second. -/
def distanceRow (target : List Char) : List Char → List Nat
  | [] => emptyRow target
  | c :: source => nextRow c target (distanceRow target source)

/-- The least number of insertions, deletions and replacements of single characters that turn one
text into the other. -/
def distance (source target : String) : Nat :=
  (distanceRow target.toList source.toList).headD 0

/-- The greatest distance at which a name is still taken for a misspelling. -/
def nearDistance : Nat := 3

/-- The first of the names that no other is nearer than, unless all are too far. -/
def nearest? (name : String) (candidates : List String) : Option String :=
  let near := candidates.filter fun candidate => distance name candidate ≤ nearDistance
  near.find? fun candidate => near.all fun other => distance name candidate ≤ distance name other

end ClusterBlueprint.Text
