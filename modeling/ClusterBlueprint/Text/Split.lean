/-!
Cutting texts apart at a character.
-/

namespace ClusterBlueprint.Text

/-- The stretches between the occurrences of a character.  There is always one more than there are
occurrences. -/
def splitChars (mark : Char) : List Char → List (List Char)
  | [] => [[]]
  | c :: rest =>
    if c = mark then [] :: splitChars mark rest
    else
      match splitChars mark rest with
      | [] => [[c]]
      | first :: more => (c :: first) :: more

/-- The stretches of a text between the occurrences of a character. -/
def split (mark : Char) (s : String) : List String :=
  (splitChars mark s.toList).map String.ofList

end ClusterBlueprint.Text
