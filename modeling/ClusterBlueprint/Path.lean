import ClusterBlueprint.Text.Split

/-!
The directories that paths lie in.

A path is text with slashes.  Slashes that follow each other count as one, and so does a dot between
slashes, except that a dot at the start of a path is a component of its own.
-/

namespace ClusterBlueprint.Path

/-- The components of a path other than dots. -/
def names (path : String) : List (List Char) :=
  (Text.splitChars '/' path.toList).filter fun name => !name.isEmpty && name ≠ ['.']

/-- The name of the directory that encloses a path.  A parent segment is no name. -/
def enclosingName? (path : String) : Option String :=
  match (names path).dropLast.getLast? with
  | some name => if name = ['.', '.'] then none else some (String.ofList name)
  | none => none

/-- The last component of a relative path, backwards, taken off, with the slash before it. -/
def dropComponent (reversed : List Char) : List Char :=
  (reversed.dropWhile (· ≠ '/')).drop 1

/-- The components at the end of a relative path, backwards, that are empty or dots, taken off, `n`
of them at most. -/
def dropBlank : Nat → List Char → List Char
  | 0, reversed => reversed
  | n + 1, reversed =>
    let last := reversed.takeWhile (· ≠ '/')
    if reversed.isEmpty || !(last.isEmpty || last = ['.']) then reversed
    else dropBlank n (dropComponent reversed)

/-- The number of characters at the start that no component can take: a slash or a dot. -/
def anchorLength (path : List Char) : Nat :=
  if path.head? = some '/' || path = ['.'] || path.take 2 = ['.', '/'] then 1 else 0

/-- The directory that a path lies in, empty if the path does not say. -/
def directory (path : String) : String :=
  let anchor := path.toList.take (anchorLength path.toList)
  let body := (path.toList.drop (anchorLength path.toList)).reverse
  let named := dropBlank body.length body
  if named.isEmpty then ""
  else
    let parent := dropComponent named
    String.ofList (anchor ++ (dropBlank parent.length parent).reverse)

end ClusterBlueprint.Path
