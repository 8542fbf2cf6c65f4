import ClusterBlueprint.SortedMap
import ClusterBlueprint.Text.Digest
import ClusterBlueprint.Text.Split

/-!
Staged files: sources and where they are copied to.

The destination of a source depends on the spelling of the source alone: its base name and a part of
its digest.  The table holds destinations under the cleaned paths of the sources, and of two
recordings under one path the later holds.
-/

namespace ClusterBlueprint

namespace StagedFiles

/-- The directory of staged files, seen from a deployment group. -/
def directory : String := "../.ghpc/staged"

/-- The name of staged files whose sources have no name of their own. -/
def fallbackName : List Char := ['f', 'i', 'l', 'e']

/-- The last component of a path, slashes at its end aside; a dot for the empty path, and a slash
for slashes alone. -/
def baseName (path : List Char) : List Char :=
  if path.isEmpty then ['.']
  else
    let trimmed := (path.reverse.dropWhile (· = '/')).reverse
    if trimmed.isEmpty then ['/'] else (trimmed.reverse.takeWhile (· ≠ '/')).reverse

def stagedName (source : List Char) : List Char :=
  let name := baseName source
  if name = ['.'] || name = ['.', '.'] || name = ['/'] then fallbackName else name

def destination (source : String) : String :=
  directory ++ "/" ++ String.ofList (stagedName source.toList) ++ "_"
    ++ String.ofList ((Text.sha256Hex source).take 10)

/-- The segments of a path after one more.  A parent segment takes back the segment before it; where
there is none to take back it is kept, except below the root. -/
def pushSegment (rooted : Bool) (segments : List (List Char)) (segment : List Char) :
    List (List Char) :=
  if segment.isEmpty || segment = ['.'] then segments
  else if segment = ['.', '.'] then
    match segments.getLast? with
    | some last =>
      if last ≠ ['.', '.'] then segments.dropLast
      else if rooted then segments
      else segments ++ [segment]
    | none => if rooted then segments else [segment]
  else segments ++ [segment]

/-- The path without empty segments, dots and parents that can be taken back. -/
def cleanPath (path : List Char) : List Char :=
  let rooted := path.head? = some '/'
  let segments := (Text.splitChars '/' path).foldl (pushSegment rooted) []
  let joined := ['/'].intercalate segments
  if rooted then '/' :: joined else if joined.isEmpty then ['.'] else joined

/-- The cleaned path of a text. -/
def clean (path : String) : String := String.ofList (cleanPath path.toList)

/-- The cleaned path of a source, seen from the directory of its blueprint. -/
def resolve (directory source : String) : String :=
  if source.toList.head? = some '/' || directory.isEmpty then clean source
  else clean (directory ++ "/" ++ source)

end StagedFiles

/-- Destinations under the paths of their sources. -/
structure StagedFiles where
  files : SortedMap String

namespace StagedFiles

instance : EmptyCollection StagedFiles := ⟨⟨∅⟩⟩

instance : Inhabited StagedFiles := ⟨∅⟩

def record (staged : StagedFiles) (directory source destination : String) : StagedFiles :=
  ⟨staged.files.insert (resolve directory source) destination⟩

def recordAll (staged : StagedFiles) (directory : String) (sources : List String) : StagedFiles :=
  sources.foldl (fun staged source => staged.record directory source (destination source)) staged

def get? (staged : StagedFiles) (path : String) : Option String := staged.files.find? path

def toList (staged : StagedFiles) : List (String × String) := staged.files.toList

def size (staged : StagedFiles) : Nat := staged.files.size

def isEmpty (staged : StagedFiles) : Bool := staged.files.isEmpty

end StagedFiles

end ClusterBlueprint
