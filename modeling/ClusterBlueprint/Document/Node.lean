import ClusterBlueprint.Number.Decimal
import ClusterBlueprint.Text.Quoted

/-!
The data of a document, whatever its notation.

A document may mark data with tags of its own.  The tags say nothing to a program, but as keys of a
mapping data with different tags are different.
-/

namespace ClusterBlueprint

inductive Scalar where
  | null
  | bool (value : Bool)
  | integer (value : Int)
  | float (value : Number)
  | text (text : String)
deriving DecidableEq

/-- Whether two data are the same as keys: floats by value, and what is no number is the same as
itself. -/
def Scalar.same : Scalar → Scalar → Bool
  | .float x, .float y => x.eq y || x = y
  | a, b => a = b

/-- Whether an integer fits 64 bits, as a number with a sign or without one. -/
def fitsWord (n : Int) : Bool := -0x8000000000000000 ≤ n && n < 0x10000000000000000

/-- The data of a document. -/
inductive Node where
  | scalar (value : Scalar)
  | sequence (items : List Node)
  | mapping (entries : List (Node × Node))
  /-- data under a tag of the document's own -/
  | tagged (tag : String) (content : Node)

namespace Node

def null : Node := scalar .null

instance : Inhabited Node := ⟨null⟩

def text (s : String) : Node := scalar (.text s)

def bool (b : Bool) : Node := scalar (.bool b)

def fields (entries : List (String × Node)) : Node :=
  mapping (entries.map fun entry => (text entry.1, entry.2))

def text? : Node → Option String
  | scalar (.text s) => some s
  | _ => none

def numberText : Scalar → String
  | .integer n => toString n
  | .float x => x.scientific false ".nan" ".inf"
  | _ => ""

mutual

/-- The data spelled out with the names of their kinds, for messages. -/
def described : Node → String
  | scalar .null => "Null"
  | scalar (.bool b) => "Bool(" ++ toString b ++ ")"
  | scalar (.text s) => "String(" ++ Text.quoted s ++ ")"
  | scalar value => "Number(" ++ numberText value ++ ")"
  | sequence items => "Sequence [" ++ describedItems items ++ "]"
  | mapping entries => "Mapping \x7b" ++ describedEntries entries ++ "\x7d"
  | tagged tag content =>
    "TaggedValue \x7b tag: !" ++ tag ++ ", value: " ++ content.described ++ " \x7d"
termination_by structural n => n

def describedItems : List Node → String
  | [] => ""
  | [item] => item.described
  | item :: next :: rest => item.described ++ ", " ++ describedItems (next :: rest)
termination_by structural n => n

/-- The entries of a mapping spelled out; single data as keys stand without the name of their
kind. -/
def describedEntries : List (Node × Node) → String
  | [] => ""
  | [(key, value)] => describedKey key ++ ": " ++ value.described
  | (key, value) :: next :: rest =>
    describedKey key ++ ": " ++ value.described ++ ", " ++ describedEntries (next :: rest)
termination_by structural n => n

/-- A key spelled out. -/
def describedKey : Node → String
  | scalar .null => "Null"
  | scalar (.bool b) => toString b
  | scalar (.text s) => Text.quoted s
  | scalar value => numberText value
  | sequence items => "Sequence [" ++ describedItems items ++ "]"
  | mapping entries => "Mapping \x7b" ++ describedEntries entries ++ "\x7d"
  | tagged tag content =>
    "TaggedValue \x7b tag: !" ++ tag ++ ", value: " ++ content.described ++ " \x7d"
termination_by structural n => n

end

mutual

/-- Whether two data are the same as keys: the order of a mapping does not count. -/
def same : Node → Node → Bool
  | scalar a, scalar b => a.same b
  | sequence a, sequence b => itemsSame a b
  | mapping a, mapping b => a.length = b.length && entriesWithin a b
  | tagged s a, tagged t b => s = t && a.same b
  | _, _ => false
termination_by structural n => n

def itemsSame : List Node → List Node → Bool
  | [], [] => true
  | a :: as, b :: bs => a.same b && itemsSame as bs
  | _, _ => false
termination_by structural n => n

/-- Whether every entry has its like among some others. -/
def entriesWithin : List (Node × Node) → List (Node × Node) → Bool
  | [], _ => true
  | (key, value) :: rest, others =>
    others.any (fun other => key.same other.1 && value.same other.2) && entriesWithin rest others
termination_by structural n => n

end

/-- Whether no two entries have the same key. -/
def keysDiffer : List (Node × Node) → Bool
  | [] => true
  | (key, _) :: rest => !rest.any (key.same ·.1) && keysDiffer rest

mutual

def isSound : Node → Bool
  | scalar _ => true
  | sequence items => itemsSound items
  | mapping entries => keysDiffer entries && entriesSound entries
  | tagged _ content => content.isSound
termination_by structural n => n

/-- Whether the items of a sequence are sound. -/
def itemsSound : List Node → Bool
  | [] => true
  | item :: rest => item.isSound && itemsSound rest
termination_by structural n => n

def entriesSound : List (Node × Node) → Bool
  | [] => true
  | (key, value) :: rest => key.isSound && value.isSound && entriesSound rest
termination_by structural n => n

end

mutual

def hasTag : Node → Bool
  | scalar _ => false
  | sequence items => itemsTagged items
  | mapping entries => entriesTagged entries
  | tagged _ _ => true
termination_by structural n => n

def itemsTagged : List Node → Bool
  | [] => false
  | item :: rest => item.hasTag || itemsTagged rest
termination_by structural n => n

def entriesTagged : List (Node × Node) → Bool
  | [] => false
  | (key, value) :: rest => key.hasTag || value.hasTag || entriesTagged rest
termination_by structural n => n

end

end Node

end ClusterBlueprint
