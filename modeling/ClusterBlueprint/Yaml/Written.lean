import ClusterBlueprint.Yaml.Datum

/-!
YAML data as they are written, with anchors and aliases.

An anchor marks data, and an alias stands for the data that its anchor marks last in the whole
document.  These may hold the alias itself, so expanding is bounded twice: by the depth of
collections, and by the number of aliases that are followed.
-/

namespace ClusterBlueprint.Yaml

/-- Data as they are written.  Anchors are numbers here. -/
inductive Written where
  | aliasOf (anchor : Nat)
  | scalar (anchor : Option Nat) (tag : Option Tag) (style : Style) (text : String)
  | sequence (anchor : Option Nat) (tag : Option Tag) (items : List Written)
  | mapping (anchor : Option Nat) (tag : Option Tag) (entries : List (Written × Written))

namespace Written

def empty : Written := scalar none none .plain ""

/-- Marked data, with more in front of them if those have an anchor. -/
def mark (anchor : Option Nat) (data : Written) (marked : List (Nat × Written)) :
    List (Nat × Written) :=
  match anchor with
  | some anchor => (anchor, data) :: marked
  | none => marked

mutual

/-- The data with anchors, under them, in the order in which they start. -/
def marked : Written → List (Nat × Written)
  | aliasOf _ => []
  | scalar anchor tag style text => mark anchor (scalar anchor tag style text) []
  | sequence anchor tag items => mark anchor (sequence anchor tag items) (itemsMarked items)
  | mapping anchor tag entries => mark anchor (mapping anchor tag entries) (entriesMarked entries)
termination_by structural w => w

def itemsMarked : List Written → List (Nat × Written)
  | [] => []
  | item :: rest => item.marked ++ itemsMarked rest
termination_by structural w => w

def entriesMarked : List (Written × Written) → List (Nat × Written)
  | [] => []
  | (key, value) :: rest => key.marked ++ value.marked ++ entriesMarked rest
termination_by structural w => w

end

mutual

/-- The number of scalars and aliases, and of starts and ends of collections. -/
def size : Written → Nat
  | aliasOf _ => 1
  | scalar _ _ _ _ => 1
  | sequence _ _ items => itemsSize items + 2
  | mapping _ _ entries => entriesSize entries + 2
termination_by structural w => w

def itemsSize : List Written → Nat
  | [] => 0
  | item :: rest => item.size + itemsSize rest
termination_by structural w => w

def entriesSize : List (Written × Written) → Nat
  | [] => 0
  | (key, value) :: rest => key.size + value.size + entriesSize rest
termination_by structural w => w

end

/-! ## Aliases -/

/-- Expanding, which may fail; the state is the number of aliases that may still be followed. -/
abbrev Expanding (α : Type) := StateT Nat Option α

/-- The data that some data stand for: an alias is followed. -/
def follow (marked : List (Nat × Written)) (data : Written) : Expanding Written := do
  match data with
  | aliasOf anchor => do
    match ← get with
    | 0 => failure
    | n + 1 => do
      set n
      match marked.lookup anchor with
      | some target => return target
      | none => failure
  | data => return data

def isAlias : Written → Bool
  | aliasOf _ => true
  | _ => false

def isOwn : Option Tag → Bool
  | some (.own _) => true
  | _ => false

/-- The data with aliases expanded, where `depth` collections may still stand within each other.
The tag of bare data is dropped.  Bare are the keys of a mapping under a tag of the document's own,
and the keys of a bare mapping, but no alias. -/
def expand (marked : List (Nat × Written)) : Nat → Bool → Written → Expanding Datum
  | depth, bare, data => do
    let bare := bare && !data.isAlias
    let shown (tag : Option Tag) := if bare then none else tag
    match ← follow marked data, depth with
    | aliasOf _, _ => failure
    | scalar _ tag style text, _ => return .scalar (shown tag) style text
    | sequence _ tag items, depth + 1 => do
      return .sequence (shown tag) (← items.mapM (expand marked depth false))
    | mapping _ tag entries, depth + 1 => do
      return .mapping (shown tag) (← entries.mapM fun (key, value) => do
        let key ← expand marked depth (bare || isOwn tag) key
        return (key, ← expand marked depth false value))
    | _, 0 => failure

/-- The number of collections that may stand within each other. -/
def deepest : Nat := 128

/-- The number of aliases that may be followed for every scalar, alias, start and end. -/
def repetitions : Nat := 100

/-- The data of a document, if they end. -/
def datum? (data : Written) : Option Datum :=
  ((expand data.marked.reverse deepest false data).run (repetitions * data.size)).map Prod.fst

end Written

end ClusterBlueprint.Yaml
