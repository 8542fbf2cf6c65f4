import ClusterBlueprint.Document.Node
import ClusterBlueprint.Yaml.Scalar
import ClusterBlueprint.Yaml.Tag

/-!
The data of a YAML document, with their tags and the style of their scalars.

What a scalar stands for hangs on what is wanted: where a text is wanted every scalar is one.
`Datum.node?` says what the data stand for where nothing special is wanted.
-/

namespace ClusterBlueprint.Yaml

/-- The data of a YAML document. -/
inductive Datum where
  | scalar (tag : Option Tag) (style : Style) (text : String)
  | sequence (tag : Option Tag) (items : List Datum)
  | mapping (tag : Option Tag) (entries : List (Datum × Datum))

/-- An integer that fits 64 bits. -/
def integerNode? (n : Int) : Option Node := if fitsWord n then some (.scalar (.integer n)) else none

/-- What a scalar without a tag stands for. -/
def untaggedNode? (style : Style) (text : String) : Option Node :=
  if style ≠ .plain then some (.text text)
  else
    match plainScalar text with
    | .integer n => integerNode? n
    | value => some (.scalar value)

/-- What a scalar stands for, if its tag allows the text. -/
def scalarNode? (tag : Option Tag) (style : Style) (text : String) : Option Node :=
  match tag with
  | none => untaggedNode? style text
  | some .bool => (bool? text).map .bool
  | some .integer => (integer? text.toList).bind integerNode?
  | some .float => (float? text.toList).map (.scalar ∘ .float)
  | some .null => if nullWords.contains text then some .null else none
  | some (.own name) => (untaggedNode? style text).map (.tagged (unmarked name))
  | some .unreadable => untaggedNode? style text
  | some .foreign => some (.text text)

/-- Data under their tag, if it is one of the document's own. -/
def underTag (tag : Option Tag) (node : Node) : Node :=
  match tag with
  | some (.own name) => .tagged (unmarked name) node
  | _ => node

namespace Datum

mutual

def node? : Datum → Option Node
  | scalar tag style text => scalarNode? tag style text
  | sequence tag items => do return underTag tag (.sequence (← items? items))
  | mapping tag entries => do return underTag tag (.mapping (← entries? entries))
termination_by structural d => d

def items? : List Datum → Option (List Node)
  | [] => some []
  | item :: rest => do
    let item ← item.node?
    return item :: (← items? rest)
termination_by structural d => d

def entries? : List (Datum × Datum) → Option (List (Node × Node))
  | [] => some []
  | (key, value) :: rest => do
    let key ← key.node?
    let value ← value.node?
    return (key, value) :: (← entries? rest)
termination_by structural d => d

end

def text? : Datum → Option String
  | scalar _ _ text => some text
  | _ => none

def isBlank : Datum → Bool
  | scalar _ .plain text => text.isEmpty
  | _ => false

/-- Whether this is written as nothing or null, whatever its tag. -/
def isVoid : Datum → Bool
  | scalar _ .plain text => text.isEmpty || nullWords.contains text
  | _ => false

/-- The truth value: tags count only for literal scalars. -/
def bool? : Datum → Option Bool
  | scalar _ .plain text => Yaml.bool? text
  | scalar (some .bool) .literal text => Yaml.bool? text
  | _ => none

/-- The data themselves, unless they say that there is nothing.  Under a tag nothing but null is
nothing. -/
def present? (data : Datum) : Option (Option Datum) :=
  match data with
  | scalar (some .null) .plain text => if nullWords.contains text then some none else none
  | scalar none _ _ => some (if data.isVoid then none else some data)
  | _ => some (some data)

/-- The name of a case: a scalar, or a tag before nothing. -/
def variant? (data : Datum) : Option String :=
  match data with
  | scalar (some (.own name)) _ _ => if data.isVoid then some name else none
  | scalar _ _ text => some text
  | _ => none

end Datum

end ClusterBlueprint.Yaml
