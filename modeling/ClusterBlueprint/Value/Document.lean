import ClusterBlueprint.Document.Node
import ClusterBlueprint.Literal

/-!
Values as the data of documents.

Reading interprets every text by `Literal.read`; writing escapes plain texts and puts expressions
between double parentheses, so what is written reads back.  Whole numbers below 10 ^ 15 are written
as integers.
-/

namespace ClusterBlueprint.Value

mutual

/-- The value that some data stand for. -/
def ofNode : Node → Checked Value
  | .scalar .null => .ok null
  | .scalar (.bool b) => .ok (bool b)
  | .scalar (.integer n) => .ok (number (.ofInt n))
  | .scalar (.float x) => .ok (number x)
  | .scalar (.text s) => Literal.read s
  | .sequence items => do return list (← ofItems items)
  | .mapping entries => do return object (← ofEntries [] entries)
  | .tagged _ content => ofNode content
termination_by structural n => n

def ofItems : List Node → Checked (List Value)
  | [] => .ok []
  | item :: rest => do
    let value ← ofNode item
    return value :: (← ofItems rest)
termination_by structural n => n

/-- The fields so far and those that the entries of a mapping stand for, later ones over earlier
ones. -/
def ofEntries (fields : Fields Value) : List (Node × Node) → Checked (Fields Value)
  | [] => .ok fields
  | (.scalar (.text name), node) :: rest => do
    let value ← ofNode node
    ofEntries (fields.put name value) rest
  | (key, _) :: _ =>
    .error (Cause.type ("object keys must be strings, got " ++ key.described))
termination_by structural n => n

end

/-- The datum that a number is written as. -/
def numberScalar (x : Number) : Scalar :=
  match x.shortInt? with
  | some n => .integer n
  | none => .float x

mutual

def toNode : Value → Node
  | null => .null
  | bool b => .bool b
  | number x => .scalar (numberScalar x)
  | string s => .text (Literal.escape s)
  | list items => .sequence (toNodes items)
  | object fields => .mapping (toEntries fields)
  | expression e => .text ("((" ++ e.text ++ "))")
termination_by structural v => v

def toNodes : List Value → List Node
  | [] => []
  | item :: rest => item.toNode :: toNodes rest
termination_by structural v => v

def toEntries : List (String × Value) → List (Node × Node)
  | [] => []
  | (name, value) :: rest => (.text name, value.toNode) :: toEntries rest
termination_by structural v => v

end

end ClusterBlueprint.Value
