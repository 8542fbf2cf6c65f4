import ClusterBlueprint.Document.Node

/-!
Documents in JSON.

Texts are escaped only where JSON asks for it.  A number that is no finite number is written as
null, and other fractions by their shortest digits.
-/

namespace ClusterBlueprint.Json

def fourDigits (n : Nat) : List Char :=
  let digits := Nat.toDigits 16 n
  List.replicate (4 - digits.length) '0' ++ digits

/-- One character inside a text. -/
def escapeChar (c : Char) : List Char :=
  match c with
  | '"' => ['\\', '"']
  | '\\' => ['\\', '\\']
  | '\n' => ['\\', 'n']
  | '\r' => ['\\', 'r']
  | '\t' => ['\\', 't']
  | '\x08' => ['\\', 'b']
  | '\x0c' => ['\\', 'f']
  | c => if c.toNat < 32 then ['\\', 'u'] ++ fourDigits c.toNat else [c]

def textLiteral (s : String) : String :=
  "\"" ++ String.ofList (s.toList.flatMap escapeChar) ++ "\""

def scalar : Scalar → String
  | .null => "null"
  | .bool value => if value then "true" else "false"
  | .integer n => toString n
  | .float x => if x.isFinite then x.scientific true "" "" else "null"
  | .text s => textLiteral s

/-- How a key is written: always as a text. -/
def key : Node → String
  | .scalar (.text s) => textLiteral s
  | node => textLiteral node.described

mutual

/-- The data on one line, without blanks. -/
def compact : Node → String
  | .scalar value => scalar value
  | .sequence items => "[" ++ compactItems items ++ "]"
  | .mapping entries => "\x7b" ++ compactEntries entries ++ "\x7d"
  | .tagged _ content => compact content
termination_by structural n => n

def compactItems : List Node → String
  | [] => ""
  | [item] => compact item
  | item :: next :: rest => compact item ++ "," ++ compactItems (next :: rest)
termination_by structural n => n

def compactEntries : List (Node × Node) → String
  | [] => ""
  | [(k, value)] => key k ++ ":" ++ compact value
  | (k, value) :: next :: rest =>
    key k ++ ":" ++ compact value ++ "," ++ compactEntries (next :: rest)
termination_by structural n => n

end

def newline (depth : Nat) : String := "\n" ++ String.ofList (List.replicate (2 * depth) ' ')

mutual

/-- The data with one item or entry a line, two blanks deeper than what holds it. -/
def pretty (depth : Nat) : Node → String
  | .scalar value => scalar value
  | .sequence [] => "[]"
  | .sequence items => "[" ++ prettyItems (depth + 1) items ++ newline depth ++ "]"
  | .mapping [] => "\x7b\x7d"
  | .mapping entries => "\x7b" ++ prettyEntries (depth + 1) entries ++ newline depth ++ "\x7d"
  | .tagged _ content => pretty depth content
termination_by structural n => n

def prettyItems (depth : Nat) : List Node → String
  | [] => ""
  | [item] => newline depth ++ pretty depth item
  | item :: next :: rest =>
    newline depth ++ pretty depth item ++ "," ++ prettyItems depth (next :: rest)
termination_by structural n => n

def prettyEntries (depth : Nat) : List (Node × Node) → String
  | [] => ""
  | [(k, value)] => newline depth ++ key k ++ ": " ++ pretty depth value
  | (k, value) :: next :: rest =>
    newline depth ++ key k ++ ": " ++ pretty depth value ++ "," ++
      prettyEntries depth (next :: rest)
termination_by structural n => n

end

/-- A document with indented lines. -/
def document (node : Node) : String := pretty 0 node

end ClusterBlueprint.Json
