import ClusterBlueprint.Yaml.Lexer
import ClusterBlueprint.Yaml.Scalar

/-!
Writing documents in YAML.

Collections are written as blocks, two blanks deeper than what holds them, except that a sequence
under a key is not indented and that empty collections stand in brackets.  A text is written in the
plainest form that reads back as the same text.
-/

namespace ClusterBlueprint.Yaml

/-! ## Texts -/

/-- Whether a text stands for something else where it is plain, or looks like a number. -/
def isAmbiguous (text : String) : Bool :=
  hasLeadingZero text.toList || plainScalar text ≠ .text text

def isBreak (c : Char) : Bool :=
  c = '\n' || c = '\r' || c = '\u0085' || c = '\u2028' || c = '\u2029'

def isPrintable (c : Char) : Bool :=
  c = '\n' || (0x20 ≤ c.toNat && c.toNat ≤ 0x7E)
    || (0xA0 ≤ c.toNat && c.toNat ≠ 0xFEFF && c.toNat ≠ 0xFFFE && c.toNat ≠ 0xFFFF)

/-- Whether the input ends or goes on with a blank or a break. -/
def beforeGap : List Char → Bool
  | [] => true
  | c :: _ => Lexer.isBlank c || isBreak c

/-- The characters that mean something at the start of a scalar. -/
def leadingMarks : List Char :=
  ['#', ',', '[', ']', '{', '}', '&', '*', '!', '|', '>', '\'', '"', '%', '@', '`']

/-- Whether the first character, or a mark of a document, keeps a text from being plain. -/
def startsMarked (text : List Char) : Bool :=
  match text with
  | '-' :: '-' :: '-' :: _ => true
  | '.' :: '.' :: '.' :: _ => true
  | c :: rest =>
    leadingMarks.contains c || ((c = '?' || c = ':' || c = '-') && beforeGap rest)
  | [] => false

/-- Whether a colon before a gap or a number sign after one stands in the characters after
`last`. -/
def hasInnerMark (last : Char) : List Char → Bool
  | [] => false
  | c :: rest =>
    (c = ':' && beforeGap rest) || (c = '#' && (Lexer.isBlank last || isBreak last))
      || hasInnerMark c rest

/-- Whether two characters follow each other. -/
def hasPair (first second : Char → Bool) : List Char → Bool
  | a :: b :: rest => (first a && second b) || hasPair first second (b :: rest)
  | _ => false

def hasBlankBreak (text : List Char) : Bool := hasPair (· = ' ') isBreak text

def needsEscapes (text : List Char) : Bool :=
  hasBlankBreak text || !text.all isPrintable

def hasLooseEnd (text : List Char) : Bool :=
  let loose (c : Char) := c = ' ' || isBreak c
  text.head?.any loose || text.getLast?.any loose

def allowsPlain (text : List Char) : Bool :=
  match text with
  | [] => false
  | c :: rest =>
    !startsMarked text && !hasInnerMark c rest && !hasLooseEnd text && !text.any isBreak
      && !needsEscapes text

def allowsSingle (text : List Char) : Bool := !hasPair isBreak (· = ' ') text && !needsEscapes text

def allowsLiteral (text : List Char) : Bool := text.getLast? ≠ some ' ' && !needsEscapes text

/-- A hexadecimal number with a number of digits. -/
def hexDigits (count n : Nat) : List Char :=
  let digits := (Nat.toDigits 16 n).map Char.toUpper
  List.replicate (count - digits.length) '0' ++ digits

def escapeChar (c : Char) : List Char :=
  match c with
  | '\x00' => ['\\', '0']
  | '\x07' => ['\\', 'a']
  | '\x08' => ['\\', 'b']
  | '\t' => ['\\', 't']
  | '\n' => ['\\', 'n']
  | '\x0b' => ['\\', 'v']
  | '\x0c' => ['\\', 'f']
  | '\r' => ['\\', 'r']
  | '\x1b' => ['\\', 'e']
  | '"' => ['\\', '"']
  | '\\' => ['\\', '\\']
  | '\u0085' => ['\\', 'N']
  | '\u2028' => ['\\', 'L']
  | '\u2029' => ['\\', 'P']
  | c =>
    if isPrintable c then [c]
    else if c.toNat < 0x100 then '\\' :: 'x' :: hexDigits 2 c.toNat
    else if c.toNat < 0x10000 then '\\' :: 'u' :: hexDigits 4 c.toNat
    else '\\' :: 'U' :: hexDigits 8 c.toNat

def doubleQuoted (text : List Char) : String :=
  "\"" ++ String.ofList (text.flatMap escapeChar) ++ "\""

def blanks (n : Nat) : List Char := List.replicate n ' '

/-- Characters with every line indented that is not empty.  `broken` says whether they start a
line. -/
def indentLines (indent : Nat) (broken : Bool) : List Char → List Char
  | [] => []
  | c :: rest =>
    if isBreak c then c :: indentLines indent true rest
    else (if broken then blanks indent else []) ++ c :: indentLines indent false rest

def endsLine (text : List Char) : Bool := text.getLast?.any isBreak

/-- A text in single quotes, where a quote is written twice.  Its lines go on indented. -/
def singleQuoted (indent : Nat) (text : List Char) : String :=
  let chars := text.flatMap fun c => if c = '\'' then ['\'', '\''] else [c]
  let last := if endsLine text then blanks indent else []
  "'" ++ String.ofList (indentLines indent false chars ++ last) ++ "'"

def inlineText (indent : Nat) (text : String) : String :=
  let chars := text.toList
  if !isAmbiguous text && allowsPlain chars then text
  else if allowsSingle chars then singleQuoted indent chars
  else doubleQuoted chars

def chompingMark (text : List Char) : String :=
  match text.reverse with
  | [] => "-"
  | [c] => if isBreak c then "+" else "-"
  | c :: d :: _ => if !isBreak c then "-" else if isBreak d then "+" else ""

/-- A text as lines of its own, behind their mark.  The mark says how they are indented if the first
of them does not show it. -/
def literal (indent : Nat) (text : List Char) : String :=
  let indentMark := if text.head?.any (fun c => c = ' ' || isBreak c) then "2" else ""
  "|" ++ indentMark ++ chompingMark text ++ "\n" ++ String.ofList (indentLines indent true text)

/-- A text whose lines go on indented.  One with newlines is written literally if it can be. -/
def textIn (indent : Nat) (text : String) : String :=
  let chars := text.toList
  if chars.contains '\n' then
    if allowsLiteral chars then literal indent chars else doubleQuoted chars
  else inlineText indent text

/-! ## Documents -/

def scalarIn (indent : Nat) : Scalar → String
  | .null => "null"
  | .bool value => if value then "true" else "false"
  | .integer n => toString n
  | .float x => x.scientific false ".nan" ".inf"
  | .text s => textIn indent s

/-- The number of bytes that a key on the line of its value may have. -/
def longestInlineKey : Nat := 128

/-- Whether a key can stand on the line of its value. -/
def isInlineKey : Scalar → Bool
  | .text s => !s.toList.any isBreak && s.utf8ByteSize ≤ longestInlineKey
  | _ => true

def lineIn (indent : Nat) (line : String) : String := String.ofList (blanks indent) ++ line

/-- Lines of which the first goes on behind a mark. -/
def behind (mark : String) : List String → List String
  | [] => [mark]
  | first :: rest => (mark ++ " " ++ first) :: rest

/-- Lines of which the first is indented like the others. -/
def below (indent : Nat) : List String → List String
  | [] => []
  | first :: rest => lineIn indent first :: rest

/-- The lines of several data one after the other.  The first goes on with the line before. -/
def stacked (indent : Nat) : List (List String) → List String
  | [] => []
  | first :: rest => first ++ rest.flatMap (below indent)

/-- How much deeper than its key the value of an entry is on lines of its own, if it is there. -/
def nesting? : Node → Option Nat
  | .sequence (_ :: _) => some 0
  | .mapping (_ :: _) => some 2
  | _ => none

def keyScalar : Node → Scalar
  | .scalar value => value
  | _ => .null

mutual

/-- The lines of some data that are indented.  The first goes on with the line before. -/
def lines (indent : Nat) : Node → List String
  | .scalar value => [scalarIn indent value]
  | .sequence [] => ["[]"]
  | .sequence items => stacked indent (itemsLines indent items)
  | .mapping [] => ["\x7b\x7d"]
  | .mapping entries => stacked indent (entriesLines indent entries)
  | .tagged _ content => lines indent content
termination_by structural n => n

def itemsLines (indent : Nat) : List Node → List (List String)
  | [] => []
  | item :: rest => behind "-" (lines (indent + 2) item) :: itemsLines indent rest
termination_by structural n => n

def entriesLines (indent : Nat) : List (Node × Node) → List (List String)
  | [] => []
  | (key, value) :: rest =>
    let key := keyScalar key
    let entry :=
      if isInlineKey key then
        let mark := scalarIn (indent + 2) key ++ ":"
        match nesting? value with
        | some n => mark :: below (indent + n) (lines (indent + n) value)
        | none => behind mark (lines (indent + 2) value)
      else
        ("? " ++ scalarIn (indent + 2) key) ::
          below indent (behind ":" (lines (indent + 2) value))
    entry :: entriesLines indent rest
termination_by structural n => n

end

/-- A line with its end, unless it has one. -/
def closed (line : String) : String := if endsLine line.toList then line else line ++ "\n"

def document (node : Node) : String := String.join ((lines 0 node).map closed)

end ClusterBlueprint.Yaml
