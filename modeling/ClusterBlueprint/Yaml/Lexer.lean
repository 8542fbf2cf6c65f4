import ClusterBlueprint.Document.Json.Reader
import ClusterBlueprint.Yaml.Token

/-!
Splitting YAML into tokens.

Whether a token is a key shows only at the colon after it.  So every token that may be a key leaves
an empty slot before itself, and the colon fills the slot of the latest one.  The slots of the
enclosing flow collections are kept on a stack.
-/

namespace ClusterBlueprint.Yaml.Lexer

/-! ## Characters -/

def isBlank (c : Char) : Bool := c = ' ' || c = '\t'

/-- Whether a character ends a line.  Of the breaks that mean no more than a new line only newlines
are left. -/
def isBreak (c : Char) : Bool := c = '\n' || c = '\u2028' || c = '\u2029'

/-- Whether the input ends or goes on with a blank or a break. -/
def atGap : List Char → Bool
  | [] => true
  | c :: _ => isBlank c || isBreak c

/-- Whether a character may stand in a document. -/
def isAllowed (c : Char) : Bool :=
  c = '\t' || c = '\n' || c = '\r' || (0x20 ≤ c.toNat && c.toNat ≤ 0x7E) || c.toNat = 0x85
    || (0xA0 ≤ c.toNat && c.toNat ≠ 0xFFFE && c.toNat ≠ 0xFFFF)

/-- The characters with a newline for every break that is no line or paragraph separator. -/
def normalizeBreaks : List Char → List Char
  | '\r' :: '\n' :: rest => '\n' :: normalizeBreaks rest
  | '\r' :: rest => '\n' :: normalizeBreaks rest
  | '\u0085' :: rest => '\n' :: normalizeBreaks rest
  | c :: rest => c :: normalizeBreaks rest
  | [] => []

/-- Whether a line starts with the mark of a document's start or end. -/
def atDocumentMark (line : List Char) : Bool :=
  match line with
  | '-' :: '-' :: '-' :: rest => atGap rest
  | '.' :: '.' :: '.' :: rest => atGap rest
  | _ => false

def isNameChar (c : Char) : Bool := c.isAlphanum || c = '-' || c = '_'

/-! ## Gaps in scalars -/

/-- Line breaks, last first, as they are folded where lines are joined: a newline alone is a blank,
and before further breaks it is dropped.  Where a separator comes first all breaks stay. -/
def foldBreaks (breaks : List Char) : List Char :=
  match breaks with
  | ['\n'] => [' ']
  | breaks => if breaks.getLast? = some '\n' then breaks.dropLast else breaks

/-- Blanks and line breaks between the words of a scalar. -/
structure Gap where
  /-- the blanks before the first break, last first -/
  blanks : List Char := []
  /-- the line breaks, last first -/
  breaks : List Char := []
  /-- the column that was reached after the last break -/
  column : Nat := 0

namespace Gap

def isBroken (gap : Gap) : Bool := !gap.breaks.isEmpty

def isEmpty (gap : Gap) : Bool := gap.blanks.isEmpty && !gap.isBroken

def blank (gap : Gap) (c : Char) : Gap :=
  { gap with
    blanks := if gap.isBroken then gap.blanks else c :: gap.blanks
    column := gap.column + 1 }

/-- The gap with one more line break. -/
def newline (gap : Gap) (c : Char) : Gap := { gap with breaks := c :: gap.breaks, column := 0 }

/-- What a gap is folded to, last character first: its blanks, or its breaks if there are any. -/
def folded (gap : Gap) : List Char := if gap.isBroken then foldBreaks gap.breaks else gap.blanks

end Gap

/-- A scalar and what follows it. -/
structure Scanned where
  text : String
  rest : List Char
  /-- whether the scalar was followed by a line break -/
  broken : Bool := false

/-- A scalar by its characters, last first. -/
def Scanned.ofReversed (text rest : List Char) (broken : Bool) : Scanned :=
  ⟨String.ofList text.reverse, rest, broken⟩

/-! ## Plain scalars -/

/-- Whether a character ends a plain scalar in a flow collection. -/
def isFlowMark (c : Char) : Bool := [',', '[', ']', '{', '}'].contains c

/-- The rest of a plain scalar, which goes on while lines are indented by `indent` or more.  The
characters so far are `text`, last first, and after them came `gap`. -/
def plainFrom (flow : Bool) (indent : Nat) (text : List Char) (gap : Gap) :
    List Char → Option Scanned
  | [] => some (.ofReversed text [] gap.isBroken)
  | c :: rest =>
    let stopped := some (.ofReversed text (c :: rest) gap.isBroken)
    if isBlank c then
      if gap.isBroken && gap.column < indent && c = '\t' then none
      else plainFrom flow indent text (gap.blank c) rest
    else if isBreak c then plainFrom flow indent text (gap.newline c) rest
    else if gap.isBroken && !flow && gap.column < indent then stopped
    else if gap.isBroken && gap.column = 0 && atDocumentMark (c :: rest) then stopped
    else if c = '#' && !gap.isEmpty then stopped
    else if c = ':' && flow && rest.head?.any (fun d => isFlowMark d || d = '?') then none
    else if c = ':' && atGap rest then stopped
    else if flow && isFlowMark c then stopped
    else plainFrom flow indent (c :: (gap.folded ++ text)) {} rest

/-! ## Quoted scalars -/

def unescape? : Char → Option Char
  | '0' => some '\x00'
  | 'a' => some '\x07'
  | 'b' => some '\x08'
  | 't' => some '\t'
  | '\t' => some '\t'
  | 'n' => some '\n'
  | 'v' => some '\x0b'
  | 'f' => some '\x0c'
  | 'r' => some '\r'
  | 'e' => some '\x1b'
  | ' ' => some ' '
  | '"' => some '"'
  | '/' => some '/'
  | '\\' => some '\\'
  | 'N' => some '\u0085'
  | '_' => some '\u00a0'
  | 'L' => some '\u2028'
  | 'P' => some '\u2029'
  | _ => none

/-- The number of hexadecimal digits after a letter after a backslash. -/
def codeLength? : Char → Option Nat
  | 'x' => some 2
  | 'u' => some 4
  | 'U' => some 8
  | _ => none

/-- What a gap within quotes is folded to, last character first.  After an escaped break, which
counts for nothing, further breaks stay. -/
def quotedGap (escaped : Bool) (gap : Gap) : List Char :=
  if escaped then gap.breaks else gap.folded

/-- A scalar in single quotes, after the opening one. -/
def singleFrom (text : List Char) (gap : Gap) : List Char → Option Scanned
  | [] => none
  | c :: rest =>
    if gap.isBroken && gap.column = 0 && atDocumentMark (c :: rest) then none
    else if isBlank c then singleFrom text (gap.blank c) rest
    else if isBreak c then singleFrom text (gap.newline c) rest
    else if c = '\'' then
      match rest with
      | '\'' :: rest => singleFrom ('\'' :: (gap.folded ++ text)) {} rest
      | rest => some (.ofReversed (gap.folded ++ text) rest false)
    else singleFrom (c :: (gap.folded ++ text)) {} rest

/-- A scalar in double quotes, after the opening one.  After an escaped line break `escaped` holds,
and the blanks that start the next line are dropped.  At most `n` characters are read. -/
def doubleFrom : Nat → List Char → Bool → Gap → List Char → Option Scanned
  | 0, _, _, _, _ => none
  | _, _, _, _, [] => none
  | n + 1, text, escaped, gap, c :: rest =>
    let before := quotedGap escaped gap ++ text
    if (escaped || gap.isBroken) && gap.column = 0 && atDocumentMark (c :: rest) then none
    else if isBlank c then
      doubleFrom n text escaped
        (if escaped then { gap with column := gap.column + 1 } else gap.blank c) rest
    else if isBreak c then doubleFrom n text escaped (gap.newline c) rest
    else if c = '"' then some (.ofReversed before rest false)
    else if c = '\\' then
      match rest with
      | letter :: rest =>
        if isBreak letter then doubleFrom n before true {} rest
        else match codeLength? letter with
          | some length => do
            let code ← Json.hexNumber? (rest.take length)
            if rest.length < length then none
            let d ← Json.char? code
            doubleFrom n (d :: before) false {} (rest.drop length)
          | none => do doubleFrom n ((← unescape? letter) :: before) false {} rest
      | [] => none
    else doubleFrom n (c :: before) false {} rest

/-! ## Block scalars -/

/-- What becomes of the line breaks at the end of a block scalar. -/
inductive Chomping where
  | strip | clip | keep
deriving DecidableEq

/-- The header of a block scalar: how it ends, and how much it is indented if that is written. -/
structure Header where
  chomping : Chomping := .clip
  increment : Option Nat := none

def chomping? : Char → Option Chomping
  | '-' => some .strip
  | '+' => some .keep
  | _ => none

def increment? (c : Char) : Option Nat :=
  if c.isDigit && c ≠ '0' then some (c.toNat - '0'.toNat) else none

/-- The header of a block scalar and what follows. -/
def header (input : List Char) : Option (Header × List Char) :=
  match input with
  | c :: rest =>
    match chomping? c with
    | some chomping =>
      match rest with
      | d :: after =>
        match increment? d with
        | some increment => some (⟨chomping, some increment⟩, after)
        | none => if d = '0' then none else some (⟨chomping, none⟩, rest)
      | [] => some (⟨chomping, none⟩, rest)
    | none =>
      match increment? c with
      | some increment =>
        match rest with
        | d :: after =>
          match chomping? d with
          | some chomping => some (⟨chomping, some increment⟩, after)
          | none => some (⟨.clip, some increment⟩, rest)
        | [] => some (⟨.clip, some increment⟩, rest)
      | none => if c = '0' then none else some ({}, input)
  | [] => some ({}, input)

/-- What follows the line of a header, which may end with blanks and a comment. -/
def afterHeader (input : List Char) : Option (List Char) :=
  let rest := input.dropWhile isBlank
  let rest := match rest with
    | '#' :: _ => rest.dropWhile (!isBreak ·)
    | rest => rest
  match rest with
  | [] => some []
  | c :: rest => if isBreak c then some rest else none

/-- Lines without content, and the blanks that start the next one. -/
structure Indentation where
  /-- the line breaks, last first -/
  breaks : List Char
  /-- the column that was reached -/
  column : Nat
  /-- the greatest column of all these lines -/
  deepest : Nat
  rest : List Char

/-- Lines without content up to a line that has some.  Blanks up to the column `limit` are
indentation. -/
def indentation (limit : Option Nat) (breaks : List Char) (column deepest : Nat) :
    List Char → Option Indentation
  | [] => some ⟨breaks, column, max deepest column, []⟩
  | c :: rest =>
    let inside := limit.all (column < ·)
    if c = ' ' && inside then indentation limit breaks (column + 1) deepest rest
    else if c = '\t' && inside then none
    else if isBreak c then indentation limit (c :: breaks) 0 (max deepest column) rest
    else some ⟨breaks, column, max deepest column, c :: rest⟩

/-- The content of a block scalar before its last line break. -/
structure Content where
  /-- last character first -/
  text : List Char
  /-- the line break after the content, if there is one -/
  ending : Option Char
  /-- the line breaks after that one, last first -/
  breaks : List Char
  rest : List Char

/-- The lines of a block scalar, `n` of them at most.  `ending` is the break after the line before,
if there was one, and `wasBlank` says that it started with a blank; folding leaves the breaks around
such lines. -/
def contentFrom (folded : Bool) (indent : Nat) :
    Nat → List Char → Option Char → Bool → Indentation → Option Content
  | 0, text, ending, _, lead => some ⟨text, ending, lead.breaks, lead.rest⟩
  | n + 1, text, ending, wasBlank, lead =>
    if lead.column ≠ indent || lead.rest.isEmpty then
      some ⟨text, ending, lead.breaks, lead.rest⟩
    else do
      let startsBlank := lead.rest.head?.any isBlank
      let breaks := lead.breaks ++ ending.toList
      let joint := if folded && !wasBlank && !startsBlank && ending.isSome then foldBreaks breaks
        else breaks
      let line := lead.rest.takeWhile (!isBreak ·)
      let after := lead.rest.dropWhile (!isBreak ·)
      let next ← indentation (some indent) [] 0 0 (after.drop 1)
      contentFrom folded indent n (line.reverse ++ (joint ++ text)) after.head? startsBlank
        (if after.isEmpty then ⟨[], 0, 0, []⟩ else next)

/-- A block scalar after its mark, in a collection that is indented by `outer`. -/
def block (folded : Bool) (outer : Option Nat) (input : List Char) : Option Scanned := do
  let (header, rest) ← header input
  let rest ← afterHeader rest
  let written := header.increment.map (outer.getD 0 + ·)
  let lead ← indentation written [] 0 0 rest
  let least := match outer with
    | some column => column + 1
    | none => 1
  let indent := written.getD (max lead.deepest least)
  let content ← contentFrom folded indent rest.length [] none false lead
  let ending :=
    (if header.chomping = .keep then content.breaks else [])
      ++ (if header.chomping = .strip then [] else content.ending.toList)
  return .ofReversed (ending ++ content.text) content.rest true

/-! ## Anchors, tags and directives -/

def atNameEnd (input : List Char) : Bool :=
  atGap input || input.head?.any fun c => ['?', ':', ',', ']', '}', '%', '@', '`'].contains c

/-- A name after an ampersand or a star, and what follows. -/
def name (input : List Char) : Option (String × List Char) :=
  let chars := input.takeWhile isNameChar
  let rest := input.dropWhile isNameChar
  if chars.isEmpty || !atNameEnd rest then none else some (String.ofList chars, rest)

/-- Whether a character belongs to the suffix of a tag. -/
def isTagChar (c : Char) : Bool :=
  isNameChar c || [';', '/', '?', ':', '@', '&', '=', '+', '$', '.', '%', '!', '~', '*', '\'', '(',
    ')'].contains c

/-- Whether a character belongs to a tag that is written in full. -/
def isUriChar (c : Char) : Bool := isTagChar c || [',', '[', ']'].contains c

/-- The name between the exclamation marks of a tag handle, whether the second mark is there, and
what follows.  The input starts after the first mark. -/
def handle (input : List Char) : List Char × Bool × List Char :=
  let chars := input.takeWhile isNameChar
  match input.dropWhile isNameChar with
  | '!' :: rest => (chars, true, rest)
  | rest => (chars, false, rest)

/-- A character whose bytes are being read. -/
structure PartialChar where
  /-- the number of bytes that are still to come -/
  missing : Nat
  code : Nat
  /-- the least code point that takes so many bytes -/
  least : Nat

namespace PartialChar

def ofByte? (byte : Nat) : Option PartialChar :=
  if byte < 0x80 then some ⟨0, byte, 0⟩
  else if byte < 0xC0 then none
  else if byte < 0xE0 then some ⟨1, byte - 0xC0, 0x80⟩
  else if byte < 0xF0 then some ⟨2, byte - 0xE0, 0x800⟩
  else if byte < 0xF8 then some ⟨3, byte - 0xF0, 0x10000⟩
  else none

/-- What is there after one more byte. -/
def push? (c : PartialChar) (byte : Nat) : Option PartialChar :=
  if 0x80 ≤ byte && byte < 0xC0 then
    some { c with missing := c.missing - 1, code := 64 * c.code + (byte - 0x80) }
  else none

/-- The character, if the bytes are its encoding. -/
def char? (c : PartialChar) : Option Char := if c.least ≤ c.code then Json.char? c.code else none

end PartialChar

/-- The characters of a part of a tag, some of which may be unreadable.  A percent sign stands
before the two digits of a byte, and the bytes of a character follow each other. -/
def tagChars (pending : Option PartialChar) : List Char → Option (List (Option Char))
  | [] => if pending.isSome then none else some []
  | '%' :: a :: b :: rest => do
    let byte ← Json.hexNumber? [a, b]
    let c ← match pending with
      | none => PartialChar.ofByte? byte
      | some c => c.push? byte
    if c.missing = 0 then (c.char? :: ·) <$> tagChars none rest else tagChars (some c) rest
  | c :: rest =>
    if pending.isSome || c = '%' then none else (some c :: ·) <$> tagChars none rest

/-- A part of a tag, which ends before the first null character. -/
def tagText (written : List Char) : Option TagText := do
  let chars := (← tagChars none written).takeWhile (· ≠ some '\x00')
  return ⟨String.ofList (chars.map (·.getD '\uFFFD')), chars.all Option.isSome⟩

/-- A tag after its exclamation mark, and what follows. -/
def tag (flow : Bool) (input : List Char) : Option (Token × List Char) := do
  let (token, rest) ← match input with
    | '<' :: rest =>
      let uri := rest.takeWhile isUriChar
      match rest.dropWhile isUriChar with
      | '>' :: after => do
        if uri.isEmpty then none else some (Token.tag none (← tagText uri), after)
      | _ => none
    | input => do
      let (chars, closed, rest) := handle input
      if closed then
        let suffix := rest.takeWhile isTagChar
        if suffix.isEmpty then none
        else
          some (.tag (some ("!" ++ String.ofList chars ++ "!")) (← tagText suffix),
            rest.dropWhile isTagChar)
      else
        let suffix ← tagText (input.takeWhile isTagChar)
        some (if suffix.text.isEmpty then .tag none ⟨"!", true⟩ else .tag (some "!") suffix,
          input.dropWhile isTagChar)
  if atGap rest || (flow && rest.head? = some ',') then some (token, rest) else none

/-- The number of digits that a number of a version may have. -/
def longestVersion : Nat := 9

def versionNumber (input : List Char) : Option (Nat × List Char) :=
  let chars := input.takeWhile Char.isDigit
  if chars.isEmpty || longestVersion < chars.length then none
  else
    some (chars.foldl (fun n c => 10 * n + (c.toNat - '0'.toNat)) 0, input.dropWhile Char.isDigit)

def version (input : List Char) : Option (Token × List Char) := do
  let (major, rest) ← versionNumber (input.dropWhile isBlank)
  match rest with
  | '.' :: rest => do
    let (minor, rest) ← versionNumber rest
    some (.versionDirective major minor, rest)
  | _ => none

/-- A handle and what it stands for, after the name of their directive. -/
def tagDirective (input : List Char) : Option (Token × List Char) :=
  match input.dropWhile isBlank with
  | '!' :: rest => do
    let (chars, closed, rest) := handle rest
    let uri := rest.dropWhile isBlank
    let start := uri.takeWhile isUriChar
    let after := uri.dropWhile isUriChar
    let written := "!" ++ String.ofList chars ++ if closed then "!" else ""
    if (!closed && !chars.isEmpty) || !rest.head?.any isBlank then none
    else if start.isEmpty || !atGap after then none
    else some (.tagDirective written (← tagText start), after)
  | _ => none

/-- A directive after its percent sign, and what follows its line. -/
def directive (input : List Char) : Option (Token × List Char) := do
  let rest := input.dropWhile isNameChar
  if !atGap rest then none
  let (token, rest) ← match input.takeWhile isNameChar with
    | ['Y', 'A', 'M', 'L'] => version rest
    | ['T', 'A', 'G'] => tagDirective rest
    | _ => none
  some (token, ← afterHeader rest)

/-! ## Tokens -/

/-- A place in the input. -/
structure Cursor where
  rest : List Char
  index : Nat := 0
  line : Nat := 0
  column : Nat := 0

namespace Cursor

def next (cursor : Cursor) : Cursor :=
  match cursor.rest with
  | [] => cursor
  | c :: rest =>
    if isBreak c then ⟨rest, cursor.index + 1, cursor.line + 1, 0⟩
    else ⟨rest, cursor.index + 1, cursor.line, cursor.column + 1⟩

def skip : Nat → Cursor → Cursor
  | 0, cursor => cursor
  | n + 1, cursor => skip n cursor.next

/-- The place where some end of the input starts. -/
def upTo (cursor : Cursor) (rest : List Char) : Cursor :=
  cursor.skip (cursor.rest.length - rest.length)

/-- Whether the input starts a line with a byte order mark. -/
def atOrderMark (cursor : Cursor) : Bool :=
  cursor.column = 0 && cursor.rest.head? = some '\uFEFF'

end Cursor

structure Slot where
  /-- the position of the slot among the slots and tokens -/
  position : Nat
  /-- whether the key has to be one, since it starts a line of a block -/
  required : Bool
  cursor : Cursor

/-- The state between two tokens. -/
structure State where
  cursor : Cursor
  /-- tokens, and slots with what they were filled with -/
  output : Array (List Token) := #[]
  /-- the columns of the enclosing block collections, innermost first -/
  indents : List Nat := []
  /-- the latest slot in each enclosing flow collection and outside of them, innermost first -/
  slots : List (Option Slot) := [none]
  /-- whether a key may start here -/
  keyAllowed : Bool := true

namespace State

def inFlow (s : State) : Bool := 1 < s.slots.length

def emit (s : State) (token : Token) : State := { s with output := s.output.push [token] }

/-- The number of characters that a key may have before its colon. -/
def longestKey : Nat := 1024

/-- A slot, unless it is too late to fill it. -/
def fresh (s : State) (slot : Slot) : Option (Option Slot) :=
  if slot.cursor.line < s.cursor.line || slot.cursor.index + longestKey < s.cursor.index then
    if slot.required then none else some none
  else some (some slot)

/-- The state without the slots that it is too late to fill. -/
def dropStale (s : State) : Option State := do
  let slots ← s.slots.mapM fun slot =>
    match slot with
    | none => some none
    | some slot => s.fresh slot
  return { s with slots }

def removeSlot (s : State) : Option State :=
  match s.slots with
  | some slot :: rest => if slot.required then none else some { s with slots := none :: rest }
  | _ => some s

/-- The state with a slot for a key that starts here, if one may. -/
def addSlot (s : State) : Option State := do
  if !s.keyAllowed then return s
  let slot : Slot :=
    { position := s.output.size
      required := !s.inFlow && s.indents.head? = some s.cursor.column
      cursor := s.cursor }
  let s ← s.removeSlot
  return { s with slots := some slot :: s.slots.drop 1, output := s.output.push [] }

/-- Whether a column is right of the innermost block. -/
def isDeeper (s : State) (column : Nat) : Bool := s.indents.head?.all (· < column)

/-- The state with a block opened at a column, unless it is open. -/
def openBlock (s : State) (column : Nat) (token : Token) : State :=
  if !s.inFlow && s.isDeeper column then
    { s.emit token with indents := column :: s.indents }
  else s

/-- The columns of the blocks that end where a line starts at a column, and of those that go on.
Where there is no column all blocks end. -/
def splitIndents (column : Option Nat) (indents : List Nat) : List Nat × List Nat :=
  let ends (indent : Nat) := column.all (· < indent)
  (indents.takeWhile ends, indents.dropWhile ends)

/-- The state with the blocks closed that end at a column. -/
def closeBlocks (s : State) (column : Option Nat) : State :=
  if s.inFlow then s
  else
    let (ended, indents) := splitIndents column s.indents
    { s with
      indents
      output := ended.foldl (fun output _ => output.push [Token.blockEnd]) s.output }

/-- The place of the next token or the end, after blanks, comments and line breaks, `n` characters
at most.  Tabs are no indentation of keys, and a byte order mark is one column of it. -/
def toToken : Nat → State → State
  | 0, s => s
  | n + 1, s =>
    match s.cursor.rest with
    | [] => s
    | c :: _ =>
      let past : State := { s with cursor := s.cursor.next }
      if c = ' ' || (c = '\t' && (s.inFlow || !s.keyAllowed)) then toToken n past
      else if s.cursor.atOrderMark then toToken n past
      else if c = '#' then
        toToken n { s with cursor := s.cursor.upTo (s.cursor.rest.dropWhile (!isBreak ·)) }
      else if isBreak c then toToken n { past with keyAllowed := s.keyAllowed || !s.inFlow }
      else s

def emitPast (s : State) (n : Nat) (token : Token) (keyAllowed : Bool) : State :=
  { s.emit token with cursor := s.cursor.skip n, keyAllowed }

def documentMark (s : State) (token : Token) : Option State := do
  let s ← (s.closeBlocks none).removeSlot
  return s.emitPast 3 token false

def openFlow (s : State) (token : Token) : Option State := do
  let s ← s.addSlot
  return { s with slots := none :: s.slots }.emitPast 1 token true

def closeFlow (s : State) (token : Token) : Option State := do
  let s ← s.removeSlot
  let slots := if s.inFlow then s.slots.drop 1 else s.slots
  return { s with slots }.emitPast 1 token false

/-- A dash before an item.  In a flow collection it is left to the reader to refuse it. -/
def blockItem (s : State) : Option State := do
  if !s.inFlow && !s.keyAllowed then none
  let s ← (s.openBlock s.cursor.column .blockSequence).removeSlot
  return s.emitPast 1 .item true

def explicitKey (s : State) : Option State := do
  if !s.inFlow && !s.keyAllowed then none
  let s ← (s.openBlock s.cursor.column .blockMapping).removeSlot
  return s.emitPast 1 .key (!s.inFlow)

/-- A colon before a value.  It makes a key of what stands after the latest slot. -/
def value (s : State) : Option State :=
  match s.slots with
  | some slot :: rest =>
    let opens := !s.inFlow && s.isDeeper slot.cursor.column
    let tokens := if opens then [Token.blockMapping, .key] else [.key]
    let filled : State :=
      { s with
        slots := none :: rest
        output := s.output.set! slot.position tokens
        indents := if opens then slot.cursor.column :: s.indents else s.indents }
    some (filled.emitPast 1 .value false)
  | _ =>
    if !s.inFlow && !s.keyAllowed then none
    else some ((s.openBlock s.cursor.column .blockMapping).emitPast 1 .value (!s.inFlow))

/-- A token that may be a key or start one, and what follows it. -/
def keyLike (s : State) (scan : State → Option (Token × List Char × Bool)) : Option State := do
  let s ← s.addSlot
  let (token, rest, keyAllowed) ← scan s
  return { s.emit token with cursor := s.cursor.upTo rest, keyAllowed }

def named (s : State) (token : String → Token) : Option State :=
  s.keyLike fun s => do
    let (text, rest) ← name (s.cursor.rest.drop 1)
    some (token text, rest, false)

def flowScalar (s : State) (style : Style) (scan : State → Option Scanned) : Option State :=
  s.keyLike fun s => do
    let scanned ← scan s
    some (.scalar scanned.text style, scanned.rest, scanned.broken)

/-- A literal or folded scalar, after which a line starts. -/
def blockScalar (s : State) (folded : Bool) : Option State := do
  let s ← s.removeSlot
  let scanned ← block folded s.indents.head? (s.cursor.rest.drop 1)
  return { s.emit (.scalar scanned.text (if folded then .folded else .literal)) with
    cursor := s.cursor.upTo scanned.rest, keyAllowed := true }

def plainScalar (s : State) : Option State :=
  s.flowScalar .plain fun s =>
    let indent := match s.indents with
      | column :: _ => column + 1
      | [] => 0
    plainFrom s.inFlow indent [] {} s.cursor.rest

def directiveLine (s : State) : Option State := do
  let s ← (s.closeBlocks none).removeSlot
  let (token, rest) ← directive (s.cursor.rest.drop 1)
  return { s.emit token with cursor := s.cursor.upTo rest, keyAllowed := false }

/-- The characters that start no plain scalar. -/
def indicators : List Char := ['-', '?', ':', ',', '[', ']', '{', '}', '#', '&', '*', '!', '|', '>',
  '\'', '"', '%', '@', '`']

def tokenAt (s : State) (c : Char) (rest : List Char) : Option State :=
  let lone := atGap rest
  if s.cursor.column = 0 && c = '%' then s.directiveLine
  else if s.cursor.column = 0 && atDocumentMark (c :: rest) then
    s.documentMark (if c = '-' then .documentStart else .documentEnd)
  else if c = '[' then s.openFlow .flowSequence
  else if c = '{' then s.openFlow .flowMapping
  else if c = ']' then s.closeFlow .flowSequenceEnd
  else if c = '}' then s.closeFlow .flowMappingEnd
  else if c = ',' then do return (← s.removeSlot).emitPast 1 .comma true
  else if c = '-' && lone then s.blockItem
  else if c = '?' && (s.inFlow || lone) then s.explicitKey
  else if c = ':' && (s.inFlow || lone) then s.value
  else if c = '*' then s.named .alias
  else if c = '&' then s.named .anchor
  else if c = '!' then
    s.keyLike fun s => do
      let (token, rest) ← tag s.inFlow rest
      some (token, rest, false)
  else if (c = '|' || c = '>') && !s.inFlow then s.blockScalar (c = '>')
  else if c = '\'' then s.flowScalar .quoted fun _ => singleFrom [] {} rest
  else if c = '"' then s.flowScalar .quoted fun _ => doubleFrom (rest.length + 1) [] false {} rest
  else if isBlank c then none
  else if !indicators.contains c || c = '-' || (!s.inFlow && (c = '?' || c = ':')) then
    s.plainScalar
  else none

/-- The tokens of the rest of the input, `n` of them at most. -/
def run : Nat → State → Option (List Token)
  | 0, _ => none
  | n + 1, s => do
    let s ← (s.toToken s.cursor.rest.length).dropStale
    match s.cursor.rest with
    | [] =>
      let s ← (s.closeBlocks none).removeSlot
      return s.output.toList.flatten
    | c :: rest => run n (← (s.closeBlocks (some s.cursor.column)).tokenAt c rest)

end State

end Lexer

def tokens? (source : String) : Option (List Token) :=
  let chars := Lexer.normalizeBreaks source.toList
  if chars.all Lexer.isAllowed then
    Lexer.State.run (chars.length + 1) { cursor := ⟨chars, 0, 0, 0⟩ }
  else none

end ClusterBlueprint.Yaml
