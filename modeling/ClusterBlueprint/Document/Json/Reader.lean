import ClusterBlueprint.Document.Node
import ClusterBlueprint.Expression.Lexer
import ClusterBlueprint.Fields

/-!
Reading documents in JSON.

The members of an object are taken in the order of their names, and of two with one name the later.
A whole number that fits 64 bits is an integer; every other number is the nearest float.
-/

namespace ClusterBlueprint.Json

/-- What was read, and the characters that are left. -/
structure Read (α : Type) (bound : Nat) where
  value : α
  rest : List Char
  within : rest.length < bound

def skipBlanks (input : List Char) : List Char := input.dropWhile Lexer.isBlank

theorem length_lt_of_skipBlanks {input rest : List Char} {c : Char}
    (h : skipBlanks input = c :: rest) : rest.length < input.length := by
  have := Lexer.length_dropWhile_le Lexer.isBlank input
  rw [← skipBlanks, h] at this
  exact this

def hexValue? (c : Char) : Option Nat :=
  if c.isDigit then some (c.toNat - '0'.toNat)
  else if 'a' ≤ c && c ≤ 'f' then some (c.toNat - 'a'.toNat + 10)
  else if 'A' ≤ c && c ≤ 'F' then some (c.toNat - 'A'.toNat + 10)
  else none

def hexNumber? (digits : List Char) : Option Nat :=
  digits.foldlM (fun n c => (hexValue? c).map (16 * n + ·)) 0

/-- The character with a code point, if there is one. -/
def char? (n : Nat) : Option Char :=
  if n < 0x110000 && !(0xD800 ≤ n && n < 0xE000) then some (Char.ofNat n) else none

/-- The character that a letter after a backslash stands for. -/
def unescape? : Char → Option Char
  | '"' => some '"'
  | '\\' => some '\\'
  | '/' => some '/'
  | 'b' => some '\x08'
  | 'f' => some '\x0c'
  | 'n' => some '\n'
  | 'r' => some '\r'
  | 't' => some '\t'
  | _ => none

def readUnit (input : List Char) : Option (Read Nat input.length) :=
  match input with
  | a :: b :: c :: d :: rest =>
    (hexNumber? [a, b, c, d]).map fun n => ⟨n, rest, Nat.lt_add_right 3 (Nat.lt_succ_self _)⟩
  | _ => none

/-- The character that stands after `\u`: one number, or the two halves of a surrogate pair, the
second after a `\u` of its own. -/
def readCodePoint (input : List Char) : Option (Read Char input.length) := do
  let ⟨n, rest, h⟩ ← readUnit input
  if 0xD800 ≤ n && n < 0xDC00 then
    match rest, h with
    | '\\' :: 'u' :: rest, h => do
      let ⟨low, rest, h₁⟩ ← readUnit rest
      if low < 0xDC00 || 0xE000 ≤ low then none
      let c ← char? (0x10000 + (n - 0xD800) * 0x400 + (low - 0xDC00))
      some ⟨c, rest, Nat.lt_trans h₁ (Nat.lt_of_succ_lt (Nat.lt_of_succ_lt h))⟩
    | _, _ => none
  else
    let c ← char? n
    some ⟨c, rest, h⟩

/-- The characters up to the closing quote. -/
def readText (input : List Char) : Option (Read (List Char) input.length) :=
  match input with
  | '"' :: rest => some ⟨[], rest, Nat.lt_succ_self _⟩
  | '\\' :: 'u' :: rest => do
    let ⟨first, rest, h⟩ ← readCodePoint rest
    let ⟨more, rest, h₁⟩ ← readText rest
    some ⟨first :: more, rest, Nat.lt_add_right 2 (Nat.lt_trans h₁ h)⟩
  | '\\' :: letter :: rest => do
    let first ← unescape? letter
    let ⟨more, rest, h⟩ ← readText rest
    some ⟨first :: more, rest, Nat.lt_add_right 2 h⟩
  | c :: rest =>
    if c.toNat < 32 then none
    else do
      let ⟨more, rest, h⟩ ← readText rest
      some ⟨c :: more, rest, Nat.lt_succ_of_lt h⟩
  | [] => none
termination_by input.length
decreasing_by
  all_goals simp only [List.length_cons]
  all_goals omega

/-- The datum that a word or number is. -/
def wordScalar? (word : List Char) : Option Scalar :=
  match word with
  | ['n', 'u', 'l', 'l'] => some .null
  | ['t', 'r', 'u', 'e'] => some (.bool true)
  | ['f', 'a', 'l', 's', 'e'] => some (.bool false)
  | word =>
    let negative := word.head? = some '-'
    let digits := if negative then word.drop 1 else word
    match digits with
    | [] => none
    | first :: rest =>
      if !first.isDigit || (first = '0' && (rest.takeWhile Char.isDigit).length > 0) then none
      else
        let (value, after) := Lexer.scanNumber first rest
        if !after.isEmpty || !value.isFinite then none
        else if digits.all Char.isDigit then
          let n : Int := Lexer.digitsValue digits
          let signed := if negative then -n else n
          if fitsWord signed && !(negative && n = 0) then some (.integer signed)
          else some (.float (if negative then value.neg else value))
        else some (.float (if negative then value.neg else value))

/-- Whether a character belongs to a word or number. -/
def isWordChar (c : Char) : Bool := c.isAlphanum || c = '-' || c = '+' || c = '.'

def readName (input : List Char) : Option (Read (List Char) input.length) :=
  match h : skipBlanks input with
  | '"' :: rest => do
    let ⟨name, rest, h₁⟩ ← readText rest
    match hc : skipBlanks rest with
    | ':' :: rest =>
      some ⟨name, rest, Nat.lt_trans (length_lt_of_skipBlanks hc)
        (Nat.lt_trans h₁ (length_lt_of_skipBlanks h))⟩
    | _ => none
  | _ => none

mutual

def readValue (input : List Char) : Option (Read Node input.length) :=
  match h : skipBlanks input with
  | '"' :: rest => do
    let ⟨chars, rest, h₁⟩ ← readText rest
    some ⟨.text (String.ofList chars), rest, Nat.lt_trans h₁ (length_lt_of_skipBlanks h)⟩
  | '[' :: rest => do
    let ⟨items, rest, h₁⟩ ← readItems true rest
    some ⟨.sequence items, rest, Nat.lt_trans h₁ (length_lt_of_skipBlanks h)⟩
  | '{' :: rest => do
    let ⟨fields, rest, h₁⟩ ← readMembers true [] rest
    some ⟨.fields fields, rest, Nat.lt_trans h₁ (length_lt_of_skipBlanks h)⟩
  | c :: rest =>
    if isWordChar c then
      (wordScalar? (c :: rest.takeWhile isWordChar)).map fun value =>
        ⟨.scalar value, rest.dropWhile isWordChar,
          Nat.lt_of_le_of_lt (Lexer.length_dropWhile_le ..) (length_lt_of_skipBlanks h)⟩
    else none
  | [] => none
termination_by input.length * 2
decreasing_by
  all_goals try have hshort := length_lt_of_skipBlanks ‹_›
  all_goals omega

/-- The items up to the closing bracket.  Before the first no comma stands. -/
def readItems (first : Bool) (input : List Char) : Option (Read (List Node) input.length) :=
  match h : skipBlanks input with
  | ']' :: rest => some ⟨[], rest, length_lt_of_skipBlanks h⟩
  | ',' :: rest =>
    if first then none
    else do
      let ⟨item, rest, h₁⟩ ← readValue rest
      let ⟨more, rest, h₂⟩ ← readItems false rest
      some ⟨item :: more, rest, Nat.lt_trans h₂ (Nat.lt_trans h₁ (length_lt_of_skipBlanks h))⟩
  | _ =>
    if first then do
      let ⟨item, rest, h₁⟩ ← readValue input
      let ⟨more, rest, h₂⟩ ← readItems false rest
      some ⟨item :: more, rest, Nat.lt_trans h₂ h₁⟩
    else none
termination_by input.length * 2 + 1
decreasing_by
  all_goals try have hshort := length_lt_of_skipBlanks ‹_›
  all_goals omega

/-- The members up to the closing brace, put among the fields so far. -/
def readMembers (first : Bool) (fields : Fields Node) (input : List Char) :
    Option (Read (Fields Node) input.length) :=
  match h : skipBlanks input with
  | '}' :: rest => some ⟨fields, rest, length_lt_of_skipBlanks h⟩
  | ',' :: rest =>
    if first then none
    else do
      let ⟨name, rest, h₁⟩ ← readName rest
      let ⟨value, rest, h₂⟩ ← readValue rest
      let ⟨fields, rest, h₃⟩ ← readMembers false (fields.put (String.ofList name) value) rest
      some ⟨fields, rest,
        Nat.lt_trans h₃ (Nat.lt_trans h₂ (Nat.lt_trans h₁ (length_lt_of_skipBlanks h)))⟩
  | _ =>
    if first then do
      let ⟨name, rest, h₁⟩ ← readName input
      let ⟨value, rest, h₂⟩ ← readValue rest
      let ⟨fields, rest, h₃⟩ ← readMembers false (fields.put (String.ofList name) value) rest
      some ⟨fields, rest, Nat.lt_trans h₃ (Nat.lt_trans h₂ h₁)⟩
    else none
termination_by input.length * 2 + 1
decreasing_by
  all_goals try have hshort := length_lt_of_skipBlanks ‹_›
  all_goals omega

end

/-- The data of a whole text, if it is JSON. -/
def read (source : String) : Option Node := do
  let ⟨node, rest, _⟩ ← readValue source.toList
  if (skipBlanks rest).isEmpty then some node else none

end ClusterBlueprint.Json
