import ClusterBlueprint.Expression.Token
import ClusterBlueprint.Fault

/-!
From source text to tokens.

The lexer is in code or within the quotes of a template.  In code it counts the open braces, so that
it knows the brace that ends an interpolation; a template may hold code and that code a template, so
the states stack up.  `Lexer.step` reads one token and leaves a shorter rest, which is why
`Token.scan` ends.
-/

namespace ClusterBlueprint

namespace Lexer

/-- What the lexer is reading. -/
inductive State where
  /-- the code of the whole source, with this many braces open -/
  | source (braces : Nat)
  /-- the text of a template that stands in `outer` -/
  | template (outer : State)
  /-- the code of an interpolation, with this many braces open, in the template `outer` -/
  | interpolation (braces : Nat) (outer : State)

namespace State

def openBrace : State → State
  | source braces => source (braces + 1)
  | interpolation braces outer => interpolation (braces + 1) outer
  | template outer => template outer

/-- The token that a closing brace in code is, and the state after it.  It has no place where
nothing is open. -/
def closeBrace? : State → Option (Token × State)
  | source (braces + 1) => some (.closeBrace, source braces)
  | interpolation 0 outer => some (.closeInterpolation, outer)
  | interpolation (braces + 1) outer => some (.closeBrace, interpolation braces outer)
  | source 0 | template _ => none

def mayEnd : State → Bool
  | source _ => true
  | _ => false

end State

def isIdentStart (c : Char) : Bool := c.isAlpha || c = '_'

/-- A letter, a digit, an underscore or a dash: what an identifier goes on with. -/
def isIdentContinue (c : Char) : Bool := c.isAlphanum || c = '_' || c = '-'

def isBlank (c : Char) : Bool := c = ' ' || c = '\t' || c = '\r' || c = '\n'

/-- The digits of a fraction and what follows.  A point without digits is left alone. -/
def scanFraction (input : List Char) : List Char × List Char :=
  match input with
  | '.' :: rest =>
    match rest.takeWhile Char.isDigit with
    | [] => ([], input)
    | digits => (digits, rest.dropWhile Char.isDigit)
  | _ => ([], input)

def digitsValue (digits : List Char) : Nat :=
  digits.foldl (fun n c => 10 * n + (c.toNat - '0'.toNat)) 0

def scanExponent (input : List Char) : Int × List Char :=
  match input with
  | [] => (0, input)
  | mark :: rest =>
    if mark = 'e' || mark = 'E' then
      let (negative, rest) := match rest with
        | '+' :: rest => (false, rest)
        | '-' :: rest => (true, rest)
        | rest => (false, rest)
      match rest.takeWhile Char.isDigit with
      | [] => (0, input)
      | digits =>
        let value : Int := digitsValue digits
        (if negative then -value else value, rest.dropWhile Char.isDigit)
    else (0, input)

/-- A number whose first digit was read, and what follows. -/
def scanNumber (first : Char) (input : List Char) : Number × List Char :=
  let whole := first :: input.takeWhile Char.isDigit
  let (fraction, rest) := scanFraction (input.dropWhile Char.isDigit)
  let (exponent, rest) := scanExponent rest
  (.ofDecimal false ⟨digitsValue (whole ++ fraction), exponent - fraction.length⟩, rest)

/-- The sign that the input starts with, and what follows. -/
def scanSign : List Char → Option (Token × List Char)
  | '=' :: '=' :: rest => some (.operator .equal, rest)
  | '!' :: '=' :: rest => some (.operator .notEqual, rest)
  | '<' :: '=' :: rest => some (.operator .lessEqual, rest)
  | '>' :: '=' :: rest => some (.operator .greaterEqual, rest)
  | '&' :: '&' :: rest => some (.operator .and, rest)
  | '|' :: '|' :: rest => some (.operator .or, rest)
  | '<' :: rest => some (.operator .less, rest)
  | '>' :: rest => some (.operator .greater, rest)
  | '!' :: rest => some (.bang, rest)
  | '=' :: rest => some (.assign, rest)
  | '+' :: rest => some (.operator .add, rest)
  | '-' :: rest => some (.operator .sub, rest)
  | '*' :: rest => some (.operator .mul, rest)
  | '/' :: rest => some (.operator .div, rest)
  | '%' :: rest => some (.operator .mod, rest)
  | '(' :: rest => some (.openParen, rest)
  | ')' :: rest => some (.closeParen, rest)
  | '[' :: rest => some (.openBracket, rest)
  | ']' :: rest => some (.closeBracket, rest)
  | ',' :: rest => some (.comma, rest)
  | '.' :: rest => some (.dot, rest)
  | ':' :: rest => some (.colon, rest)
  | '?' :: rest => some (.question, rest)
  | _ => none

/-- The character that a letter after a backslash stands for. -/
def unescape? : Char → Option Char
  | 'n' => some '\n'
  | 't' => some '\t'
  | 'r' => some '\r'
  | '\\' => some '\\'
  | '"' => some '"'
  | _ => none

/-- A scan whose text starts with one more character. -/
def withChar (c : Char) (scanned : Checked (List Char × List Char)) :
    Checked (List Char × List Char) :=
  scanned.map fun (text, rest) => (c :: text, rest)

/-- Literal text up to the closing quote or the next interpolation, and what follows. -/
def scanLiteral : List Char → Checked (List Char × List Char)
  | [] => .error (Cause.expression "unterminated template string")
  | '"' :: rest => .ok ([], '"' :: rest)
  | '$' :: '{' :: rest => .ok ([], '$' :: '{' :: rest)
  | '$' :: '$' :: '{' :: rest => withChar '$' (withChar '{' (scanLiteral rest))
  | ['\\'] => .error (Cause.expression "unterminated template string")
  | '\\' :: letter :: rest =>
    match unescape? letter with
    | some c => withChar c (scanLiteral rest)
    | none =>
      .error (Cause.expression
        ("invalid escape sequence \\" ++ letter.toString ++ " in quoted string"))
  | c :: rest => withChar c (scanLiteral rest)

/-- The fault at a character that starts no token.  Its first twenty characters are shown as they
are. -/
def unexpected (input : List Char) (detail : String) : Fault :=
  Cause.expression
    ("unexpected character at: \"" ++ String.ofList (input.take 20) ++ "\" (" ++ detail ++ ")")

def noSign (input : List Char) : String :=
  "Parsing Error: Error \x7b input: " ++ Text.quoted (String.ofList input) ++ ", code: Char \x7d"

/-! ## What is left is shorter -/

theorem length_dropWhile_le {α : Type} (p : α → Bool) (xs : List α) :
    (xs.dropWhile p).length ≤ xs.length := (List.dropWhile_sublist p).length_le

theorem length_scanFraction_le (input : List Char) :
    (scanFraction input).2.length ≤ input.length := by
  unfold scanFraction
  split
  · next rest =>
    split
    · exact Nat.le_refl _
    · exact Nat.le_succ_of_le (length_dropWhile_le ..)
  · exact Nat.le_refl _

theorem length_scanExponent_le (input : List Char) :
    (scanExponent input).2.length ≤ input.length := by
  unfold scanExponent
  split
  · exact Nat.le_refl _
  · next mark rest =>
    split
    · grind [length_dropWhile_le]
    · exact Nat.le_refl _

theorem length_scanNumber_le (first : Char) (input : List Char) :
    (scanNumber first input).2.length ≤ input.length :=
  Nat.le_trans (length_scanExponent_le _)
    (Nat.le_trans (length_scanFraction_le _) (length_dropWhile_le ..))

theorem length_scanSign_lt {input rest : List Char} {token : Token}
    (h : scanSign input = some (token, rest)) : rest.length < input.length := by
  unfold scanSign at h
  split at h <;> simp at h <;> obtain ⟨-, rfl⟩ := h <;> simp only [List.length_cons] <;> omega

theorem withChar_eq_ok {c : Char} {scanned : Checked (List Char × List Char)}
    {text rest : List Char} (h : withChar c scanned = .ok (text, rest)) :
    ∃ tail, text = c :: tail ∧ scanned = .ok (tail, rest) := by
  cases scanned with
  | error => simp [withChar, Except.map] at h
  | ok pair =>
    obtain ⟨tail, after⟩ := pair
    simp only [withChar, Except.map, Except.ok.injEq, Prod.mk.injEq] at h
    exact ⟨tail, h.1.symm, by rw [h.2]⟩

theorem length_scanLiteral_le {input text rest : List Char}
    (h : scanLiteral input = .ok (text, rest)) : rest.length ≤ input.length := by
  fun_induction scanLiteral input generalizing text with
  | case1 => simp at h
  | case2 => grind
  | case3 => grind
  | case4 tail ih =>
    obtain ⟨_, -, h⟩ := withChar_eq_ok h
    obtain ⟨_, -, h⟩ := withChar_eq_ok h
    exact Nat.le_trans (ih h) (by simp only [List.length_cons]; omega)
  | case5 => simp at h
  | case6 letter tail _ _ ih =>
    obtain ⟨_, -, h⟩ := withChar_eq_ok h
    exact Nat.le_trans (ih h) (by simp only [List.length_cons]; omega)
  | case7 => simp at h
  | case8 _ _ _ _ _ _ _ ih =>
    obtain ⟨_, -, h⟩ := withChar_eq_ok h
    exact Nat.le_trans (ih h) (by simp)

/-- Literal text that does not stop at once takes at least one character. -/
theorem length_scanLiteral_lt {input text rest : List Char}
    (h : scanLiteral input = .ok (text, rest)) (hquote : input.take 1 ≠ ['"'])
    (hopen : input.take 2 ≠ ['$', '{']) : rest.length < input.length := by
  unfold scanLiteral at h
  split at h
  · simp at h
  · simp at hquote
  · simp at hopen
  · obtain ⟨_, -, h⟩ := withChar_eq_ok h
    obtain ⟨_, -, h⟩ := withChar_eq_ok h
    exact Nat.lt_of_le_of_lt (length_scanLiteral_le h) (by simp only [List.length_cons]; omega)
  · simp at h
  · split at h
    · obtain ⟨_, -, h⟩ := withChar_eq_ok h
      exact Nat.lt_of_le_of_lt (length_scanLiteral_le h) (by simp only [List.length_cons]; omega)
    · simp at h
  · obtain ⟨_, -, h⟩ := withChar_eq_ok h
    exact Nat.lt_of_le_of_lt (length_scanLiteral_le h) (by simp)

/-! ## One token at a time -/

/-- A token, what the lexer reads after it, and the input that is left. -/
structure Step (input : List Char) where
  token : Token
  state : State
  rest : List Char
  shorter : rest.length < input.length

/-- The same step, seen from an input that is no shorter. -/
def Step.ofSuffix {input suffix : List Char} (h : suffix.length ≤ input.length)
    (step : Step suffix) : Step input :=
  { step with shorter := Nat.lt_of_lt_of_le step.shorter h }

theorem length_drop_lt {input head : List Char} {n : Nat} (h : input.take (n + 1) = head)
    (hhead : head ≠ []) : (input.drop (n + 1)).length < input.length := by
  cases input with
  | nil => exact absurd (by simpa using h.symm) hhead
  | cons c tail => simp only [List.drop_succ_cons, List.length_cons, List.length_drop]; omega

def templateStep (outer : State) (input : List Char) : Checked (Step input) :=
  if hquote : input.take 1 = ['"'] then
    .ok ⟨.closeQuote, outer, input.drop 1, length_drop_lt hquote (by simp)⟩
  else if hopen : input.take 2 = ['$', '{'] then
    .ok ⟨.openInterpolation, .interpolation 0 (.template outer), input.drop 2,
      length_drop_lt hopen (by simp)⟩
  else
    match h : scanLiteral input with
    | .error fault => .error fault
    | .ok (text, rest) =>
      .ok ⟨.literal (String.ofList text), .template outer, rest,
        length_scanLiteral_lt h hquote hopen⟩

def codeStep (state : State) (c : Char) (input : List Char) : Checked (Step (c :: input)) :=
  if c = '"' then .ok ⟨.openQuote, .template state, input, by simp⟩
  else if c = '{' then .ok ⟨.openBrace, state.openBrace, input, by simp⟩
  else if c = '}' then
    match state.closeBrace? with
    | some (token, state) => .ok ⟨token, state, input, by simp⟩
    | none => .error (unexpected (c :: input) "unbalanced closing brace")
  else if c.isDigit then
    .ok ⟨.number (scanNumber c input).1, state, (scanNumber c input).2,
      Nat.lt_succ_of_le (length_scanNumber_le c input)⟩
  else if isIdentStart c then
    .ok ⟨.ident (String.ofList (c :: input.takeWhile isIdentContinue)), state,
      input.dropWhile isIdentContinue, Nat.lt_succ_of_le (length_dropWhile_le ..)⟩
  else
    match h : scanSign (c :: input) with
    | some (token, rest) => .ok ⟨token, state, rest, length_scanSign_lt h⟩
    | none => .error (unexpected (c :: input) (noSign (c :: input)))

/-- The next token, or none at the end of the input. -/
def step? (state : State) (input : List Char) : Checked (Option (Step input)) :=
  match state with
  | .template outer => (templateStep outer input).map some
  | state =>
    match h : input.dropWhile isBlank with
    | [] =>
      if state.mayEnd then .ok none
      else .error (Cause.expression "unterminated template string or interpolation")
    | c :: rest =>
      (codeStep state c rest).map fun step =>
        some (step.ofSuffix (h ▸ length_dropWhile_le isBlank input))

def scanFrom (state : State) (input : List Char) : Checked (List Token) := do
  match ← step? state input with
  | none => .ok []
  | some step => return step.token :: (← scanFrom step.state step.rest)
termination_by input.length
decreasing_by exact step.shorter

end Lexer

/-- The tokens of a source text. -/
def Token.scan (source : String) : Checked (List Token) :=
  Lexer.scanFrom (.source 0) source.toList

end ClusterBlueprint
