import ClusterBlueprint.Text.WhiteSpace
import ClusterBlueprint.Text.WordCharacter
import ClusterBlueprint.Value

/-!
The texts of documents, read as values.

* `((EXPRESSION))` is an expression, and `\((...))` is that text without the backslash.
* `$(REFERENCE)` anywhere in a line is an expression in the spelling of documents.  Backslashes
  before it count in pairs: each pair is one backslash, and an odd one makes the text plain.
* A text that is one expression is that expression; text around expressions makes a template.

`Literal.escape` writes a plain text so that reading it gives the text back.
-/

namespace ClusterBlueprint.Literal

open ClusterBlueprint.Text

/-! ## Where expressions stand in a text -/

def splitAtOpening : List Char → Option (List Char × List Char)
  | [] => none
  | '$' :: '(' :: rest => some ([], rest)
  | c :: rest => (splitAtOpening rest).map fun (before, after) => (c :: before, after)

theorem length_splitAtOpening {cs before after : List Char}
    (h : splitAtOpening cs = some (before, after)) : after.length < cs.length := by
  fun_induction splitAtOpening cs generalizing before with
  | case1 => simp at h
  | case2 rest => simp at h; obtain ⟨-, rfl⟩ := h; simp only [List.length_cons]; omega
  | case3 c rest _ ih =>
    obtain ⟨⟨_, _⟩, hrest, hpair⟩ := Option.map_eq_some_iff.1 h
    simp only [Prod.mk.injEq] at hpair
    exact Nat.lt_succ_of_lt (ih (hpair.2 ▸ hrest))

/-- The characters within a leading and a closing text, if both are there and do not overlap. -/
def within? (opening closing cs : List Char) : Option (List Char) :=
  if opening.length + closing.length ≤ cs.length && opening.isPrefixOf cs && closing.isSuffixOf cs
  then some ((cs.drop opening.length).take (cs.length - opening.length - closing.length))
  else none

/-- Whether a line of the text has `$(` and a closing parenthesis after it. -/
def hasVariable (s : String) : Bool :=
  (split '\n' s).any fun line =>
    match splitAtOpening line.toList with
    | some (_, after) => after.contains ')'
    | none => false

/-- Whether the text is one line that `$(` and a closing parenthesis enclose. -/
def isSimpleVariable (s : String) : Bool :=
  (within? ['$', '('] [')'] s.toList).isSome && !s.toList.contains '\n'

/-- What stands between the double parentheses that enclose the line. -/
def inParentheses? (s : String) : Option (List Char) :=
  if s.toList.contains '\n' then none else within? ['(', '('] [')', ')'] s.toList

/-- Whether the text is one line that double parentheses enclose. -/
def isLiteralVariable (s : String) : Bool := (inParentheses? s).isSome

/-- What stands between the double parentheses, without white space around it. -/
def literalContents? (s : String) : Option String :=
  (inParentheses? s).map fun inner => String.ofList (trimWhiteSpace inner)

/-- The source and the name in `((source.name))`: two words, the first without a dot. -/
def identify? (s : String) : Option (String × String) := do
  let inner ← within? ['(', '('] [')', ')'] s.toList
  let inner := inner.dropWhile isWhiteSpace
  let inSource (c : Char) := c ≠ '.' && !isWhiteSpace c
  let source := inner.takeWhile inSource
  match inner.dropWhile inSource with
  | '.' :: rest =>
    let name := rest.takeWhile (!isWhiteSpace ·)
    if source.isEmpty || name.isEmpty || !(rest.drop name.length).all isWhiteSpace then none
    else some (String.ofList source, String.ofList name)
  | _ => none

/-! ## Expressions in the spelling of documents -/

def isDottedWord : List Char → Bool
  | [] => false
  | first :: rest => Lexer.isIdentStart first && rest.all fun c => isWordCharacter c || c = '-'

def isDottedPath (cs : List Char) : Bool := (splitChars '.' cs).all isDottedWord

/-- Whether a dotted path names an attribute of a global variable, as in `vars.NAME.ATTR`. -/
def isGlobalAttribute (cs : List Char) : Bool :=
  (Reference.globalNamespace.toList ++ ['.']).isPrefixOf cs && cs.count '.' = 2

/-- The global variables by their namespace, and every other name as a module. -/
def documentRoot : Term.Rerooting := fun root =>
  if root = Reference.globalNamespace then (Reference.globalRoot, [])
  else (Reference.moduleRoot, [root])

/-- A fault unless every traversal has an attribute after its root. -/
def checkRoots (term : Term) : Checked Unit :=
  term.traversals.forM fun (root, steps) =>
    match steps with
    | .attribute _ :: _ => .ok ()
    | _ =>
      .error (Reference.formatFault (Term.traversal root steps).text
        "expected vars.NAME or MODULE.NAME")

/-- The expression between `$(` and its closing parenthesis.  A dotted path has to be a reference,
except that `vars.NAME.ATTR` is an attribute of a global variable. -/
def readBody (body : List Char) : Checked Expression := do
  let trimmed := trimWhiteSpace body
  if isDottedPath trimmed && !isGlobalAttribute trimmed then
    return .ofReference (← Reference.parseText (String.ofList trimmed))
  else
    let term ← Term.ofTokens (← Token.scan (String.ofList body))
    checkRoots term
    Expression.parse (term.reroot documentRoot).text

/-- The expression before the first closing parenthesis that ends one, and what follows.  The
characters passed so far are `passed`, last first; `last` is the fault of the longest of them that
stood before a parenthesis.  A dotted path before a parenthesis cannot go on after it, so its fault
is final. -/
def shortestFrom (passed : List Char) (last : Fault) :
    List Char → Checked (Expression × List Char)
  | [] => .error last
  | c :: rest =>
    if c = ')' then
      match readBody passed.reverse with
      | .ok e => .ok (e, rest)
      | .error fault =>
        if isDottedPath (trimWhiteSpace passed.reverse) then .error fault
        else shortestFrom (c :: passed) fault rest
    else shortestFrom (c :: passed) last rest

/-- The shortest expression before a closing parenthesis, and what follows. -/
def shortestExpression (cs : List Char) : Checked (Expression × List Char) :=
  shortestFrom [] (Cause.expression "no closing parenthesis") cs

theorem length_shortestFrom {passed cs after : List Char} {last : Fault} {e : Expression}
    (h : shortestFrom passed last cs = .ok (e, after)) : after.length < cs.length := by
  fun_induction shortestFrom passed last cs with
  | case1 => simp at h
  | case2 => simp at h; obtain ⟨-, rfl⟩ := h; simp
  | case3 => simp at h
  | case4 _ _ _ _ _ _ ih => exact Nat.lt_succ_of_lt (ih h)
  | case5 _ _ _ _ _ ih => exact Nat.lt_succ_of_lt (ih h)

/-! ## Whole texts -/

/-- A fault in a line.  All but the faults of references show the line. -/
def inLine (line : List Char) (fault : Fault) : Fault :=
  match fault with
  | .cause (.referenceFormat ..) => fault
  | fault => Cause.expression (fault.message ++ "\n  " ++ String.ofList line)

/-- A piece of text, unless it is empty. -/
def textPart (cs : List Char) : List Part :=
  if cs.isEmpty then [] else [.literal (String.ofList cs)]

def lineParts (line : List Char) (rest : List Char) : Checked (List Part) :=
  match h : splitAtOpening rest with
  | none => .ok (textPart rest)
  | some (before, after) =>
    have := length_splitAtOpening h
    let backslashes := (before.reverse.takeWhile (· = '\\')).length
    let kept := textPart (before.take (before.length - backslashes + backslashes / 2))
    if backslashes % 2 = 1 then do
      return kept ++ textPart ['$', '('] ++ (← lineParts line after)
    else
      match hshort : shortestExpression after with
      | .error fault => .error (inLine line fault)
      | .ok (e, following) => do
        have := length_shortestFrom hshort
        return kept ++ [.interpolation e.term] ++ (← lineParts line following)
termination_by rest.length

/-- Pieces with neighbouring texts joined. -/
def joinTexts : List Part → List Part
  | .literal a :: rest =>
    match joinTexts rest with
    | .literal b :: more => .literal (a ++ b) :: more
    | more => .literal a :: more
  | part :: rest => part :: joinTexts rest
  | [] => []

/-- A line without the carriage return at its end. -/
def withoutReturn (line : List Char) : List Char :=
  if line.getLast? = some '\r' then line.dropLast else line

/-- The pieces of some lines, each but the first after a newline. -/
def linesParts : List (List Char) → Checked (List Part)
  | [] => .ok []
  | [line] => lineParts (withoutReturn line) (withoutReturn line)
  | line :: rest => do
    let parts ← lineParts (withoutReturn line) (withoutReturn line)
    return parts ++ textPart ['\n'] ++ (← linesParts rest)

/-- A text in which `$(` opens expressions. -/
def readMixed (s : String) : Checked Value := do
  match joinTexts (← linesParts (splitChars '\n' s.toList)) with
  | [] => return .string ""
  | [.literal text] => return .string text
  | [.interpolation term] => return .expression ⟨term⟩
  | parts => return .expression ⟨.template parts⟩

def read (s : String) : Checked Value :=
  match within? ['(', '('] [')', ')'] s.toList with
  | some inner => (Expression.parse (String.ofList inner)).map Value.expression
  | none =>
    if (within? ['\\', '(', '('] [')', ')'] s.toList).isSome then
      .ok (.string (String.ofList (s.toList.drop 1)))
    else readMixed s

/-! ## Writing plain texts -/

/-- The characters with every `$(` escaped: the backslashes before it doubled and one more added.
`slashes` of them stand directly before the characters. -/
def escapeOpenings (slashes : Nat) : List Char → List Char
  | [] => []
  | '$' :: '(' :: rest => List.replicate (slashes + 1) '\\' ++ '$' :: '(' :: escapeOpenings 0 rest
  | '\\' :: rest => '\\' :: escapeOpenings (slashes + 1) rest
  | c :: rest => c :: escapeOpenings 0 rest

/-- A text of a document that stands for the plain text `s`. -/
def escape (s : String) : String :=
  if (within? ['(', '('] [')', ')'] s.toList).isSome then "\\" ++ s
  else String.ofList (escapeOpenings 0 s.toList)

end ClusterBlueprint.Literal
