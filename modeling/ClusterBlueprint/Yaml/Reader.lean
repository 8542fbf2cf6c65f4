import ClusterBlueprint.Yaml.Lexer
import ClusterBlueprint.Yaml.Written

/-!
Reading documents in YAML.

A text holds one document.  An anchor has the number of the names that were anchors before it.  So
names that are given again make later anchors share a number, and the last of them owns it.
-/

namespace ClusterBlueprint.Yaml

/-- What is left to read, and what is known so far. -/
structure Source where
  tokens : List Token
  /-- the numbers of anchors under their names -/
  anchors : List (String × Nat) := []
  /-- what tag handles stand for -/
  handles : List (String × TagText) := []

/-- Reading, which may fail. -/
abbrev Reading (α : Type) := StateT Source Option α

namespace Reading

def peek? : Reading (Option Token) := do return (← get).tokens.head?

def sees (tokens : List Token) : Reading Bool := do return (← peek?).any tokens.contains

def skip : Reading Unit := modify fun source => { source with tokens := source.tokens.drop 1 }

/-- Whether the next token is a known one, which is then taken off. -/
def skips (token : Token) : Reading Bool := do
  if ← sees [token] then
    skip
    return true
  else return false

def expect (token : Token) : Reading Unit := do
  if !(← skips token) then failure

/-- The anchor that a name stands for. -/
def aliased (name : String) : Reading Nat := do
  match (← get).anchors.lookup name with
  | some anchor => return anchor
  | none => failure

def anchored (name : String) : Reading Nat := do
  let anchors := (← get).anchors
  let others := anchors.filter (·.1 ≠ name)
  modify fun source => { source with anchors := (name, anchors.length) :: others }
  return anchors.length

end Reading

open Reading

def wholeTag (handle : Option String) (suffix : TagText) : Reading TagText := do
  match handle with
  | none => return suffix
  | some handle =>
    match (← get).handles.lookup handle with
    | some start => return start.append suffix
    | none =>
      if handle = "!" then return (⟨"!", true⟩ : TagText).append suffix
      else if handle = "!!" then return (⟨coreStart, true⟩ : TagText).append suffix
      else failure

/-- The anchor and the tag before data, in either order, each once. -/
def properties : Nat → Option String → Option Tag → Reading (Option String × Option Tag)
  | 0, anchor, tag => return (anchor, tag)
  | n + 1, anchor, tag => do
    match ← peek? with
    | some (.anchor name) =>
      if anchor.isSome then return (anchor, tag)
      else do
        skip
        properties n (some name) tag
    | some (.tag handle suffix) =>
      if tag.isSome then return (anchor, tag)
      else do
        skip
        properties n anchor (some (Tag.ofText (← wholeTag handle suffix)))
    | _ => return (anchor, tag)

mutual

/-- Data.  Where no block may start `block` does not hold; where the items of a sequence may stand
without indentation `bare` holds. -/
def readNode : Nat → Bool → Bool → Reading Written
  | 0, _, _ => failure
  | n + 1, block, bare => do
    match ← peek? with
    | some (.alias name) => do
      skip
      return .aliasOf (← aliased name)
    | _ => do
      let (name, tag) ← properties 2 none none
      match ← peek? with
      | some (.scalar text style) => do
        skip
        return .scalar (← name.mapM anchored) tag style text
      | some .flowSequence => do
        skip
        let anchor ← name.mapM anchored
        return .sequence anchor tag (← readFlowItems n true)
      | some .flowMapping => do
        skip
        let anchor ← name.mapM anchored
        return .mapping anchor tag (← readFlowEntries n true)
      | some .blockSequence => do
        if !block then failure
        skip
        let anchor ← name.mapM anchored
        return .sequence anchor tag (← readItems n)
      | some .blockMapping => do
        if !block then failure
        skip
        let anchor ← name.mapM anchored
        return .mapping anchor tag (← readEntries n)
      | token => do
        if bare && token = some .item then
          let anchor ← name.mapM anchored
          return .sequence anchor tag (← readBareItems n)
        else if name.isSome || tag.isSome then
          return .scalar (← name.mapM anchored) tag .plain ""
        else failure

/-- Data, or nothing before one of some tokens. -/
def readUnless : Nat → List Token → Bool → Bool → Reading Written
  | 0, _, _, _ => failure
  | n + 1, ends, block, bare => do
    if ← sees ends then return Written.empty else readNode n block bare

def readItems : Nat → Reading (List Written)
  | 0 => failure
  | n + 1 => do
    if ← skips .item then
      let item ← readUnless n [.item, .blockEnd] true false
      return item :: (← readItems n)
    else do
      expect .blockEnd
      return []

/-- The items of a block sequence without indentation. -/
def readBareItems : Nat → Reading (List Written)
  | 0 => failure
  | n + 1 => do
    if ← skips .item then
      let item ← readUnless n [.item, .key, .value, .blockEnd] true false
      return item :: (← readBareItems n)
    else return []

def readEntries : Nat → Reading (List (Written × Written))
  | 0 => failure
  | n + 1 => do
    let ends := [Token.key, .value, .blockEnd]
    if ← skips .blockEnd then return []
    else do
      expect .key
      let key ← readUnless n ends true true
      let value ← if ← skips .value then readUnless n ends true true else pure Written.empty
      return (key, value) :: (← readEntries n)

/-- The items of a flow sequence.  A key and a value without braces are a mapping. -/
def readFlowItems : Nat → Bool → Reading (List Written)
  | 0, _ => failure
  | n + 1, first => do
    if ← skips .flowSequenceEnd then return []
    else do
      if !first then expect .comma
      if ← skips .flowSequenceEnd then return []
      let item ← if ← skips .key then do
          let key ← readPairKey n
          let value ← if ← skips .value then readUnless n [.comma, .flowSequenceEnd] false false
            else pure Written.empty
          pure (.mapping none none [(key, value)])
        else readNode n false false
      return item :: (← readFlowItems n false)

/-- The key of a mapping without braces.  Where there is none, the token in its place is taken for
it. -/
def readPairKey : Nat → Reading Written
  | 0 => failure
  | n + 1 => do
    if ← sees [.value, .comma, .flowSequenceEnd] then
      skip
      return .empty
    else readNode n false false

def readFlowEntries : Nat → Bool → Reading (List (Written × Written))
  | 0, _ => failure
  | n + 1, first => do
    if ← skips .flowMappingEnd then return []
    else do
      if !first then expect .comma
      if ← skips .flowMappingEnd then return []
      let ends := [Token.comma, .flowMappingEnd]
      let entry ← if ← skips .key then do
          let key ← readUnless n (.value :: ends) false false
          let value ← if ← skips .value then readUnless n ends false false else pure Written.empty
          pure (key, value)
        else do
          let key ← readNode n false false
          pure (key, Written.empty)
      return entry :: (← readFlowEntries n false)

end

def isKnownVersion (major minor : Nat) : Bool := major = 1 && (minor = 1 || minor = 2)

/-- The directives before a document, and whether there were any.  At most `n` are read, and
`versioned` says whether one before them gave a version.  No two may give a version, or say what one
handle stands for. -/
def readDirectives : Nat → Bool → Reading Bool
  | 0, _ => return false
  | n + 1, versioned => do
    match ← peek? with
    | some (.versionDirective major minor) => do
      if versioned || !isKnownVersion major minor then failure
      skip
      discard (readDirectives n true)
      return true
    | some (.tagDirective handle start) => do
      if ((← get).handles.lookup handle).isSome then failure
      skip
      modify fun source => { source with handles := (handle, start) :: source.handles }
      discard (readDirectives n versioned)
      return true
    | _ => return false

def skipEnds : Nat → Reading Unit
  | 0 => return
  | n + 1 => do
    if ← skips .documentEnd then skipEnds n

/-- The only document of a text with `n` tokens.  Where there is none, there is nothing. -/
def readDocument (n : Nat) : Reading Written := do
  if (← peek?).isNone then return .empty
  let directed ← readDirectives n false
  let marked ← skips .documentStart
  if directed && !marked then failure
  let empty ← sees [.documentStart, .documentEnd]
  let data ← if marked && (empty || (← peek?).isNone) then pure .empty
    else readNode (4 * n + 4) true false
  skipEnds n
  if (← peek?).isSome then failure
  return data

/-- The data of a text, if it is YAML. -/
def read (source : String) : Option Datum := do
  let tokens ← tokens? source
  let (data, _) ← (readDocument tokens.length).run { tokens }
  data.datum?

end ClusterBlueprint.Yaml
