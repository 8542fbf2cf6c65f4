/-!
The tokens of YAML.

The indentation of blocks is made explicit: a block collection opens before its first entry and
closes where a line is indented less.
-/

namespace ClusterBlueprint.Yaml

/-- How a scalar is written. -/
inductive Style where
  /-- without quotes; only such scalars can stand for something else than text -/
  | plain
  /-- in quotes, single or double -/
  | quoted
  /-- as lines that stay as they are -/
  | literal
  /-- as lines that are joined -/
  | folded
deriving DecidableEq

/-- A part of a tag.  Its characters may be written as the bytes of their encoding, and those may
be no encoding of any character. -/
structure TagText where
  text : String
  /-- whether every character could be read; U+FFFD stands for those that could not -/
  readable : Bool := true
deriving DecidableEq

def TagText.append (first second : TagText) : TagText :=
  ⟨first.text ++ second.text, first.readable && second.readable⟩

inductive Token where
  /-- a directive line that gives what a tag handle stands for -/
  | tagDirective (handle : String) (start : TagText)
  /-- a directive line that gives the version -/
  | versionDirective (major minor : Nat)
  | documentStart
  | documentEnd
  | blockSequence
  | blockMapping
  | blockEnd
  | flowSequence
  | flowSequenceEnd
  | flowMapping
  | flowMappingEnd
  /-- the dash before an item of a block sequence -/
  | item
  /-- the comma in a flow collection -/
  | comma
  | key
  | value
  | alias (name : String)
  | anchor (name : String)
  /-- a tag; without a handle it is written in full -/
  | tag (handle : Option String) (suffix : TagText)
  | scalar (text : String) (style : Style)
deriving DecidableEq

end ClusterBlueprint.Yaml
