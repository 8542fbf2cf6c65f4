import ClusterBlueprint.Yaml.Token

/-!
What tags say of data.
-/

namespace ClusterBlueprint.Yaml

inductive Tag where
  /-- one of the kinds of scalars of the core schema -/
  | bool | integer | float | null
  /-- a tag of the document's own, without its exclamation mark -/
  | own (name : String)
  /-- a tag of the document's own that is no text -/
  | unreadable
  /-- any other tag, which says nothing -/
  | foreign
deriving DecidableEq

def coreStart : String := "tag:yaml.org,2002:"

def unmarked (text : String) : String :=
  match text.toList with
  | '!' :: c :: rest => String.ofList (c :: rest)
  | _ => text

/-- What a whole tag says. -/
def Tag.ofText (tag : TagText) : Tag :=
  if tag.text.toList.head? = some '!' then
    if tag.readable then own (unmarked tag.text) else unreadable
  else if !tag.readable then foreign
  else if tag.text = coreStart ++ "bool" then bool
  else if tag.text = coreStart ++ "int" then integer
  else if tag.text = coreStart ++ "float" then float
  else if tag.text = coreStart ++ "null" then null
  else foreign

end ClusterBlueprint.Yaml
