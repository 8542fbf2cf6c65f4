/-!
The deployment tool that a module is written for.
-/

namespace ClusterBlueprint

/-- The kind of a module.  A group has no kind of its own: it has that of its modules. -/
inductive ModuleKind where
  /-- not declared, and not settled yet -/
  | unknown
  | terraform
  | packer
deriving DecidableEq

namespace ModuleKind

def text : ModuleKind → String
  | unknown => ""
  | terraform => "terraform"
  | packer => "packer"

def display : ModuleKind → String
  | unknown => "unknown"
  | kind => kind.text

def ofText? : String → Option ModuleKind
  | "" => some unknown
  | "terraform" => some terraform
  | "packer" => some packer
  | _ => none

theorem ofText?_text (kind : ModuleKind) : ofText? kind.text = some kind := by
  cases kind <;> rfl

end ModuleKind

end ClusterBlueprint
