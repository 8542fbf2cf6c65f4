/-!
The interfaces of modules.

What the sources of a module say about it is known beforehand: the inputs it takes and the outputs
it has.
-/

namespace ClusterBlueprint

structure Input where
  name : String
  /-- the declared type, such as `list(string)` -/
  type : String := ""
  description : Option String := none
  /-- whether a value has to be given -/
  required : Bool := false
deriving DecidableEq

/-- Whether an input takes a list, and so can take the outputs of several modules. -/
def Input.isList (input : Input) : Bool := "list".toList.isPrefixOf input.type.toList

structure Output where
  name : String
  description : Option String := none
  /-- whether the value is to be hidden -/
  sensitive : Bool := false
deriving DecidableEq

structure Interface where
  inputs : List Input := []
  outputs : List Output := []
deriving DecidableEq

namespace Interface

def input? (interface : Interface) (name : String) : Option Input :=
  interface.inputs.find? (·.name = name)

def hasOutput (interface : Interface) (name : String) : Bool :=
  interface.outputs.any (·.name = name)

end Interface

end ClusterBlueprint
