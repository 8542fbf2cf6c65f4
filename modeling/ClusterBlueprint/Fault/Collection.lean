import ClusterBlueprint.Fault

/-!
Faults collected over a pass.

A collection holds single faults, no two with the same wording: adding several faults adds their
parts, and a fault whose wording is there already is left out.
-/

namespace ClusterBlueprint

/-- The faults collected so far, oldest first. -/
structure Faults where
  toList : List Fault := []

namespace Faults

instance : EmptyCollection Faults := ⟨⟨[]⟩⟩

instance : Inhabited Faults := ⟨∅⟩

/-- The collection with one more fault, unless its wording is there already. -/
def record (faults : Faults) (fault : Fault) : Faults :=
  if faults.toList.any fun old => old.message == fault.message then faults
  else ⟨faults.toList ++ [fault]⟩

/-- The collection with the parts of a fault. -/
def add (faults : Faults) (fault : Fault) : Faults := fault.parts.foldl record faults

/-- The collection with the parts of a fault, each found at a place. -/
def addAt (faults : Faults) (place : Location) (fault : Fault) : Faults :=
  (fault.parts.map (Fault.located place)).foldl record faults

/-- The collection after a check, whose value is dropped. -/
def check {α : Type} (faults : Faults) : Checked α → Faults
  | .ok _ => faults
  | .error fault => faults.add fault

def size (faults : Faults) : Nat := faults.toList.length

/-- Success if nothing was collected, else the one fault, or several in one. -/
def result (faults : Faults) : Checked Unit :=
  match faults.toList with
  | [] => .ok ()
  | [fault] => .error fault
  | faults => .error (.several faults)

end Faults

end ClusterBlueprint
