import ClusterBlueprint.Fault
import ClusterBlueprint.Interface
import ClusterBlueprint.SortedMap

/-!
The catalog of modules: interfaces under the sources of the modules.
-/

namespace ClusterBlueprint

/-- What a catalog knows of one source. -/
structure CatalogEntry where
  /-- the kind of the module; an unknown kind stands for every kind -/
  kind : ModuleKind := .unknown
  interface : Interface := {}
deriving DecidableEq

/-- Interfaces under sources. -/
structure Catalog where
  modules : SortedMap CatalogEntry

namespace Catalog

instance : EmptyCollection Catalog := ⟨⟨∅⟩⟩

instance : Inhabited Catalog := ⟨∅⟩

def interface (catalog : Catalog) (source : String) (kind : ModuleKind) : Checked Interface :=
  match catalog.modules.find? source with
  | some entry =>
    if entry.kind = .unknown || entry.kind = kind then .ok entry.interface
    else .error (Cause.moduleInfoNotFound source kind)
  | none => .error (Cause.moduleInfoNotFound source kind)

end Catalog

end ClusterBlueprint
