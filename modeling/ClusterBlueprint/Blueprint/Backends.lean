import ClusterBlueprint.Blueprint.Basic

/-!
The backends of the groups of a blueprint.

A group without a backend has the default one.  A bucket that several groups keep their state in
needs a prefix of its own for each of them.
-/

namespace ClusterBlueprint.Backends

def bucketType : String := "gcs"

/-- The setting that keeps the states of groups in one bucket apart. -/
def prefixName : String := "prefix"

/-- The prefix of a group: the names of the blueprint, of the deployment and of the group. -/
def groupPrefix (bp : Blueprint) (group : String) : Value :=
  .expression ⟨.template [
    .literal (bp.name ++ "/"),
    .interpolation (Reference.global Blueprint.deploymentVariable).toTerm,
    .literal ("/" ++ group)]⟩

def withPrefix (bp : Blueprint) (group : String) (backend : Backend) : Backend :=
  if backend.type = bucketType && !backend.configuration.has prefixName then
    { backend with configuration := backend.configuration.set prefixName (groupPrefix bp group) }
  else backend

def inherited (bp : Blueprint) (group : Group) : Option Backend :=
  match group.backend with
  | some backend => some backend
  | none => if bp.backendDefaults.isEmpty then none else some bp.backendDefaults

/-- The blueprint with a backend for every group. -/
def expand (bp : Blueprint) : Blueprint :=
  { bp with groups := bp.groups.map fun group =>
      { group with backend := (inherited bp group).map (withPrefix bp group.name) } }

def evaluate (bp : Blueprint) (place : Location) (backend : Backend) : Checked Backend := do
  let configuration ← (bp.evalDict backend.configuration).located (place.field .configuration)
  return { backend with configuration }

/-- The blueprint with the configurations of all backends evaluated. -/
def materialize (bp : Blueprint) : Checked Blueprint := do
  let backendDefaults ← evaluate bp (Location.root.field .backendDefaults) bp.backendDefaults
  let groups ← bp.groups.zipIdx.mapM fun (group, i) => do
    match group.backend with
    | none => return group
    | some backend =>
      let backend ← evaluate bp ((Location.group i).field .backend) backend
      return { group with backend := some backend }
  return { bp with backendDefaults, groups }

end ClusterBlueprint.Backends
