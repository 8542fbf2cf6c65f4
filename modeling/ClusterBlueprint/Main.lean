import ClusterBlueprint.CommandLine

/-!
The program: it reads the files that its arguments name and writes the answer.
-/

open ClusterBlueprint CommandLine

def readText? (path : String) : IO (Option String) := do
  try
    return some (← IO.FS.readFile path)
  catch _ => return none

def writeAnswer (answer : Answer) : IO (Except Failure Unit) := do
  match answer.out with
  | none =>
    IO.print answer.line
    return .ok ()
  | some path =>
    try
      IO.FS.writeFile path answer.text
      return .ok ()
    catch _ => return .error (.unwritable path)

/-- A request answered, with the code to leave the program with. -/
def fulfil (request : Request) : IO UInt32 := do
  let catalog ← readText? request.modules
  let blueprint ← readText? request.blueprint
  let directory := (← IO.currentDir).toString
  let written ← match request.answer directory catalog blueprint with
    | .ok answer => writeAnswer answer
    | .error failure => pure (.error failure)
  match written with
  | .ok _ => return 0
  | .error failure =>
    IO.eprintln ("Error: " ++ failure.message)
    return 1

def main (args : List String) : IO UInt32 := do
  match Request.ofArguments (← IO.getEnv "GHPC_MODULES") args with
  | .ok request => fulfil request
  | .error error =>
    IO.eprintln error.message
    return if error = .helpWanted || error = .versionWanted then 0 else 2
