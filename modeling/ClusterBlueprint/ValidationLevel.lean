import ClusterBlueprint.Fault

/-!
How failures of external validators are treated.
-/

namespace ClusterBlueprint

/-- What a failure of a validator does. -/
inductive ValidationLevel where
  /-- it ends the run -/
  | error
  /-- it is reported and the run goes on -/
  | warning
  /-- validators are not run -/
  | ignore
deriving DecidableEq

namespace ValidationLevel

def text : ValidationLevel → String
  | error => "ERROR"
  | warning => "WARNING"
  | ignore => "IGNORE"

def ofText? : String → Option ValidationLevel
  | "ERROR" => some error
  | "WARNING" => some warning
  | "IGNORE" => some ignore
  | _ => none

def parse (text : String) : Checked ValidationLevel :=
  match ofText? text with
  | some level => .ok level
  | none => .error (Cause.invalidValidationLevel text)

theorem ofText?_text (level : ValidationLevel) : ofText? level.text = some level := by
  cases level <;> rfl

end ValidationLevel

end ClusterBlueprint
