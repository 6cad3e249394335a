import JvmUnits.Error

/-!
# Failures of a run

A failure says what the run was about, and what went wrong there.
-/

namespace JvmUnits

/-- Why a run ends early. -/
inductive Failure where
  | projectMissing (path : String)
  | classPathEntryMissing (path : String)
  | scan (cause : Error)
  | outputFolder (path : String) (cause : OsError)
  | patternTooLarge (pattern : String) (sizeLimit : Nat)
  | compile (name : String) (cause : Error)
  | manifest (path : String) (cause : OsError)
  deriving DecidableEq, Repr

namespace Failure

/-- What the run was about. -/
def message : Failure → String
  | projectMissing path => "project directory not found: " ++ path
  | classPathEntryMissing path => "classpath entry not found: " ++ path
  | scan _ => "failed to scan classpath"
  | outputFolder path _ => "failed to create output directory " ++ path
  | patternTooLarge pattern _ => "invalid class pattern " ++ pattern
  | compile name _ => "failed to compile " ++ name
  | manifest path _ => "failed to create " ++ path

/-- The error of a class or of the class path behind the failure. -/
def error? : Failure → Option Error
  | scan cause => some cause
  | compile _ cause => some cause
  | _ => none

/-- The texts of the causes, from the nearest to the farthest. -/
def causes : Failure → List String
  | projectMissing _ => []
  | classPathEntryMissing _ => []
  | scan cause => cause.chain
  | outputFolder _ cause => [cause.message]
  | patternTooLarge _ sizeLimit => ["Compiled regex exceeds size limit of " ++ toString sizeLimit ++ " bytes."]
  | compile _ cause => cause.chain
  | manifest _ cause => [cause.message]

/-- All texts of the failure, from what the run was about to the farthest cause. -/
def chain (failure : Failure) : List String := failure.message :: failure.causes

end Failure

end JvmUnits
