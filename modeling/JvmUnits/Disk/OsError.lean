/-!
# Refusals of the file system
-/

namespace JvmUnits

/-- Why a file operation is refused. -/
inductive OsError where
  | notFound | alreadyExists | notADirectory | isADirectory | nameTooLong | nulInPath | notUtf8
  deriving DecidableEq, Repr

/-- The refusal in the words of the system. -/
def OsError.message : OsError → String
  | notFound => "No such file or directory (os error 2)"
  | alreadyExists => "File exists (os error 17)"
  | notADirectory => "Not a directory (os error 20)"
  | isADirectory => "Is a directory (os error 21)"
  | nameTooLong => "File name too long (os error 36)"
  | nulInPath => "file name contained an unexpected NUL byte"
  | notUtf8 => "stream did not contain valid UTF-8"

end JvmUnits
