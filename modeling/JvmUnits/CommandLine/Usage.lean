import JvmUnits.CommandLine.Options
import JvmUnits.Compiler.Failure

/-!
# Texts of the command line
-/

namespace JvmUnits

/-- What an option with a value is for. -/
def ValueOption.purpose : ValueOption → String
  | project => "folder with the compiled classes of the project"
  | runtimeJava => "folder with replacements of platform classes, searched before the project"
  | runtimeJs => "folder of the JavaScript runtime; the files classes/*.js in it are built-in classes"
  | classPath => "further folder with classes; may be repeated"
  | output => "output folder"
  | mainClass => "pattern of the entry class, such as com.example.Main"
  | classes => "further class pattern, in which * stands for one or more characters; may be repeated"
  | builtin => "further built-in class; may be repeated"
  | home => "home package of the runtime"

/-- What an option without a value is for. -/
def Switch.purpose : Switch → String
  | quiet => "tell nothing while running"
  | timing => "tell how long the run took"
  | help => "show this text"
  | version => "show the version"

/-- The text that explains the options. -/
def helpText : String :=
  "Compiles class files into units for a JavaScript runtime.\n\nOptions:\n" ++
    String.join (ValueOption.all.map fun option => "  --" ++ option.name ++ " <VALUE>  " ++ option.purpose ++ "\n") ++
    String.join (Switch.all.map fun switch => "  --" ++ switch.name ++ "  " ++ switch.purpose ++ "\n")

/-- The name of the program and its version. -/
def versionText : String := "jvmunits 0.1.0\n"

/-- Why a command line is not run, in words. -/
def UsageStop.message : UsageStop → String
  | unknownArgument word => "unexpected argument '" ++ word ++ "' found"
  | missingValue option => "a value is required for '--" ++ option.name ++ "'"
  | emptyValue option => "the value of '--" ++ option.name ++ "' is empty"
  | repeated name => "the argument '--" ++ name ++ "' cannot be used multiple times"
  | unexpectedValue switch => "the argument '--" ++ switch.name ++ "' takes no value"
  | missingProject => "the argument '--project' is required"
  | help => helpText
  | version => versionText

/-- A failure in words, with its causes below it; several causes are numbered. -/
def Failure.report (failure : Failure) : String :=
  let lines := match failure.causes with
    | [] => []
    | [cause] => ["\nCaused by:", "    " ++ cause]
    | causes => "\nCaused by:" :: causes.zipIdx.map fun (cause, i) => "    " ++ toString i ++ ": " ++ cause
  "\n".intercalate (("Error: " ++ failure.message) :: lines)

end JvmUnits
