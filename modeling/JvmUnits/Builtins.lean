import JvmUnits.Disk.Basic
import JvmUnits.Text.Pieces
import Std.Data.TreeSet

/-!
# Built-in classes

The runtime implements some classes itself. They are known by their runtime names and are never compiled.
-/

namespace JvmUnits

/-- The runtime names of the classes that the runtime implements. -/
abbrev Builtins := Std.TreeSet String

namespace Builtins

/-- The classes that the runtime needs whatever a program uses. -/
def required : List String :=
  ["Throwable", "Exception", "VirtualMachineError", "UnsatisfiedLinkError", "ClassNotFoundException",
    "IllegalArgumentException", "UnsupportedOperationException", "NullPointerException", "RuntimeException", "Iterator",
    "Number", "Class"].map ("java/lang/" ++ ·)

/-- The class that an entry of the runtime's class folder implements: `java_lang_Object.js` is `java/lang/Object`. -/
def className? : String × FileTree → Option String
  | (_, .folder _) => none
  | (name, .file _) =>
    (withoutEnding ".js".toList name.toList).map fun stem => String.ofList (replaceChar '_' '/' stem)

/-- Adds names. -/
def addAll (builtins : Builtins) (names : List String) : Builtins := names.foldl (·.insert ·) builtins

/-- The classes implemented in the folder `classes` of a runtime; none where there is no such folder. -/
def scan (disk : Disk) (runtime : String) : Builtins :=
  match disk.entries (Path.join runtime "classes") with
  | .error _ => ∅
  | .ok entries => addAll ∅ (entries.filterMap className?)

end Builtins

end JvmUnits
