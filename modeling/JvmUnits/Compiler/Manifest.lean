import JvmUnits.Compiler.State
import JvmUnits.Json.Basic

/-!
# The manifest

The manifest tells the loader of a program what a compilation has produced.
-/

namespace JvmUnits

/-- Lists of names in JSON, by key. -/
def listsJson (lists : Std.TreeMap String (List String)) : Json :=
  .object (lists.toList.map fun (key, names) => (key, .ofStrings names))

/-- The manifest of a compilation. -/
def BuildState.manifest (naming : Naming) (state : BuildState) : Json :=
  .object [
    ("compiled", .ofStrings state.compiled),
    ("natives", .ofStrings state.natives),
    ("builtinsUsed", .ofStrings state.builtinsUsed.toList),
    ("services", listsJson state.services),
    ("runtimeFragments", .ofStrings state.fragments),
    ("references", listsJson (state.references naming))]

end JvmUnits
