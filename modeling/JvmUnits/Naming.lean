/-!
# Runtime names

The runtime keeps its replacements of the platform classes `java/…` and `javax/…` in a package of its own, the home package.
A class has a *runtime name*, from which the home package is removed, and a *physical name*, under which its class file is
looked up: platform classes are looked up in the home package, all others under their own name.
-/

namespace JvmUnits

/-- Removes every occurrence of a pattern, from left to right and without overlap. The number counts the characters still to
be passed over: they belong to the occurrence found last. -/
def eraseOccurrences (pattern : List Char) : Nat → List Char → List Char
  | _, [] => []
  | skip + 1, _ :: rest => eraseOccurrences pattern skip rest
  | 0, c :: rest =>
    if pattern.isPrefixOf (c :: rest) then eraseOccurrences pattern (pattern.length - 1) rest
    else c :: eraseOccurrences pattern 0 rest

/-- How class names are related to the home package of the runtime, a path that ends in a slash as a rule. -/
structure Naming where
  home : String
  deriving DecidableEq, Repr

namespace Naming

/-- The home package of the standard runtime. -/
def standard : Naming := ⟨"net/nexustools/jvm/runtime/"⟩

/-- The runtime name: the name with every occurrence of the home package removed. -/
def strip (naming : Naming) (name : String) : String :=
  if naming.home.isEmpty then name
  else String.ofList (eraseOccurrences naming.home.toList 0 name.toList)

/-- A class of the platform: its name starts with `java/` or `javax/`. -/
def isPlatform (name : String) : Bool :=
  "java/".toList.isPrefixOf name.toList || "javax/".toList.isPrefixOf name.toList

/-- The name under which the class file is looked up. -/
def physical (naming : Naming) (name : String) : String :=
  if isPlatform name then naming.home ++ name else name

end Naming

/-- A name as part of a JavaScript identifier: letters, digits and underscores of ASCII are kept, all else becomes `_`. -/
def mangle (name : String) : String :=
  String.ofList (name.toList.map fun c => if c.isAlphanum || c == '_' then c else '_')

end JvmUnits
