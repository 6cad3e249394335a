import JvmUnits.Text.Blank
import JvmUnits.Text.Pieces

/-!
# Service descriptors

A service descriptor lists the classes that implement a service, one to a line. A `#` starts a comment, white space at the
ends of a line does not count, and class names are written with dots.
-/

namespace JvmUnits

namespace ServiceDescriptor

/-- What a line of a service descriptor lists: the class name before any comment, with slashes; empty where there is none. -/
def lineClass (line : List Char) : List Char :=
  replaceChar '.' '/' (trimBlanks (line.takeWhile (· ≠ '#')))

/-- The classes that a service descriptor lists, in order. -/
def classes (content : String) : List String :=
  (((pieces '\n' content.toList).map lineClass).filter (!·.isEmpty)).map String.ofList

end ServiceDescriptor

end JvmUnits
