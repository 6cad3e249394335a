import JvmUnits.ClassPath.Pattern
import JvmUnits.ClassPath.Services
import JvmUnits.Disk.Basic
import JvmUnits.Error
import JvmUnits.Text.Utf8
import Std.Data.TreeMap

/-!
# The index of a class path

A class path is a list of root folders. Its index merges them: a file is found by its path inside a root, and the first root
that has the path provides the file. Entries whose name starts with a dot or ends with a tilde are passed over. The index also
gathers the descriptors in `META-INF/services` of every root, and the scripts to be loaded before any class.

The files of a root are taken in the order of their paths, compared name by name, so the order in which folders are listed
does not matter.
-/

namespace JvmUnits

/-- Where a file of the class path is: its path, and the number of the root that provides it. -/
structure IndexEntry where
  path : String
  root : Nat
  deriving DecidableEq, Repr

/-- The files of a class path, by their paths inside the roots; the scripts to be loaded first; the classes that implement
each service; and all these classes in the order in which they were found. -/
structure ClassIndex where
  entries : Std.TreeMap String IndexEntry := ∅
  fragments : List String := []
  services : Std.TreeMap String (List String) := ∅
  serviceClasses : List String := []

/-- A root of a class path: its path, and its entries unless it cannot be opened. -/
structure ClassRoot where
  path : String
  listing : Except OsError (List (String × FileTree))

/-- A name that is passed over in a root. -/
def isIgnoredName (name : String) : Bool :=
  ".".toList.isPrefixOf name.toList || "~".toList.isSuffixOf name.toList

/-- The files of a root that count, in the order of their paths. -/
def indexedFiles (listing : List (String × FileTree)) : List (List String × Bytes) :=
  ((FileTree.filesIn listing).filter fun found => !found.1.any isIgnoredName).mergeSort
    fun one other => !decide (other.1 < one.1)

/-- The file is a script to be loaded before any class. -/
def isFragment (names : List String) : Bool := names == ["runtime.js"] || names == ["META-INF", "runtime.js"]

/-- The service that a file describes. -/
def describedService? : List String → Option String
  | ["META-INF", "services", service] => some service
  | _ => none

namespace ClassIndex

/-- Adds the classes that a descriptor of a service lists. -/
def addService (index : ClassIndex) (service : String) (classes : List String) : ClassIndex :=
  { index with
    services := index.services.alter service fun known => some (known.getD [] ++ classes)
    serviceClasses := index.serviceClasses ++ classes }

/-- Adds a file of a root. -/
def addFile (root : Nat) (rootPath : String) (index : ClassIndex) (found : List String × Bytes) :
    Except Error ClassIndex := do
  let inner := Path.ofParts found.1
  let path := Path.join rootPath inner
  let index ←
    if isFragment found.1 then pure { index with fragments := index.fragments ++ [path] }
    else match describedService? found.1 with
      | none => pure index
      | some service =>
        match Utf8.decode found.2 with
        | none => .error (.file path .notUtf8)
        | some content => pure (index.addService service (ServiceDescriptor.classes content))
  pure { index with entries := index.entries.insertIfNew inner ⟨path, root⟩ }

/-- Adds the files of a root. -/
def addRoot (index : ClassIndex) (root : ClassRoot × Nat) : Except Error ClassIndex :=
  match root.1.listing with
  | .error cause => .error (.file root.1.path cause)
  | .ok listing => (indexedFiles listing).foldlM (addFile root.2 root.1.path) index

/-- The index of a list of roots. -/
def scan (roots : List ClassRoot) : Except Error ClassIndex := roots.zipIdx.foldlM addRoot {}

/-- Where the file with a path inside the roots is. -/
def resolve (index : ClassIndex) (path : String) : Option IndexEntry := index.entries[path]?

/-- The number of files in the index. -/
def size (index : ClassIndex) : Nat := index.entries.size

/-- The path inside a root of the file of a class. -/
def classFilePath (name : String) : String := name ++ String.ofList classEnding

/-- The name of the class whose file has a path inside a root. -/
def className? (path : String) : Option String := (withoutEnding classEnding path.toList).map String.ofList

/-- The file of a class has the name of that class. -/
theorem className?_classFilePath (name : String) : className? (classFilePath name) = some name := by
  simp [className?, classFilePath, String.toList_append, withoutEnding_append]

/-- The names of the classes in the index, in the order of their paths. -/
def classNames (index : ClassIndex) : List String := index.entries.keys.filterMap className?

/-- The names of the classes that some pattern selects, in the order of their paths. -/
def matchingClasses (index : ClassIndex) (patterns : List ClassPattern) : List String :=
  (index.entries.keys.filter fun path => patterns.any (·.selects path)).filterMap className?

end ClassIndex

/-- The root that a path leads to. -/
def Disk.classRoot (disk : Disk) (path : String) : ClassRoot := ⟨path, disk.entries path⟩

end JvmUnits
