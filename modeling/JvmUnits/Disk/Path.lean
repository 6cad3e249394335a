import JvmUnits.Text.Pieces

/-!
# Paths

A path is a text whose parts stand between slashes. An empty part and a single dot stay where they are, and two dots go up.
Paths are kept as they are written, because messages show them so.
-/

namespace JvmUnits

namespace Path

/-- The parts of a path. -/
def parts (path : String) : List String := (pieces '/' path.toList).map String.ofList

/-- The path with the given parts. -/
def ofParts (parts : List String) : String := "/".intercalate parts

/-- A part that stays where it is. -/
def stays (part : String) : Bool := part == "" || part == "."

/-- The place that a part leads to from a folder: both are chains of names from the top of the disk. -/
def step (folder : List String) (part : String) : List String :=
  if stays part then folder else if part == ".." then folder.dropLast else folder ++ [part]

/-- The most bytes of a name in a folder. -/
def nameLimit : Nat := 255

/-- The most bytes of a path. -/
def lengthLimit : Nat := 4095

/-- A path that starts at the top of the disk. -/
def isAbsolute (path : String) : Bool := "/".toList.isPrefixOf path.toList

/-- A path inside a folder; the slash between them is not repeated. -/
def join (folder inner : String) : String :=
  if folder.isEmpty || "/".toList.isSuffixOf folder.toList then folder ++ inner else folder ++ "/" ++ inner

/-- The parts above the last one that counts, last part first on both sides. -/
def partsAbove (reversed : List String) : List String := ((reversed.dropWhile stays).drop 1).dropWhile stays

/-- There are fewer parts above than there are parts. -/
theorem length_partsAbove_lt {reversed : List String} (h : reversed ≠ []) :
    (partsAbove reversed).length < reversed.length := by
  have outer := (List.dropWhile_sublist stays (l := (reversed.dropWhile stays).drop 1)).length_le
  have inner := (List.dropWhile_sublist stays (l := reversed)).length_le
  have pos := List.length_pos_iff.mpr h
  simp only [partsAbove]
  rw [List.length_drop] at outer
  omega

/-- The path of the folder that holds what a path leads to. -/
def parent (path : String) : String := ofParts (partsAbove (parts path).reverse).reverse

/-- The last part of a path. -/
def fileName (path : String) : String := (parts path).getLastD ""

end Path

end JvmUnits
