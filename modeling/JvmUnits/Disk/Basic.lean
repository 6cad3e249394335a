import JvmUnits.Disk.OsError
import JvmUnits.Disk.Path
import JvmUnits.Disk.Tree

/-!
# The disk

A disk is a tree of files with a working folder. Operations that change it keep what they changed before they were refused.
-/

namespace JvmUnits

/-- A place below the top of a tree: the names that lead to it, the last one first, each with what stands there. -/
structure Place where
  top : FileTree
  trail : List (String × Option FileTree)

namespace Place

/-- The chain of names that leads from the top to the place. -/
def names (place : Place) : List String := (place.trail.map (·.1)).reverse

/-- What stands at the place. -/
def content? (place : Place) : Option FileTree :=
  match place.trail with
  | [] => some place.top
  | (_, content) :: _ => content

/-- The place with a name below a place. -/
def below (place : Place) (name : String) : Place :=
  { place with trail := (name, place.content?.bind (·.get? [name])) :: place.trail }

/-- The place above a place; the top is above itself. -/
def above (place : Place) : Place := { place with trail := place.trail.tail }

/-- Follows a part of a path. Whatever a part is looked up in has to be a folder. -/
def follow (place : Place) (part : String) : Except OsError Place :=
  match place.content? with
  | none => .error .notFound
  | some (.file _) => .error .notADirectory
  | some (.folder _) =>
    if Path.stays part then .ok place
    else if part == ".." then .ok place.above
    else if part.utf8ByteSize > Path.nameLimit then .error .nameTooLong
    else .ok (place.below part)

end Place

/-- All files, and the chain of names of the folder at which relative paths start. -/
structure Disk where
  tree : FileTree
  workingFolder : List String

namespace Disk

/-- A disk with nothing on it. -/
def empty : Disk := ⟨.folder [], []⟩

/-- The chain of names of the folder at which a path starts. -/
def origin (disk : Disk) (path : String) : List String := if Path.isAbsolute path then [] else disk.workingFolder

/-- The place that parts lead to from where a path starts; what stands there may be missing. -/
def walk (disk : Disk) (path : String) (parts : List String) : Except OsError Place :=
  if path.toList.contains '\x00' then .error .nulInPath
  else if path.isEmpty then .error .notFound
  else if path.utf8ByteSize > Path.lengthLimit then .error .nameTooLong
  else parts.foldlM Place.follow ((disk.origin path).foldl Place.below ⟨disk.tree, []⟩)

/-- The place that a path leads to. -/
def place (disk : Disk) (path : String) : Except OsError Place := disk.walk path (Path.parts path)

/-- The place of a folder that a path asks for: slashes at the end of the path do not count. -/
def folderPlace (disk : Disk) (path : String) : Except OsError Place :=
  disk.walk path ((Path.parts path).reverse.dropWhile (· == "")).reverse

/-- What a path leads to. -/
def find (disk : Disk) (path : String) : Except OsError FileTree :=
  match disk.place path with
  | .error e => .error e
  | .ok place =>
    match place.content? with
    | none => .error .notFound
    | some tree => .ok tree

/-- The path leads to a folder. -/
def isFolder (disk : Disk) (path : String) : Bool :=
  match disk.find path with
  | .ok (.folder _) => true
  | _ => false

/-- The bytes of a file. -/
def read (disk : Disk) (path : String) : Except OsError Bytes :=
  match disk.find path with
  | .ok (.file data) => .ok data
  | .ok (.folder _) => .error .isADirectory
  | .error e => .error e

/-- The entries of a folder. -/
def entries (disk : Disk) (path : String) : Except OsError (List (String × FileTree)) :=
  match disk.find path with
  | .ok (.folder entries) => .ok entries
  | .ok (.file _) => .error .notADirectory
  | .error e => .error e

/-- The files below a folder; none where there is no folder. -/
def filesBelow (disk : Disk) (path : String) : List (List String × Bytes) :=
  match disk.entries path with
  | .ok entries => FileTree.filesIn entries
  | .error _ => []

/-- The disk with something put at a chain of names. -/
def put (disk : Disk) (names : List String) (content : FileTree) : Disk :=
  { disk with tree := FileTree.put content names disk.tree }

end Disk

/-- An operation on a disk that may be refused. -/
abbrev DiskAction (α : Type) := ExceptT OsError (StateM Disk) α

namespace DiskAction

/-- Looks at the disk. -/
def look {α : Type} (view : Disk → Except OsError α) : DiskAction α := do
  liftExcept (view (← get))
where
  /-- An answer or a refusal that is known already. -/
  liftExcept : Except OsError α → DiskAction α
    | .ok value => pure value
    | .error e => throw e

/-- Creates a folder inside a folder that exists. -/
def createFolder (path : String) : DiskAction Unit := do
  let place ← look (·.folderPlace path)
  match place.content? with
  | some _ => throw .alreadyExists
  | none => modify (·.put place.names (.folder []))

/-- Creates a folder that may exist already. -/
def ensureFolder (path : String) : DiskAction Unit := do
  tryCatch (createFolder path) fun refusal => do
    if (← get).isFolder path then pure () else throw refusal

/-- Creates a folder that may exist already, given by its parts from the last to the first, and before it those above it that
are missing. -/
def ensureFolders (reversed : List String) : DiskAction Unit :=
  let path := Path.ofParts reversed.reverse
  if _h : reversed = [] then pure ()
  else tryCatch (ensureFolder path) fun
    | .notFound => do
      ensureFolders (Path.partsAbove reversed)
      ensureFolder path
    | refusal => throw refusal
termination_by reversed.length
decreasing_by exact Path.length_partsAbove_lt _h

/-- Creates a folder and those above it, as far as they are missing. The empty path stands for the working folder. -/
def createFolders (path : String) : DiskAction Unit :=
  if path.isEmpty then pure () else ensureFolders (Path.parts path).reverse

/-- Writes a file inside a folder that exists, in place of a file that was there. -/
def write (path : String) (data : Bytes) : DiskAction Unit := do
  let place ← look (·.place path)
  match place.content? with
  | some (.folder _) => throw .isADirectory
  | _ => modify (·.put place.names (.file data))

/-- Copies a file. The target is emptied before the source is read, so a file copied onto itself is left empty. -/
def copy (source target : String) : DiskAction Unit := do
  discard (look (·.read source))
  write target []
  write target (← look (·.read source))

end DiskAction

end JvmUnits
