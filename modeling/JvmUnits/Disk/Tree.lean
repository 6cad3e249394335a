import JvmUnits.Bytes

/-!
# Trees of files

A tree is a file with its bytes or a folder with its named entries. The order of the entries is the order in which the folder
is listed; nothing may depend on it.
-/

namespace JvmUnits

/-- A file, or a folder with all that is below it. -/
inductive FileTree where
  | file (data : Bytes)
  | folder (entries : List (String × FileTree))

namespace FileTree

/-- What stands below a tree at a chain of names. -/
def get? : List String → FileTree → Option FileTree
  | [], tree => some tree
  | _ :: _, file _ => none
  | name :: rest, folder entries =>
    match entries.lookup name with
    | none => none
    | some tree => tree.get? rest

/-- Changes the entry with a name, or adds it at the end. -/
def change (name : String) (becomes : Option FileTree → FileTree) :
    List (String × FileTree) → List (String × FileTree)
  | [] => [(name, becomes none)]
  | (other, tree) :: rest =>
    if other == name then (other, becomes (some tree)) :: rest else (other, tree) :: change name becomes rest

/-- Puts a tree at a chain of names; missing folders on the way are made, and below a file nothing changes. -/
def put (content : FileTree) : List String → FileTree → FileTree
  | [], _ => content
  | _ :: _, file data => file data
  | name :: rest, folder entries =>
    folder (change name (fun found => put content rest (found.getD (folder []))) entries)

mutual

/-- The files of a tree: the chain of names that leads to each, and its bytes. -/
def files : FileTree → List (List String × Bytes)
  | file data => [([], data)]
  | folder entries => filesIn entries

/-- The files below the entries of a folder. -/
def filesIn : List (String × FileTree) → List (List String × Bytes)
  | [] => []
  | (name, tree) :: rest => (tree.files.map fun found => (name :: found.1, found.2)) ++ filesIn rest

end

end FileTree

end JvmUnits
