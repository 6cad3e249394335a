import JvmUnits.ClassPath.Index
import Mathlib.Data.List.Nodup

/-!
# The files of a tree

A tree in which no folder has two entries of one name lists each of its files once, with the chain of names that leads to it
(`FileTree.mem_files_iff`, `FileTree.nodup_files`). The files of a root that count are those with no hidden name on their
chain (`mem_indexedFiles_iff`, `nodup_indexedFiles`).
-/

namespace JvmUnits

/-- Where no key stands twice, a key is looked up as the value that stands beside it. -/
theorem lookup_eq_some_iff_mem {α β : Type} [BEq α] [LawfulBEq α] {pairs : List (α × β)}
    (keys : (pairs.map Prod.fst).Nodup) {key : α} {value : β} : pairs.lookup key = some value ↔ (key, value) ∈ pairs := by
  induction pairs with
  | nil => simp
  | cons pair rest ih =>
    obtain ⟨first, found⟩ := pair
    obtain ⟨fresh, others⟩ := List.nodup_cons.mp keys
    by_cases same : key = first
    · subst same
      have absent : (key, value) ∉ rest := fun mem => fresh (List.mem_map.mpr ⟨(key, value), mem, rfl⟩)
      simp [absent, eq_comm]
    · have differs : (key == first) = false := by simpa using same
      simp [List.lookup_cons, differs, same, ih others]

/-- What the pairs with a key give is what the value of the key gives, where no key stands twice. -/
theorem flatMap_eq_of_nodup {α β γ : Type} [BEq α] [LawfulBEq α] [DecidableEq α] {pairs : List (α × β)}
    (keys : (pairs.map Prod.fst).Nodup) (key : α) (give : β → List γ) :
    (pairs.flatMap fun pair => if pair.1 = key then give pair.2 else []) = ((pairs.lookup key).map give).getD [] := by
  induction pairs with
  | nil => rfl
  | cons pair rest ih =>
    obtain ⟨first, found⟩ := pair
    obtain ⟨fresh, others⟩ := List.nodup_cons.mp keys
    by_cases same : first = key
    · subst same
      have nothing : (rest.flatMap fun pair => if pair.1 = first then give pair.2 else []) = [] := by
        refine List.flatMap_eq_nil_iff.mpr fun pair mem => if_neg ?_
        rintro rfl
        exact fresh (List.mem_map.mpr ⟨pair, mem, rfl⟩)
      simp [nothing]
    · have differs : (key == first) = false := by simpa using Ne.symm same
      simp [List.lookup_cons, differs, same, ih others]

namespace FileTree

/-- In every folder of the tree the entries have different names. -/
inductive Distinct : FileTree → Prop where
  | file (data : Bytes) : Distinct (file data)
  | folder {entries : List (String × FileTree)} (names : (entries.map Prod.fst).Nodup)
      (each : ∀ entry ∈ entries, Distinct entry.2) : Distinct (folder entries)

@[simp] theorem distinct_file (data : Bytes) : (file data).Distinct := .file data

@[simp] theorem distinct_folder_iff {entries : List (String × FileTree)} :
    (folder entries).Distinct ↔ (entries.map Prod.fst).Nodup ∧ ∀ entry ∈ entries, entry.2.Distinct := by
  constructor
  · intro distinct
    cases distinct with
    | folder names each => exact ⟨names, each⟩
  · rintro ⟨names, each⟩
    exact .folder names each

/-- The files of a folder are those of its entries, each with the name of the entry in front. -/
theorem filesIn_eq_flatMap (entries : List (String × FileTree)) :
    filesIn entries = entries.flatMap fun entry => entry.2.files.map fun found => (entry.1 :: found.1, found.2) := by
  induction entries with
  | nil => rfl
  | cons entry rest ih => rw [filesIn, ih, List.flatMap_cons]

/-- A file is listed with a chain of names exactly when this chain leads to it. -/
theorem mem_files_iff {tree : FileTree} (distinct : tree.Distinct) {names : List String} {data : Bytes} :
    (names, data) ∈ tree.files ↔ tree.get? names = some (.file data) := by
  induction distinct generalizing names with
  | file own =>
    cases names with
    | nil => simp [files, get?, eq_comm]
    | cons name rest => simp [files, get?]
  | @folder entries nodup each ih =>
    cases names with
    | nil => simp [files, filesIn_eq_flatMap, get?]
    | cons name rest =>
      have found : (name :: rest, data) ∈ (folder entries).files ↔
          ∃ tree, (name, tree) ∈ entries ∧ (rest, data) ∈ tree.files := by
        simp [files, filesIn_eq_flatMap]
      rw [found, get?]
      constructor
      · rintro ⟨tree, mem, listed⟩
        rw [(lookup_eq_some_iff_mem nodup).mpr mem]
        exact (ih (name, tree) mem).mp listed
      · intro reached
        cases known : entries.lookup name with
        | none =>
          rw [known] at reached
          cases reached
        | some tree =>
          rw [known] at reached
          have mem := (lookup_eq_some_iff_mem nodup).mp known
          exact ⟨tree, mem, (ih (name, tree) mem).mpr reached⟩

/-- No chain of names is listed twice. -/
theorem nodup_files {tree : FileTree} (distinct : tree.Distinct) : (tree.files.map Prod.fst).Nodup := by
  induction distinct with
  | file data => simp [files]
  | @folder entries nodup each ih =>
    rw [files, filesIn_eq_flatMap, List.map_flatMap, List.nodup_flatMap]
    constructor
    · intro entry mem
      have below := (ih entry mem).map (List.cons_injective (a := entry.1))
      rwa [List.map_map] at below ⊢
    · -- the chains below two entries differ in their first name
      rw [List.Nodup, List.pairwise_map] at nodup
      refine nodup.imp fun {one other} apart => ?_
      intro names first second
      simp only [List.map_map, List.mem_map, Function.comp_apply] at first second
      obtain ⟨_, _, rfl⟩ := first
      obtain ⟨_, _, same⟩ := second
      exact apart (List.cons.inj same).1.symm

end FileTree

/-- The name starts with a dot or ends with a tilde. -/
def IsHidden (name : String) : Prop := name.toList.head? = some '.' ∨ name.toList.getLast? = some '~'

instance (name : String) : Decidable (IsHidden name) := inferInstanceAs (Decidable (_ ∨ _))

/-- A name is ignored exactly if it is hidden. -/
theorem isIgnoredName_iff {name : String} : isIgnoredName name = true ↔ IsHidden name := by
  have first : ".".toList <+: name.toList ↔ name.toList.head? = some '.' := by
    rw [List.head?_eq_some_iff]
    exact ⟨fun ⟨rest, same⟩ => ⟨rest, same.symm⟩, fun ⟨rest, same⟩ => ⟨rest, same.symm⟩⟩
  have last : "~".toList <:+ name.toList ↔ name.toList.getLast? = some '~' := by
    rw [List.getLast?_eq_some_iff]
    exact ⟨fun ⟨front, same⟩ => ⟨front, same.symm⟩, fun ⟨front, same⟩ => ⟨front, same.symm⟩⟩
  rw [isIgnoredName, Bool.or_eq_true, List.isPrefixOf_iff_prefix, List.isSuffixOf_iff_suffix, first, last, IsHidden]

section

variable {entries : List (String × FileTree)} (distinct : (FileTree.folder entries).Distinct)
include distinct

/-- The files of a root that count are those that are found behind names none of which is hidden. -/
theorem mem_indexedFiles_iff {names : List String} {data : Bytes} :
    (names, data) ∈ indexedFiles entries ↔
      (FileTree.folder entries).get? names = some (.file data) ∧ ∀ name ∈ names, ¬ IsHidden name := by
  have listed : (names, data) ∈ FileTree.filesIn entries ↔ _ := FileTree.mem_files_iff distinct
  have visible : (!names.any isIgnoredName) = true ↔ ∀ name ∈ names, ¬ IsHidden name := by
    simp [← isIgnoredName_iff]
  rw [indexedFiles, List.mem_mergeSort, List.mem_filter, listed, visible]

/-- No chain of names counts twice. -/
theorem nodup_indexedFiles : ((indexedFiles entries).map Prod.fst).Nodup := by
  have sorted := (List.mergeSort_perm ((FileTree.filesIn entries).filter fun found => !found.1.any isIgnoredName)
    fun one other => !decide (other.1 < one.1)).map Prod.fst
  refine sorted.nodup_iff.mpr ?_
  exact (FileTree.nodup_files distinct).sublist (List.filter_sublist.map Prod.fst)

end

end JvmUnits
