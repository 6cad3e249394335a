import JvmUnits.Proofs.FileListing
import Mathlib.Data.List.Forall2
import Mathlib.Data.List.Perm.Basic

/-!
# The order in which folders are listed

The system lists the entries of a folder in any order. Two trees that differ only in this order, in some folders at any depth, are
`FileTree.Relisted`. Their files are the same up to order, and since no chain of names leads to two files, there is one way to
put the files in order. So the index of a class path does not depend on the order in which folders are listed
(`ClassIndex.scan_relisted`): this holds of the entries and of all lists in it, and also of the error where there is no index.

The order in which the files of a root are taken can be had folder by folder as well: a folder is visited by sorting its entries by
the texts of their paths and visiting each in turn (`FileTree.visit`). This gives the same list (`indexedFiles_eq_visit`).
-/

namespace JvmUnits

/-! ## Sorting by keys -/

section

variable {α κ : Type} [LT κ] [DecidableLT κ] {key : α → κ}

/-- The items in ascending order of their keys. -/
def sortedBy (key : α → κ) (items : List α) : List α := items.mergeSort fun one other => !decide (key other < key one)

theorem perm_sortedBy (items : List α) : (sortedBy key items).Perm items := List.mergeSort_perm _ _

/-- The relation is a strict total order. -/
structure IsOrder (κ : Type) [LT κ] : Prop where
  asymm : ∀ {a b : κ}, a < b → ¬ b < a
  trans : ∀ {a b c : κ}, a < b → b < c → a < c
  eq : ∀ {a b : κ}, ¬ a < b → ¬ b < a → a = b

theorem isOrder_string : IsOrder String := ⟨String.lt_asymm, String.lt_trans, fun one other => String.le_antisymm other one⟩

theorem isOrder_strings : IsOrder (List String) := ⟨List.lt_asymm, List.lt_trans, fun one other => List.le_antisymm other one⟩

variable (order : IsOrder κ)
include order

/-- In an order, what is not above is not above what is further up. -/
theorem IsOrder.not_lt_trans {a b c : κ} (first : ¬ b < a) (second : ¬ c < b) : ¬ c < a := by
  intro less
  by_cases before : a < b
  · exact second (order.trans less before)
  · rw [order.eq before first] at less
    exact second less

/-- What is sorted is in ascending order. -/
theorem pairwise_sortedBy (items : List α) : (sortedBy key items).Pairwise fun one other => ¬ key other < key one := by
  have sorted : (sortedBy key items).Pairwise fun one other => (!decide (key other < key one)) = true := by
    refine List.pairwise_mergeSort (fun a b c => ?_) (fun a b => ?_) items
    · simpa using order.not_lt_trans
    · by_cases less : key b < key a
      · simp [order.asymm less]
      · simp [less]
  exact sorted.imp fun {one other} least => by simpa using least

/-- Items with different keys stand in strictly ascending order. -/
theorem ascending_sortedBy {items : List α} (distinct : (items.map key).Nodup) :
    (sortedBy key items).Pairwise fun one other => key one < key other := by
  have apart : (sortedBy key items).Pairwise fun one other => key one ≠ key other :=
    List.pairwise_map.mp (((perm_sortedBy items).map key).nodup_iff.mpr distinct)
  refine ((pairwise_sortedBy order items).and apart).imp fun {one other} both => ?_
  by_contra less
  exact both.2 (order.eq less both.1)

/-- There is one ascending order. -/
theorem sortedBy_eq_of_ascending {items sorted : List α} (perm : items.Perm sorted)
    (ascending : sorted.Pairwise fun one other => key one < key other) : sortedBy key items = sorted := by
  have distinct : (sorted.map key).Nodup := List.pairwise_map.mpr (ascending.imp fun {one other} less same => by
    rw [same] at less
    exact order.asymm less less)
  have least : sorted.Pairwise fun one other => ¬ key other < key one := ascending.imp order.asymm
  refine List.Perm.eq_of_pairwise ?_ (pairwise_sortedBy order items) least ((perm_sortedBy items).trans perm)
  intro one other mem mem' first second
  have inside : one ∈ sorted := perm.mem_iff.mp ((perm_sortedBy items).mem_iff.mp mem)
  exact List.inj_on_of_nodup_map distinct inside mem' (order.eq second first)

end

/-! ## Trees that are listed in another order -/

namespace FileTree

/-- The trees differ in the order in which some folders list their entries: this folder, or folders below it, one after the
other. -/
inductive Relisted : FileTree → FileTree → Prop where
  | refl (tree : FileTree) : Relisted tree tree
  | here {entries others : List (String × FileTree)} (order : entries.Perm others) : Relisted (folder entries) (folder others)
  | deeper (front : List (String × FileTree)) {back : List (String × FileTree)} {name : String} {tree other : FileTree}
      (inside : Relisted tree other) :
      Relisted (folder (front ++ (name, tree) :: back)) (folder (front ++ (name, other) :: back))
  | trans {one middle other : FileTree} (first : Relisted one middle) (second : Relisted middle other) : Relisted one other

/-- The same files are listed. -/
theorem Relisted.perm_files {one other : FileTree} (relisted : Relisted one other) : one.files.Perm other.files := by
  induction relisted with
  | refl tree => exact .refl _
  | here order =>
    rw [files, files, filesIn_eq_flatMap, filesIn_eq_flatMap]
    exact order.flatMap_right _
  | deeper _ _ ih =>
    simp only [files, filesIn_eq_flatMap, List.flatMap_append, List.flatMap_cons]
    exact ((ih.map _).append_right _).append_left _
  | trans _ _ first second => exact first.trans second

end FileTree

/-- The files that count are sorted by the names that lead to them. -/
theorem indexedFiles_eq_sortedBy (entries : List (String × FileTree)) :
    indexedFiles entries = sortedBy Prod.fst ((FileTree.filesIn entries).filter fun found => !found.1.any isIgnoredName) := rfl

/-- The files of a root that count come in ascending order. -/
theorem ascending_indexedFiles {entries : List (String × FileTree)} (distinct : (FileTree.folder entries).Distinct) :
    (indexedFiles entries).Pairwise fun one other => one.1 < other.1 := by
  rw [indexedFiles_eq_sortedBy]
  exact ascending_sortedBy isOrder_strings ((FileTree.nodup_files distinct).sublist (List.filter_sublist.map Prod.fst))

/-- They are the same in the same order, however the folders are listed. -/
theorem indexedFiles_relisted {entries others : List (String × FileTree)} (distinct : (FileTree.folder entries).Distinct)
    (relisted : FileTree.Relisted (.folder entries) (.folder others)) : indexedFiles others = indexedFiles entries := by
  rw [indexedFiles_eq_sortedBy others]
  refine sortedBy_eq_of_ascending isOrder_strings ?_ (ascending_indexedFiles distinct)
  rw [indexedFiles_eq_sortedBy entries]
  exact (relisted.perm_files.symm.filter _).trans (perm_sortedBy _).symm

/-! ## Visiting folder by folder -/

/-- A common front does not matter for the order. -/
theorem append_lt_append_iff {front one other : List Char} : front ++ one < front ++ other ↔ one < other := by
  induction front with
  | nil => rfl
  | cons c front ih => simp [ih]

/-- Paths in one folder are in the order of their names. -/
theorem Path.join_lt_join_iff {folder one other : String} : join folder one < join folder other ↔ one < other := by
  have shared (front : String) : front ++ one < front ++ other ↔ one < other := by
    rw [String.lt_iff, String.lt_iff, String.toList_append, String.toList_append, append_lt_append_iff]
  unfold join
  split
  · exact shared folder
  · exact shared (folder ++ "/")

/-- Different paths stay different inside a folder. -/
theorem Path.join_injective (folder : String) : Function.Injective (join folder) := by
  intro one other same
  refine isOrder_string.eq ?_ ?_ <;> rw [← join_lt_join_iff, same] <;> exact String.lt_irrefl _

namespace FileTree

/-- The files below an entry of a folder, seen from the folder; below a hidden name there are none that count. -/
def visitedBelow (entry : String × List (List String × Bytes)) : List (List String × Bytes) :=
  if isIgnoredName entry.1 then [] else entry.2.map fun found => (entry.1 :: found.1, found.2)

mutual

/-- The files that count in the tree at a path, as they are visited. The entries of a folder are sorted by the texts of their
paths, and those with hidden names are passed over. -/
def visit (path : String) : FileTree → List (List String × Bytes)
  | file data => [([], data)]
  | folder entries =>
    (sortedBy (fun entry => Path.join path entry.1) (visitEach path entries)).flatMap visitedBelow

/-- The entries of a folder, each with the files that are visited below it. -/
def visitEach (path : String) : List (String × FileTree) → List (String × List (List String × Bytes))
  | [] => []
  | (name, tree) :: rest => (name, visit (Path.join path name) tree) :: visitEach path rest

end

theorem visitEach_eq_map (path : String) (entries : List (String × FileTree)) :
    visitEach path entries = entries.map fun entry => (entry.1, visit (Path.join path entry.1) entry.2) := by
  induction entries with
  | nil => rfl
  | cons entry rest ih => rw [visitEach, ih, List.map_cons]

theorem exists_of_mem_visitedBelow {entry : String × List (List String × Bytes)} {found : List String × Bytes}
    (mem : found ∈ visitedBelow entry) : ∃ names, found.1 = entry.1 :: names := by
  unfold visitedBelow at mem
  by_cases hidden : isIgnoredName entry.1 = true
  · simp [hidden] at mem
  · rw [if_neg hidden] at mem
    obtain ⟨file, -, rfl⟩ := List.mem_map.mp mem
    exact ⟨file.1, rfl⟩

/-- The files without hidden names are visited. -/
theorem perm_visit {tree : FileTree} (distinct : tree.Distinct) (path : String) :
    (tree.files.filter fun found => !found.1.any isIgnoredName).Perm (tree.visit path) := by
  induction distinct generalizing path with
  | file data => simp [files, visit]
  | @folder entries _ _ ih =>
    have each : ∀ entry ∈ entries,
        ((entry.2.files.map fun found => (entry.1 :: found.1, found.2)).filter fun found => !found.1.any isIgnoredName).Perm
          (visitedBelow (entry.1, entry.2.visit (Path.join path entry.1))) := by
      intro entry mem
      rw [List.filter_map]
      -- Below a hidden name no file passes the filter, and none is visited.
      by_cases hidden : isIgnoredName entry.1 = true
      · simp [visitedBelow, hidden, Function.comp_def]
      · have below := (ih entry mem (Path.join path entry.1)).map fun found => (entry.1 :: found.1, found.2)
        simpa [visitedBelow, hidden, Function.comp_def] using below
    rw [files, filesIn_eq_flatMap, List.filter_flatMap]
    have sorted : ((visitEach path entries).flatMap visitedBelow).Perm ((folder entries).visit path) :=
      (perm_sortedBy _).symm.flatMap_right _
    rw [visitEach_eq_map, List.flatMap_map] at sorted
    exact (List.Perm.flatMap_left entries each).trans sorted

/-- A visit finds files in ascending order. -/
theorem ascending_visit {tree : FileTree} (distinct : tree.Distinct) (path : String) :
    (tree.visit path).Pairwise fun one other => one.1 < other.1 := by
  induction distinct generalizing path with
  | file data => simp [visit]
  | @folder entries names each ih =>
    have keys : ((visitEach path entries).map fun entry => Path.join path entry.1).Nodup := by
      have mapped := names.map (Path.join_injective path)
      rw [visitEach_eq_map]
      simpa [Function.comp_def] using mapped
    rw [visit, List.pairwise_flatMap]
    -- Files below one entry are in order by induction, and files below two entries by the names of these.
    constructor
    · intro entry mem
      have among := (perm_sortedBy _).mem_iff.mp mem
      rw [visitEach_eq_map] at among
      obtain ⟨⟨name, tree⟩, inside, rfl⟩ := List.mem_map.mp among
      unfold visitedBelow
      split
      · exact .nil
      · rw [List.pairwise_map]
        exact (ih (name, tree) inside (Path.join path name)).imp fun less => List.cons_lt_cons_iff.mpr (.inr ⟨rfl, less⟩)
    · refine (ascending_sortedBy isOrder_string keys).imp fun {one other} less => ?_
      intro found mem next mem'
      obtain ⟨_, first⟩ := exists_of_mem_visitedBelow mem
      obtain ⟨_, second⟩ := exists_of_mem_visitedBelow mem'
      rw [first, second, List.cons_lt_cons_iff]
      exact .inl (Path.join_lt_join_iff.mp less)

end FileTree

/-- Visiting a root folder by folder gives the files that count in their order. -/
theorem indexedFiles_eq_visit {entries : List (String × FileTree)} (distinct : (FileTree.folder entries).Distinct)
    (path : String) : indexedFiles entries = (FileTree.folder entries).visit path := by
  rw [indexedFiles_eq_sortedBy]
  exact sortedBy_eq_of_ascending isOrder_strings (FileTree.perm_visit distinct path) (FileTree.ascending_visit distinct path)

/-! ## Scanning -/

/-- The roots differ in the order in which their folders are listed: both cannot be opened, or no folder of the first has two
entries of one name and the second is listed in another order. -/
inductive ClassRoot.Relisted : ClassRoot → ClassRoot → Prop where
  | refused (path : String) (cause : OsError) : Relisted ⟨path, .error cause⟩ ⟨path, .error cause⟩
  | folder (path : String) {entries others : List (String × FileTree)} (distinct : (FileTree.folder entries).Distinct)
      (relisted : FileTree.Relisted (.folder entries) (.folder others)) : Relisted ⟨path, .ok entries⟩ ⟨path, .ok others⟩

namespace ClassIndex

/-- Adds the files of a root, folder by folder. -/
def visitRoot (index : ClassIndex) (root : ClassRoot × Nat) : Except Error ClassIndex :=
  match root.1.listing with
  | .error cause => .error (.file root.1.path cause)
  | .ok listing => ((FileTree.folder listing).visit root.1.path).foldlM (addFile root.2 root.1.path) index

/-- A root that is listed in another order brings the same, and this is what visiting its folders brings. -/
theorem addRoot_relisted {root other : ClassRoot} (relisted : root.Relisted other) (index : ClassIndex) (number : Nat) :
    addRoot index (other, number) = addRoot index (root, number) ∧
      visitRoot index (root, number) = addRoot index (root, number) := by
  cases relisted with
  | refused path cause => exact ⟨rfl, rfl⟩
  | @folder path entries others distinct relisted =>
    constructor
    · change (indexedFiles others).foldlM (addFile number path) index = (indexedFiles entries).foldlM (addFile number path) index
      rw [indexedFiles_relisted distinct relisted]
    · change ((FileTree.folder entries).visit path).foldlM (addFile number path) index =
        (indexedFiles entries).foldlM (addFile number path) index
      rw [indexedFiles_eq_visit distinct path]

/-- Relisted roots are indexed alike, one behind the other. -/
theorem foldlM_addRoot_relisted {roots others : List ClassRoot} (relisted : List.Forall₂ ClassRoot.Relisted roots others)
    (number : Nat) (index : ClassIndex) :
    (others.zipIdx number).foldlM addRoot index = (roots.zipIdx number).foldlM addRoot index ∧
      (roots.zipIdx number).foldlM visitRoot index = (roots.zipIdx number).foldlM addRoot index := by
  induction relisted generalizing number index with
  | nil => exact ⟨rfl, rfl⟩
  | @cons root other roots others first _ ih =>
    obtain ⟨same, visited⟩ := addRoot_relisted first index number
    simp only [List.zipIdx_cons, List.foldlM_cons, same, visited]
    cases addRoot index (root, number) with
    | error e => exact ⟨rfl, rfl⟩
    | ok middle => exact ih (number + 1) middle

/-- Scanning roots whose folders are listed in another order gives the same index, or the same error: it is what visiting the
roots one after the other and each folder by folder gives. -/
theorem scan_relisted {roots others : List ClassRoot} (relisted : List.Forall₂ ClassRoot.Relisted roots others) :
    scan others = scan roots ∧ scan roots = roots.zipIdx.foldlM visitRoot {} := by
  obtain ⟨same, visited⟩ := foldlM_addRoot_relisted relisted 0 {}
  exact ⟨same, visited.symm⟩

end ClassIndex

/-! ## A root in two listings -/

namespace ShuffledRoot

open FileTree

/-- The folder with the descriptors of two services. -/
def services : List (String × FileTree) := [("s", .file (Utf8.encode "a.A")), ("t", .file (Utf8.encode "b.B # later"))]

/-- The folder of the services and a script to be loaded first. -/
def metadata : List (String × FileTree) := [("runtime.js", .file []), ("services", .folder services)]

/-- A root with all its folders listed in the order of their names. -/
def ordered : List (String × FileTree) := [("META-INF", .folder metadata), ("runtime.js", .file [1])]

/-- The same root with all its folders listed backwards. -/
def backwards : List (String × FileTree) :=
  [("runtime.js", .file [1]),
    ("META-INF", .folder [("services", .folder [("t", .file (Utf8.encode "b.B # later")), ("s", .file (Utf8.encode "a.A"))]),
      ("runtime.js", .file [])])]

/-- The folder that is listed backwards has the same files. -/
theorem relisted_backwards : Relisted (.folder ordered) (.folder backwards) := by
  have innermost : Relisted (.folder services) (.folder services.reverse) := .here (List.reverse_perm services).symm
  have inner : Relisted (.folder metadata) (.folder [("services", .folder services.reverse), ("runtime.js", .file [])]) :=
    .trans (.here (List.Perm.swap _ _ _)) (.deeper [] innermost)
  exact .trans (.here (List.Perm.swap _ _ _)) (.deeper [("runtime.js", .file [1])] inner)

theorem indexedFiles_ordered : indexedFiles ordered =
    [(["META-INF", "runtime.js"], []), (["META-INF", "services", "s"], Utf8.encode "a.A"),
      (["META-INF", "services", "t"], Utf8.encode "b.B # later"), (["runtime.js"], [1])] :=
  List.mergeSort_of_pairwise (by decide +kernel)

theorem scan_backwards :
    List.Forall₂ ClassRoot.Relisted [⟨"r", .ok ordered⟩] [⟨"r", .ok backwards⟩] ∧
      ∃ index, ClassIndex.scan [⟨"r", .ok backwards⟩] = .ok index ∧
        index.fragments = ["r/META-INF/runtime.js", "r/runtime.js"] ∧ index.serviceClasses = ["a/A", "b/B"] := by
  have distinct : (FileTree.folder ordered).Distinct := by simp [ordered, metadata, services]
  have relisted : List.Forall₂ ClassRoot.Relisted [⟨"r", .ok ordered⟩] [⟨"r", .ok backwards⟩] :=
    .cons (.folder "r" distinct relisted_backwards) .nil
  have files : ClassIndex.scan [⟨"r", .ok ordered⟩] = (indexedFiles ordered).foldlM (ClassIndex.addFile 0 "r") {} := by
    change ((indexedFiles ordered).foldlM (ClassIndex.addFile 0 "r") {} >>= pure) = _
    rw [bind_pure]
  have lists : (ClassIndex.scan [⟨"r", .ok ordered⟩]).map (fun index => (index.fragments, index.serviceClasses)) =
      .ok (["r/META-INF/runtime.js", "r/runtime.js"], ["a/A", "b/B"]) := by
    rw [files, indexedFiles_ordered]
    decide +kernel
  refine ⟨relisted, ?_⟩
  rw [(ClassIndex.scan_relisted relisted).1]
  cases scanned : ClassIndex.scan [⟨"r", .ok ordered⟩] with
  | error e =>
    rw [scanned] at lists
    cases lists
  | ok index =>
    rw [scanned] at lists
    have both := Except.ok.inj lists
    exact ⟨index, rfl, congrArg Prod.fst both, congrArg Prod.snd both⟩

end ShuffledRoot

end JvmUnits
