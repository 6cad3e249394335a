import JvmUnits.Proofs.DiskFrames
import JvmUnits.Proofs.FileListing
import JvmUnits.Proofs.Mention

/-!
# The merged index of a class path

What the index of a list of roots holds, said of the trees of the roots alone. A path is in the index when some root has a
file there with no hidden name on the way, and the entry is that of the first such root. A service is in the index when some
root describes it, and its classes are those of all the descriptors, root by root, also of those whose file is shadowed by an
earlier root. The list of all service classes holds the same classes as the services together.

Adding a file or a root has the same shape (`ClassIndex.Gains`): the index keeps the entries that it has and extends the
lists of its services. So one lemma about a fold carries a file to a root and a root to a class path. The main result is
`ClassIndex.scan_merges`.
-/

namespace JvmUnits

/-- A root whose entries can be listed; no folder in it has two entries of one name. -/
structure RootFolder where
  path : String
  entries : List (String × FileTree)
  distinct : (FileTree.folder entries).Distinct

namespace RootFolder

variable {root : RootFolder} {path service : String}

/-- The root as a part of a class path. -/
def classRoot (root : RootFolder) : ClassRoot := ⟨root.path, .ok root.entries⟩

/-- The root has a file at a path inside it, and no name on the way is hidden. -/
def Provides (root : RootFolder) (path : String) : Prop :=
  ∃ names data, (FileTree.folder root.entries).get? names = some (.file data) ∧ (∀ name ∈ names, ¬ IsHidden name) ∧
    Path.ofParts names = path

/-- What a root provides is seen from the list of its files. -/
theorem provides_iff : root.Provides path ↔
    ∃ file ∈ (FileTree.folder root.entries).files, (∀ name ∈ file.1, ¬ IsHidden name) ∧ Path.ofParts file.1 = path := by
  simp only [Provides, ← FileTree.mem_files_iff root.distinct, Prod.exists]

instance : Decidable (root.Provides path) := decidable_of_iff _ provides_iff.symm

/-- The descriptor of a service in a root. -/
def descriptor? (root : RootFolder) (service : String) : Option Bytes :=
  if IsHidden service then none
  else ((FileTree.folder root.entries).get? ["META-INF", "services", service]).bind FileTree.data?

/-- The classes that a root lists for a service. -/
def implementations (root : RootFolder) (service : String) : List String :=
  (((root.descriptor? service).bind Utf8.decode).map ServiceDescriptor.classes).getD []

/-- Every descriptor of a service in the root is a text. -/
def Readable (root : RootFolder) : Prop :=
  ∀ service data, root.descriptor? service = some data → (Utf8.decode data).isSome = true

end RootFolder

namespace ClassIndex

/-! ## What an index gains -/

/-- The classes of a service with those of one more descriptor. -/
def extendedBy (known : Option (List String)) (classes : List String) : Option (List String) :=
  some (known.getD [] ++ classes)

/-- The list of all service classes holds what the services hold together. -/
def Balanced (index : ClassIndex) : Prop := index.serviceClasses.Perm (index.services.toList.flatMap Prod.snd)

/-- An index becomes another by keeping its entries, taking new ones for paths that it does not have, and extending the
classes of each service by some lists. -/
structure Gains (found : String → Option IndexEntry) (listed : String → List (List String))
    (before after : ClassIndex) : Prop where
  entries : ∀ path, after.entries[path]? = before.entries[path]?.or (found path)
  services : ∀ service, after.services[service]? = (listed service).foldl extendedBy before.services[service]?
  balanced : before.Balanced → after.Balanced

theorem Gains.refl (index : ClassIndex) : Gains (fun _ => none) (fun _ => []) index index where
  entries path := by simp
  services service := rfl
  balanced := id

/-- What is gained in two stages: a path keeps the entry that it has first, and a service gains the classes of both. -/
theorem Gains.trans {found more : String → Option IndexEntry} {listed further : String → List (List String)}
    {before middle after : ClassIndex} (first : Gains found listed before middle) (second : Gains more further middle after) :
    Gains (fun path => (found path).or (more path)) (fun service => listed service ++ further service) before after where
  entries path := by rw [second.entries, first.entries, Option.or_assoc]
  services service := by rw [second.services, first.services, List.foldl_append]
  balanced := second.balanced ∘ first.balanced

/-- When each item of a list can be added and brings something, the list can be added and brings it all, in order. -/
theorem Gains.foldlM {α : Type} {add : ClassIndex → α → Except Error ClassIndex}
    {found : α → String → Option IndexEntry} {listed : α → String → List (List String)} {items : List α}
    (each : ∀ item ∈ items, ∀ before, ∃ after, add before item = .ok after ∧ Gains (found item) (listed item) before after)
    (before : ClassIndex) :
    ∃ after, items.foldlM add before = .ok after ∧
      Gains (fun path => items.findSome? (found · path)) (fun service => items.flatMap (listed · service)) before after := by
  induction items generalizing before with
  | nil => exact ⟨before, rfl, .refl before⟩
  | cons item rest ih =>
    obtain ⟨middle, added, first⟩ := each item List.mem_cons_self before
    obtain ⟨after, others, second⟩ := ih (fun other mem => each other (List.mem_cons_of_mem item mem)) middle
    refine ⟨after, ?_, ?_⟩
    · rw [List.foldlM_cons, bind_eq_ok]
      exact ⟨middle, added, others⟩
    · have together := first.trans second
      have entry (path : String) : (item :: rest).findSome? (found · path) =
          (found item path).or (rest.findSome? (found · path)) := by
        rw [← List.singleton_append, List.findSome?_append, List.findSome?_singleton]
      simpa only [entry, List.flatMap_cons] using together

/-! ## Adding a file -/

/-- The entry that a file of a root makes for a path. -/
def entryOf (root : Nat) (rootPath : String) (file : List String × Bytes) (path : String) : Option IndexEntry :=
  if Path.ofParts file.1 = path then some ⟨Path.join rootPath path, root⟩ else none

/-- What a file lists for a service. -/
def listsOf (file : List String × Bytes) (service : String) : List (List String) :=
  if describedService? file.1 = some service then ((Utf8.decode file.2).map ServiceDescriptor.classes).toList else []

/-- The lists of a map together are that of one key, and those of the others. -/
theorem lists_perm (services : Std.TreeMap String (List String)) (key : String) :
    (services.toList.flatMap Prod.snd).Perm
      (services[key]?.getD [] ++ (services.toList.filter (¬ key == ·.1)).flatMap Prod.snd) := by
  cases known : services[key]? with
  | none =>
    have others : services.toList.filter (¬ key == ·.1) = services.toList := by
      refine List.filter_eq_self.mpr fun pair mem => ?_
      have here := Std.TreeMap.mem_toList_iff_getElem?_eq_some.mp mem
      have differs : key ≠ pair.1 := by
        rintro rfl
        rw [known] at here
        cases here
      simpa using differs
    rw [others]
    exact .refl _
  | some classes =>
    have same : (services.insert key classes).Equiv services := by
      refine .of_forall_constGet?_eq fun other => ?_
      rw [Std.TreeMap.getElem?_insert]
      by_cases equal : key = other
      · subst equal
        simp [known]
      · simp [equal]
    have split := Std.TreeMap.toList_insert_perm (t := services) (k := key) (v := classes)
    rw [same.toList_eq] at split
    exact split.flatMap_right Prod.snd

/-- Adding the classes of a descriptor keeps the two records of service classes in balance. -/
theorem Balanced.addService {index : ClassIndex} (balanced : index.Balanced) (service : String) (classes : List String) :
    (index.addService service classes).Balanced := by
  have same : (index.addService service classes).services.Equiv
      (index.services.insert service (index.services[service]?.getD [] ++ classes)) := by
    refine .of_forall_constGet?_eq fun other => ?_
    rw [ClassIndex.addService, Std.TreeMap.getElem?_alter, Std.TreeMap.getElem?_insert]
  have now := (Std.TreeMap.toList_insert_perm (t := index.services) (k := service)
    (v := index.services[service]?.getD [] ++ classes)).flatMap_right Prod.snd
  rw [← same.toList_eq, List.flatMap_cons, List.append_assoc] at now
  refine (balanced.append_right classes).trans (.trans ?_ now.symm)
  refine ((lists_perm index.services service).append_right classes).trans ?_
  rw [List.append_assoc]
  exact List.perm_append_comm.append_left _

/-- A service descriptor adds its classes to the service and nothing else. -/
theorem gains_addService (index : ClassIndex) (service : String) (classes : List String) :
    Gains (fun _ => none) (fun other => if other = service then [classes] else []) index
      (index.addService service classes) where
  entries path := by simp [addService]
  services other := by
    rw [addService, Std.TreeMap.getElem?_alter]
    by_cases same : service = other
    · subst same
      simp [extendedBy]
    · simp [same, Ne.symm same]
  balanced balanced := balanced.addService service classes

/-- A file is added under its path, unless there is one already. -/
theorem gains_insertIfNew (index : ClassIndex) (inner : String) (entry : IndexEntry) :
    Gains (fun path => if inner = path then some entry else none) (fun _ => []) index
      { index with entries := index.entries.insertIfNew inner entry } where
  entries path := by
    rw [Std.TreeMap.getElem?_insertIfNew]
    by_cases same : inner = path
    · subst same
      by_cases known : inner ∈ index.entries
      · simp [known]
      · simp [known]
    · simp [same]
  services service := rfl
  balanced := id

/-- A script that is loaded first describes no service. -/
theorem describedService?_of_isFragment {names : List String} (fragment : isFragment names = true) :
    describedService? names = none := by
  simp only [isFragment, Bool.or_eq_true, beq_iff_eq] at fragment
  rcases fragment with rfl | rfl <;> rfl

/-- A file that describes no service, or describes one by a text, can be added. It brings its entry and the classes that it
lists. -/
theorem gains_addFile (root : Nat) (rootPath : String) {file : List String × Bytes}
    (readable : ∀ service, describedService? file.1 = some service → (Utf8.decode file.2).isSome = true)
    (before : ClassIndex) :
    ∃ after, addFile root rootPath before file = .ok after ∧
      Gains (entryOf root rootPath file) (listsOf file) before after := by
  -- the entry is added last, whatever the file is
  suffices ∃ middle, addFile root rootPath before file = .ok { middle with
        entries := middle.entries.insertIfNew (Path.ofParts file.1) ⟨Path.join rootPath (Path.ofParts file.1), root⟩ } ∧
      Gains (fun _ => none) (listsOf file) before middle by
    obtain ⟨middle, added, first⟩ := this
    refine ⟨_, added, ?_⟩
    have together := first.trans (gains_insertIfNew middle (Path.ofParts file.1)
      ⟨Path.join rootPath (Path.ofParts file.1), root⟩)
    have entry (path : String) : (if Path.ofParts file.1 = path then
        some (⟨Path.join rootPath (Path.ofParts file.1), root⟩ : IndexEntry) else none) = entryOf root rootPath file path := by
      by_cases same : Path.ofParts file.1 = path
      · subst same
        simp [entryOf]
      · simp [entryOf, same]
    simpa only [entry, Option.none_or, List.append_nil] using together
  unfold addFile
  by_cases fragment : isFragment file.1 = true
  · have undescribed := describedService?_of_isFragment fragment
    refine ⟨{ before with fragments := before.fragments ++ [Path.join rootPath (Path.ofParts file.1)] }, ?_, ?_⟩
    · simp [fragment, bind, Except.bind, pure, Except.pure]
    · exact ⟨fun path => by simp, fun service => by simp [listsOf, undescribed], id⟩
  · cases described : describedService? file.1 with
    | none =>
      refine ⟨before, by simp [fragment, bind, Except.bind, pure, Except.pure], ?_⟩
      have nothing : listsOf file = fun _ => [] := by
        funext service
        simp [listsOf, described]
      rw [nothing]
      exact .refl before
    | some service =>
      obtain ⟨content, text⟩ := Option.isSome_iff_exists.mp (readable service described)
      refine ⟨before.addService service (ServiceDescriptor.classes content), ?_, ?_⟩
      · simp [fragment, text, bind, Except.bind, pure, Except.pure]
      · have own : listsOf file = fun other => if other = service then [ServiceDescriptor.classes content] else [] := by
          funext other
          simp [listsOf, described, text, eq_comm]
        rw [own]
        exact gains_addService before service (ServiceDescriptor.classes content)

end ClassIndex

/-! ## Adding a root -/

namespace RootFolder

open ClassIndex

variable {root : RootFolder} {path service : String}

/-- The entry that a root makes for a path. -/
def entryOf (number : Nat) (root : RootFolder) (path : String) : Option IndexEntry :=
  (indexedFiles root.entries).findSome? (ClassIndex.entryOf number root.path · path)

/-- A root makes an entry for the paths that it provides, and it is the entry of the path in this root. -/
theorem entryOf_eq_some_iff {number : Nat} {entry : IndexEntry} :
    entryOf number root path = some entry ↔ root.Provides path ∧ entry = ⟨Path.join root.path path, number⟩ := by
  constructor
  · intro made
    obtain ⟨⟨names, data⟩, mem, own⟩ := List.exists_of_findSome?_eq_some made
    obtain ⟨here, visible⟩ := (mem_indexedFiles_iff root.distinct).mp mem
    rw [ClassIndex.entryOf, Option.ite_none_right_eq_some] at own
    exact ⟨⟨names, data, here, visible, own.1⟩, (Option.some.inj own.2).symm⟩
  · rintro ⟨⟨names, data, here, visible, rfl⟩, rfl⟩
    have mem := (mem_indexedFiles_iff root.distinct).mpr ⟨here, visible⟩
    cases made : entryOf number root (Path.ofParts names) with
    | none =>
      have missing := List.findSome?_eq_none_iff.mp made _ mem
      simp [ClassIndex.entryOf] at missing
    | some entry =>
      obtain ⟨file, -, own⟩ := List.exists_of_findSome?_eq_some made
      rw [ClassIndex.entryOf, Option.ite_none_right_eq_some] at own
      rw [own.2]

/-- What a root lists for a service: one list where the root describes the service. -/
def lists (root : RootFolder) (service : String) : List (List String) :=
  (((root.descriptor? service).bind Utf8.decode).map ServiceDescriptor.classes).toList

/-- The classes that a root lists for a service are those of its descriptor. -/
theorem flatten_lists : (root.lists service).flatten = root.implementations service := by
  rw [lists, implementations]
  cases ((root.descriptor? service).bind Utf8.decode).map ServiceDescriptor.classes <;> simp

/-- A root lists nothing for a service exactly if it has no descriptor of it. -/
theorem lists_eq_nil_iff (readable : root.Readable) : root.lists service = [] ↔ root.descriptor? service = none := by
  cases known : root.descriptor? service with
  | none => simp [lists, known]
  | some data =>
    obtain ⟨content, text⟩ := Option.isSome_iff_exists.mp (readable service data known)
    simp [lists, known, text]

/-- A descriptor of a service is a file of that name in the folder for services. -/
theorem describedService?_eq_some_iff {names : List String} :
    describedService? names = some service ↔ names = ["META-INF", "services", service] := by
  unfold describedService?
  split
  · simp
  · rename_i other
    constructor
    · intro described
      cases described
    · intro same
      exact absurd same (other service)

/-- The descriptor of a service is the one file that counts for it. -/
theorem descriptor?_eq_some_iff {data : Bytes} :
    root.descriptor? service = some data ↔ (["META-INF", "services", service], data) ∈ indexedFiles root.entries := by
  have folders : ¬ IsHidden "META-INF" ∧ ¬ IsHidden "services" := by decide
  have visible : (∀ name ∈ ["META-INF", "services", service], ¬ IsHidden name) ↔ ¬ IsHidden service := by
    simp [folders]
  have bytes (found : FileTree) : found.data? = some data ↔ found = .file data := by
    cases found <;> simp [FileTree.data?]
  rw [mem_indexedFiles_iff root.distinct, visible, descriptor?]
  by_cases hidden : IsHidden service
  · simp [hidden]
  · simp [hidden, Option.bind_eq_some_iff, bytes]

/-- The files of a root together list what its descriptor of the service lists. -/
theorem flatMap_listsOf : (indexedFiles root.entries).flatMap (listsOf · service) = root.lists service := by
  have nodup := nodup_indexedFiles root.distinct
  have looked : (indexedFiles root.entries).lookup ["META-INF", "services", service] = root.descriptor? service := by
    ext data
    rw [lookup_eq_some_iff_mem nodup, descriptor?_eq_some_iff]
  simp only [listsOf, describedService?_eq_some_iff]
  rw [flatMap_eq_of_nodup nodup _ fun data => ((Utf8.decode data).map ServiceDescriptor.classes).toList, looked, lists]
  cases root.descriptor? service <;> simp

/-- A root whose descriptors are texts can be added, and brings its entries and lists. -/
theorem gains_addRoot (readable : root.Readable) (number : Nat) (before : ClassIndex) :
    ∃ after, addRoot before (root.classRoot, number) = .ok after ∧ Gains (entryOf number root) root.lists before after := by
  have each : ∀ file ∈ indexedFiles root.entries, ∀ before, ∃ after, addFile number root.path before file = .ok after ∧
      Gains (ClassIndex.entryOf number root.path file) (listsOf file) before after := by
    rintro ⟨names, data⟩ mem before
    refine gains_addFile number root.path (fun service described => ?_) before
    rw [describedService?_eq_some_iff] at described
    subst described
    exact readable service data (descriptor?_eq_some_iff.mpr mem)
  obtain ⟨after, added, gains⟩ := Gains.foldlM each before
  simp only [flatMap_listsOf] at gains
  exact ⟨after, added, gains⟩

end RootFolder

/-! ## Scanning the roots -/

namespace ClassIndex

variable {roots : List RootFolder} {path service : String}

/-- The lists of the descriptors that were found, joined; nothing where there was none. -/
theorem foldl_extendedBy (lists : List (List String)) (known : List String) :
    lists.foldl extendedBy (some known) = some (known ++ lists.flatten) := by
  induction lists generalizing known with
  | nil => simp
  | cons list rest ih =>
    rw [List.foldl_cons, extendedBy, ih, List.flatten_cons, List.append_assoc]
    rfl

/-- A service is there once it has a descriptor, and then with the classes of all its descriptors. -/
theorem foldl_extendedBy_eq_some_iff {lists : List (List String)} {classes : List String} :
    lists.foldl extendedBy none = some classes ↔ lists ≠ [] ∧ classes = lists.flatten := by
  cases lists with
  | nil => simp
  | cons list rest =>
    rw [List.foldl_cons, extendedBy, foldl_extendedBy]
    simp [eq_comm]

/-- Readable roots list something for a service when one of them describes it. -/
theorem flatMap_lists_ne_nil_iff (readable : ∀ root ∈ roots, root.Readable) :
    roots.flatMap (·.lists service) ≠ [] ↔ ∃ root ∈ roots, (root.descriptor? service).isSome = true := by
  rw [Ne, List.flatMap_eq_nil_iff]
  push Not
  refine exists_congr fun root => and_congr_right fun mem => ?_
  rw [Ne, RootFolder.lists_eq_nil_iff (readable root mem), Option.isSome_iff_ne_none]

/-- The classes of a service are those of all roots, in the order of the roots. -/
theorem flatten_flatMap_lists : (roots.flatMap (·.lists service)).flatten = roots.flatMap (·.implementations service) := by
  rw [List.flatten_eq_flatMap, List.flatMap_assoc]
  simp only [List.flatMap_id, RootFolder.flatten_lists]

theorem exists_mem_zipIdx {root : RootFolder} (mem : root ∈ roots) : ∃ number, (root, number) ∈ roots.zipIdx := by
  rw [← List.zipIdx_map_fst 0 roots] at mem
  obtain ⟨⟨_, number⟩, there, rfl⟩ := List.mem_map.mp mem
  exact ⟨number, there⟩

/-- Among the roots, the first that provides a path makes its entry. -/
theorem findSome?_entryOf_eq_some_iff {entry : IndexEntry} :
    roots.zipIdx.findSome? (fun item => item.1.entryOf item.2 path) = some entry ↔
      ∃ front root back, roots = front ++ root :: back ∧ root.Provides path ∧ (∀ earlier ∈ front, ¬ earlier.Provides path) ∧
        entry = ⟨Path.join root.path path, front.length⟩ := by
  have passed (number : Nat) (root : RootFolder) : root.entryOf number path = none ↔ ¬ root.Provides path := by
    constructor
    · intro missing provides
      rw [RootFolder.entryOf_eq_some_iff.mpr ⟨provides, rfl⟩] at missing
      cases missing
    · intro other
      refine Option.eq_none_iff_forall_ne_some.mpr fun entry made => other ?_
      exact (RootFolder.entryOf_eq_some_iff.mp made).1
  rw [List.findSome?_eq_some_iff]
  constructor
  · rintro ⟨front, ⟨root, number⟩, back, split, made, unmade⟩
    obtain ⟨before, others, rfl, rfl, tail⟩ := List.zipIdx_eq_append_iff.mp split
    obtain ⟨_, after, rfl, same, rfl⟩ := List.zipIdx_eq_cons_iff.mp tail.symm
    cases same
    obtain ⟨provides, rfl⟩ := RootFolder.entryOf_eq_some_iff.mp made
    refine ⟨before, root, after, rfl, provides, fun earlier mem => ?_, by simp⟩
    obtain ⟨number, there⟩ := exists_mem_zipIdx mem
    exact (passed number earlier).mp (unmade (earlier, number) there)
  · rintro ⟨front, root, back, rfl, provides, others, rfl⟩
    refine ⟨front.zipIdx, (root, front.length), back.zipIdx (front.length + 1), ?_, ?_, ?_⟩
    · rw [List.zipIdx_append, List.zipIdx_cons, Nat.zero_add]
    · exact RootFolder.entryOf_eq_some_iff.mpr ⟨provides, rfl⟩
    · rintro ⟨earlier, number⟩ mem
      exact (passed number earlier).mpr (others earlier (List.fst_mem_of_mem_zipIdx mem))

/-- Readable roots have an index. It has the paths that some root provides, each with the entry of the first root that does;
the services that some root describes, each with the classes of all the roots; and these classes once more in one list. -/
theorem scan_merges (roots : List RootFolder) (readable : ∀ root ∈ roots, root.Readable) :
    ∃ index, scan (roots.map RootFolder.classRoot) = .ok index ∧
      (∀ path, (index.resolve path).isSome = true ↔ ∃ root ∈ roots, root.Provides path) ∧
      (∀ path entry, index.resolve path = some entry ↔
        ∃ front root back, roots = front ++ root :: back ∧ root.Provides path ∧ (∀ earlier ∈ front, ¬ earlier.Provides path) ∧
          entry = ⟨Path.join root.path path, front.length⟩) ∧
      (∀ service classes, index.services[service]? = some classes ↔
        (∃ root ∈ roots, (root.descriptor? service).isSome = true) ∧ classes = roots.flatMap (·.implementations service)) ∧
      index.serviceClasses.Perm (index.services.toList.flatMap Prod.snd) := by
  have each : ∀ item ∈ roots.zipIdx, ∀ before, ∃ after, addRoot before (Prod.map RootFolder.classRoot id item) = .ok after ∧
      Gains (item.1.entryOf item.2) item.1.lists before after := by
    rintro ⟨root, number⟩ mem before
    exact RootFolder.gains_addRoot (readable root (List.fst_mem_of_mem_zipIdx mem)) number before
  obtain ⟨index, scanned, gains⟩ := Gains.foldlM each {}
  have resolved (path : String) : index.resolve path = roots.zipIdx.findSome? fun item => item.1.entryOf item.2 path := by
    rw [resolve, gains.entries]
    simp
  have listed (service : String) : index.services[service]? = (roots.flatMap (·.lists service)).foldl extendedBy none := by
    have here := gains.services service
    rw [← List.flatMap_map Prod.fst fun root : RootFolder => root.lists service, List.zipIdx_map_fst] at here
    simpa using here
  refine ⟨index, ?_, fun path => ?_, fun path entry => ?_, fun service classes => ?_, gains.balanced (.refl _)⟩
  · rw [scan, List.zipIdx_map, List.foldlM_map]
    exact scanned
  · rw [resolved, List.isSome_findSome?, List.any_eq_true]
    constructor
    · rintro ⟨⟨root, number⟩, mem, present⟩
      obtain ⟨entry, made⟩ := Option.isSome_iff_exists.mp present
      exact ⟨root, List.fst_mem_of_mem_zipIdx mem, (RootFolder.entryOf_eq_some_iff.mp made).1⟩
    · rintro ⟨root, mem, provides⟩
      obtain ⟨number, there⟩ := exists_mem_zipIdx mem
      exact ⟨(root, number), there, Option.isSome_of_mem (RootFolder.entryOf_eq_some_iff.mpr ⟨provides, rfl⟩)⟩
  · rw [resolved]
    exact findSome?_entryOf_eq_some_iff
  · rw [listed, foldl_extendedBy_eq_some_iff, flatMap_lists_ne_nil_iff readable, flatten_flatMap_lists]

end ClassIndex

/-! ## Two roots -/

namespace TwoRoots

/-- A root with a file `p`, a hidden folder and a descriptor of the service `s`. -/
def front : RootFolder where
  path := "front"
  entries := [("p", .file []), (".git", .folder [("p", .file [])]),
    ("META-INF", .folder [("services", .folder [("s", .file (Utf8.encode "a.A # first"))])])]
  distinct := by simp

/-- A root with a folder `p`, another descriptor of the service `s`, and one that is hidden. -/
def back : RootFolder where
  path := "back"
  entries := [("META-INF", .folder [("services", .folder [("s~", .file [255]), ("s", .file (Utf8.encode "b.B"))])]),
    ("p", .folder [("q", .file [])])]
  distinct := by simp

theorem readable : ∀ root ∈ [front, back], root.Readable := by
  intro root mem service data found
  obtain ⟨here, visible⟩ := (mem_indexedFiles_iff root.distinct).mp (RootFolder.descriptor?_eq_some_iff.mp found)
  have listed := (FileTree.mem_files_iff root.distinct).mpr here
  simp only [List.mem_cons, List.not_mem_nil, or_false] at mem
  rcases mem with rfl | rfl
  · obtain ⟨rfl, rfl⟩ : service = "s" ∧ data = Utf8.encode "a.A # first" := by
      simpa [front, FileTree.files, FileTree.filesIn] using listed
    decide +kernel
  · have either : service = "s~" ∧ data = [255] ∨ service = "s" ∧ data = Utf8.encode "b.B" := by
      simpa [back, FileTree.files, FileTree.filesIn] using listed
    rcases either with ⟨rfl, rfl⟩ | ⟨rfl, rfl⟩
    · exact absurd (by decide) (visible "s~" (by simp))
    · decide +kernel

theorem scan_front_back : (∀ root ∈ [front, back], root.Readable) ∧
    ∃ index, ClassIndex.scan ([front, back].map RootFolder.classRoot) = .ok index ∧
      index.resolve "p" = some ⟨"front/p", 0⟩ ∧ index.resolve "p/q" = some ⟨"back/p/q", 1⟩ ∧
      (index.resolve ".git/p").isSome = false ∧ index.services["s"]? = some ["a/A", "b/B"] ∧
      index.services["s~"]? = none ∧ index.serviceClasses.Perm (index.services.toList.flatMap Prod.snd) := by
  obtain ⟨index, scanned, present, resolved, listed, balanced⟩ := ClassIndex.scan_merges [front, back] readable
  refine ⟨readable, index, scanned, ?_, ?_, ?_, ?_, ?_, balanced⟩
  · exact (resolved "p" _).mpr ⟨[], front, [back], rfl, by decide +kernel, by simp, by decide +kernel⟩
  · exact (resolved "p/q" _).mpr ⟨[front], back, [], rfl, by decide +kernel, by decide +kernel, by decide +kernel⟩
  · rw [← Bool.not_eq_true, present]
    decide +kernel
  · exact (listed "s" _).mpr ⟨⟨front, by simp, by decide +kernel⟩, by decide +kernel⟩
  · refine Option.eq_none_iff_forall_ne_some.mpr fun classes known => ?_
    have described := ((listed "s~" classes).mp known).1
    revert described
    decide +kernel

end TwoRoots

end JvmUnits
