import JvmUnits.Proofs.OutputFiles
import JvmUnits.Proofs.ReadValues
import JvmUnits.Proofs.StrippedSignatures

/-!
# Where native methods are stored

The unit of a class names the file with its native methods by the runtime name of the class. The file itself keeps its own last
name when it is stored beside the unit, and that is the last part of the physical name. So the file is where the unit says
exactly when removing the home package leaves the last part of the physical name alone (`Session.compile_natives`). It does
where the home package ends in a slash and stands in the name only where a part starts. The home package may also stand in the
middle of a part: then the part in front of it grows together with the last part, and the file is stored under another name
than the unit says (`GrownTogether.native_misplaced`).
-/

namespace JvmUnits

/-! ## Removing the home package part by part -/

/-- What stands behind the text starts a part of a path. -/
def StartsPart (text : List Char) : Prop := text = [] ∨ text.getLast? = some '/'

instance (text : List Char) : Decidable (StartsPart text) := inferInstanceAs (Decidable (_ ∨ _))

/-- Every text is a folder, which may be empty, and a name without slashes. -/
theorem exists_folder_append (text : List Char) : ∃ folder name, text = folder ++ name ∧ StartsPart folder ∧ '/' ∉ name := by
  induction text with
  | nil => exact ⟨[], [], rfl, Or.inl rfl, List.not_mem_nil⟩
  | cons c text ih =>
    obtain ⟨folder, name, rfl, starts, free⟩ := ih
    rcases starts with rfl | slash
    · by_cases same : c = '/'
      · exact ⟨[c], name, rfl, Or.inr (by simp [same]), free⟩
      · refine ⟨[], c :: name, rfl, Or.inl rfl, ?_⟩
        rw [List.mem_cons, not_or]
        exact ⟨Ne.symm same, free⟩
    · refine ⟨c :: folder, name, rfl, Or.inr ?_, free⟩
      rw [List.getLast?_cons, slash]
      rfl

section

variable {pattern name : List Char} (slash : pattern.getLast? = some '/') (free : '/' ∉ name)
include slash free

/-- A pattern that ends in a slash and starts in front of a name ends there. -/
theorem prefix_append_name_iff (front : List Char) : pattern <+: front ++ name ↔ pattern <+: front := by
  constructor
  · intro found
    rcases List.prefix_or_prefix_of_prefix found (List.prefix_append front name) with inside | ⟨rest, rfl⟩
    · exact inside
    · rw [List.prefix_append_right_inj] at found
      cases rest with
      | nil => simp
      | cons c rest =>
        rw [List.getLast?_append_of_ne_nil _ (List.cons_ne_nil c rest)] at slash
        exact absurd (found.subset (List.mem_of_getLast? slash)) free
  · intro found
    exact found.trans (List.prefix_append front name)

/-- A name without slashes stays as it is if the package ends in a slash. -/
theorem eraseOccurrences_name : eraseOccurrences pattern 0 name = name := by
  induction name with
  | nil => rfl
  | cons c name ih =>
    have absent : ¬ pattern.isPrefixOf (c :: name) = true := by
      rw [List.isPrefixOf_iff_prefix]
      intro found
      exact free (found.subset (List.mem_of_getLast? slash))
    rw [eraseOccurrences, if_neg absent, ih fun mem => free (List.mem_cons_of_mem c mem)]

/-- A pattern that ends in a slash is removed from a folder without regard to the name behind it. The occurrence that is being
passed over, if there is one, ends inside the folder. -/
theorem eraseOccurrences_append_name {skip : Nat} {folder : List Char} (inside : skip ≤ folder.length) :
    eraseOccurrences pattern skip (folder ++ name) = eraseOccurrences pattern skip folder ++ name := by
  induction folder generalizing skip with
  | nil =>
    obtain rfl : skip = 0 := by simpa using inside
    exact eraseOccurrences_name slash free
  | cons c folder ih =>
    cases skip with
    | succ skip => exact ih (by simpa using inside)
    | zero =>
      have same := prefix_append_name_iff slash free (c :: folder)
      rw [List.cons_append] at same ⊢
      by_cases found : pattern <+: c :: folder
      · have short : pattern.length - 1 ≤ folder.length := by
          have := found.length_le
          simp only [List.length_cons] at this
          omega
        rw [eraseOccurrences, if_pos (List.isPrefixOf_iff_prefix.mpr (same.mpr found)), ih short, eraseOccurrences,
          if_pos (List.isPrefixOf_iff_prefix.mpr found)]
      · have absent : ¬ pattern <+: c :: (folder ++ name) := fun further => found (same.mp further)
        rw [eraseOccurrences, if_neg (by rwa [List.isPrefixOf_iff_prefix]), ih (Nat.zero_le _), eraseOccurrences,
          if_neg (by rwa [List.isPrefixOf_iff_prefix]), List.cons_append]

end

/-- Where a pattern occurs only at starts of parts, a text that a part may follow is left so. The induction is on the text that
is still to be read: what is kept so far may be followed by a part if an occurrence is being passed over, or if what has been
read may be followed by one. -/
theorem startsPart_append_eraseOccurrences {pattern read kept text : List Char} {skip : Nat}
    (starts : ∀ front back, read ++ text = front ++ pattern ++ back → StartsPart front)
    (ready : 0 < skip ∨ StartsPart read → StartsPart kept) (ended : StartsPart (read ++ text)) :
    StartsPart (kept ++ eraseOccurrences pattern skip text) := by
  induction text generalizing read kept skip with
  | nil =>
    rw [List.append_nil] at ended
    rw [eraseOccurrences, List.append_nil]
    exact ready (Or.inr ended)
  | cons c text ih =>
    have regroup : read ++ c :: text = (read ++ [c]) ++ text := by simp
    rw [regroup] at starts ended
    cases skip with
    | succ skip => exact ih starts (fun _ => ready (Or.inl (Nat.succ_pos skip))) ended
    | zero =>
      rw [eraseOccurrences]
      split
      · rename_i found
        obtain ⟨back, rest⟩ := List.isPrefixOf_iff_prefix.mp found
        have here : StartsPart read := starts read back (by rw [← regroup, List.append_assoc, rest])
        exact ih starts (fun _ => ready (Or.inr here)) ended
      · have keeps : 0 < 0 ∨ StartsPart (read ++ [c]) → StartsPart (kept ++ [c]) := by
          rintro (positive | slash)
          · exact absurd positive (Nat.lt_irrefl 0)
          · right
            simpa [StartsPart] using slash
        simpa using ih starts keeps ended

/-- The last part of a path behind a folder. -/
theorem Path.fileName_folder_append {folder name : List Char} (starts : StartsPart folder) (free : '/' ∉ name) :
    fileName (String.ofList (folder ++ name)) = String.ofList name := by
  have single : parts (String.ofList name) = [String.ofList name] := by
    rw [parts, String.toList_ofList, pieces_of_not_mem free, List.map_singleton]
  rcases starts with rfl | slash
  · rw [List.nil_append, fileName, single]
    rfl
  · obtain ⟨front, rfl⟩ := List.getLast?_eq_some_iff.mp slash
    have split : String.ofList (front ++ ['/'] ++ name) = String.ofList front ++ "/" ++ String.ofList name := by
      rw [String.ofList_append, String.ofList_append]
    rw [split, fileName_append_slash, fileName, single]
    rfl

namespace Naming

/-- The home package stands in the name only where a part of the name starts. -/
def OnlyAtParts (naming : Naming) (name : String) : Prop :=
  ∀ front back, name.toList = front ++ naming.home.toList ++ back → StartsPart front

/-- Only the places of the name have to be looked at. -/
theorem onlyAtParts_iff {naming : Naming} {name : String} :
    naming.OnlyAtParts name ↔ ∀ count ≤ name.toList.length, naming.home.toList <+: name.toList.drop count →
      StartsPart (name.toList.take count) := by
  constructor
  · rintro only count _ ⟨back, found⟩
    refine only _ back ?_
    rw [List.append_assoc, found, List.take_append_drop]
  · intro only front back split
    have behind : name.toList.drop front.length = naming.home.toList ++ back := by
      rw [split, List.append_assoc, List.drop_left]
    have before : name.toList.take front.length = front := by rw [split, List.append_assoc, List.take_left]
    have short : front.length ≤ name.toList.length := by
      rw [split, List.append_assoc, List.length_append]
      exact Nat.le_add_right _ _
    rw [← before]
    exact only front.length short (behind ▸ List.prefix_append _ _)

instance (naming : Naming) (name : String) : Decidable (naming.OnlyAtParts name) := decidable_of_iff _ onlyAtParts_iff.symm

/-- Removing the home package leaves the last part of a name alone, if the home package ends in a slash and stands only where
parts start. -/
theorem fileName_strip {naming : Naming} (slash : naming.home.toList.getLast? = some '/') {name : String}
    (only : naming.OnlyAtParts name) : Path.fileName (naming.strip name) = Path.fileName name := by
  have nonempty : naming.home ≠ "" := by
    intro empty
    rw [empty] at slash
    cases slash
  obtain ⟨folder, last, split, starts, free⟩ := exists_folder_append name.toList
  have stripped : naming.strip name = String.ofList (eraseOccurrences naming.home.toList 0 folder ++ last) := by
    rw [← String.toList_inj, toList_strip nonempty, split, eraseOccurrences_append_name slash free (Nat.zero_le _),
      String.toList_ofList]
  have whole : name = String.ofList (folder ++ last) := by rw [← split, String.ofList_toList]
  have kept : StartsPart (eraseOccurrences naming.home.toList 0 folder) := by
    refine @startsPart_append_eraseOccurrences naming.home.toList [] [] folder 0 ?_ (fun _ => Or.inl rfl) starts
    intro front back same
    refine only front (back ++ last) ?_
    rw [split, ← List.append_assoc, ← same, List.nil_append]
  rw [stripped, Path.fileName_folder_append kept free, whole, Path.fileName_folder_append starts free]

end Naming

/-! ## Files of an index -/

namespace ClassIndex

/-- Every file of the index is under its path inside some folder. -/
def Located (index : ClassIndex) : Prop :=
  ∀ path entry, index.resolve path = some entry → ∃ folder, entry.path = Path.join folder path

/-- A file that is added brings one entry, unless its path is taken. -/
theorem entries_addFile {root : Nat} {rootPath : String} {before after : ClassIndex} {file : List String × Bytes}
    (added : addFile root rootPath before file = .ok after) :
    after.entries = before.entries.insertIfNew (Path.ofParts file.1) ⟨Path.join rootPath (Path.ofParts file.1), root⟩ := by
  unfold addFile at added
  split at added
  · cases added
    rfl
  · split at added
    · cases added
      rfl
    · split at added
      · cases added
      · cases added
        rfl

/-- A file that is added keeps the entries of an index where they belong. -/
theorem Located.addFile {root : Nat} {rootPath : String} {before after : ClassIndex} {file : List String × Bytes}
    (located : before.Located) (added : addFile root rootPath before file = .ok after) : after.Located := by
  intro path entry found
  rw [resolve, entries_addFile added, Std.TreeMap.getElem?_insertIfNew] at found
  split at found
  · rename_i new
    cases found
    rw [Std.compare_eq_iff_eq] at new
    rw [← new.1]
    exact ⟨rootPath, rfl⟩
  · exact located path entry found

/-- Every entry of a scanned index has its path inside the root. -/
theorem located_scan {roots : List ClassRoot} {index : ClassIndex} (scanned : scan roots = .ok index) : index.Located := by
  refine invariant_foldlM (fun root _ before after located added => ?_) (fun path entry found => ?_) scanned
  · unfold addRoot at added
    split at added
    · cases added
    · exact invariant_foldlM (fun file _ before after located added => located.addFile added) located added
  · simp [resolve] at found

end ClassIndex

/-! ## Native methods of artifacts -/

/-- The unit of a class names the file with its native methods by the runtime name of the class. -/
theorem ClassFile.native_of_translate {naming : Naming} {file : ClassFile} {unit : ClassUnit}
    (translated : file.translate naming = .ok unit) {method : MethodUnit} (mem : method ∈ unit.methods) {path : String}
    (native : method.implementation = .native path) : path = naming.strip unit.name ++ nativeEnding := by
  obtain ⟨info, names, yields⟩ := exists_of_mem_of_forall₂ (methods_of_translate translated) mem
  obtain ⟨_, _, _, _, rfl⟩ := translate_eq_ok translated
  obtain ⟨-, same⟩ | ⟨-, nodes, same, -⟩ := MethodInfo.implementation_cases yields
  · rw [native] at same
    cases same
    rfl
  · rw [native] at same
    cases same

/-- An artifact is that of an entry of the index, and its native methods are in the file with its physical name. -/
theorem Environment.entry_of_artifact {env : Environment} {physical runtimeName : String} {artifact : Artifact}
    (made : env.artifact physical runtimeName = .ok artifact) :
    ∃ entry, env.index.resolve (ClassIndex.classFilePath physical) = some entry ∧ artifact.root = entry.root ∧
      artifact.native = (env.index.resolve (physical ++ nativeEnding)).map IndexEntry.path := by
  obtain ⟨entry, _, _, _, found, _, _, _, rfl⟩ := artifact_cases made
  exact ⟨entry, found, rfl, rfl⟩

namespace Artifact

variable {artifact : Artifact} {source : String}

/-- The file with the native methods is stored beside the unit under its own last name. -/
theorem exists_nativePath (given : artifact.native = some source) :
    ∃ stored, artifact.nativePath = some stored ∧
      Path.parts stored = ("classpath" ++ toString artifact.root) :: (Path.parts artifact.runtimeName).dropLast ++
        [Path.fileName source] := by
  have unit : Path.parts artifact.path = ("classpath" ++ toString artifact.root) ::
      (Path.parts artifact.runtimeName).dropLast ++ [Path.fileName artifact.runtimeName ++ ".js"] := by
    rw [parts_path, Path.parts_append_ending (by decide)]
    rfl
  refine ⟨_, by rw [nativePath, given]; rfl, ?_⟩
  rw [unit, List.dropLast_concat]
  refine Path.parts_ofParts (by simp) fun part mem => ?_
  rcases List.mem_append.mp mem with mem | mem
  · have among : part ∈ Path.parts artifact.path := by
      rw [unit]
      exact List.mem_append_left _ mem
    exact Path.slash_not_mem_of_mem_parts among
  · rw [List.mem_singleton.mp mem]
    exact Path.slash_not_mem_of_mem_parts (Path.fileName_mem_parts source)

/-- It is where the runtime name says exactly if it has the last part of the runtime name for its name. -/
theorem nativePath_eq_iff {stored name : String}
    (parts : Path.parts stored = ("classpath" ++ toString artifact.root) :: (Path.parts artifact.runtimeName).dropLast ++
      [Path.fileName name ++ nativeEnding]) :
    stored = "classpath" ++ toString artifact.root ++ "/" ++ artifact.runtimeName ++ nativeEnding ↔
      Path.fileName artifact.runtimeName = Path.fileName name := by
  have target : Path.parts ("classpath" ++ toString artifact.root ++ "/" ++ artifact.runtimeName ++ nativeEnding) =
      ("classpath" ++ toString artifact.root) :: (Path.parts artifact.runtimeName).dropLast ++
        [Path.fileName artifact.runtimeName ++ nativeEnding] := by
    rw [String.append_assoc, parts_classpath, Path.parts_append_ending (by decide)]
    rfl
  rw [← Path.parts_injective.eq_iff, parts, target, List.append_cancel_left_eq, List.singleton_inj, String.append_left_inj]
  exact eq_comm

end Artifact

/-- In every session that compiles from scratch with success, a class that has a file with native methods beside its class file,
and whose class file gives it the name that it is found under, has its unit in the folder of its root under its runtime name,
and the unit names the file with the native methods by that name as well. The path that is listed for the file has the folder of
the unit and the last part of the physical name. It is the path that the unit gives exactly if the runtime name has the same last
part; so it is whenever the home package ends in a slash and stands in the physical name only where parts start. -/
theorem Session.compile_natives {session after : Session} {roots : List ClassRoot}
    (scanned : ClassIndex.scan roots = .ok session.environment.index) (untouched : session.run.state = {})
    (compiled : compile.run.run session = (.ok (), after)) {artifact : Artifact}
    (mem : artifact ∈ after.run.state.artifacts) {side : IndexEntry}
    (given : session.environment.index.resolve (artifact.physical ++ ".native.js") = some side)
    (declared : artifact.unit.name = artifact.physical) :
    artifact.runtimeName = session.environment.naming.strip artifact.physical ∧
      (∃ entry, session.environment.index.resolve (artifact.physical ++ ".class") = some entry ∧
        artifact.path = "classpath" ++ toString entry.root ++ "/" ++ artifact.runtimeName ++ ".js") ∧
      (∀ method ∈ artifact.unit.methods, ∀ path, method.implementation = .native path →
        path = artifact.runtimeName ++ ".native.js") ∧
      ∃ stored ∈ after.run.state.natives, artifact.nativePath = some stored ∧
        Path.parts stored = (Path.parts artifact.path).dropLast ++ [Path.fileName artifact.physical ++ ".native.js"] ∧
        (stored = "classpath" ++ toString artifact.root ++ "/" ++ artifact.runtimeName ++ ".native.js" ↔
          Path.fileName artifact.runtimeName = Path.fileName artifact.physical) ∧
        (session.environment.naming.home.toList.getLast? = some '/' →
          session.environment.naming.OnlyAtParts artifact.physical →
          stored = "classpath" ++ toString artifact.root ++ "/" ++ artifact.runtimeName ++ ".native.js") := by
  obtain ⟨_, state, inv, artifacts, _⟩ := Run.compile_eq_ok untouched (compilation_of_compile compiled)
  have within : artifact ∈ state.artifacts := artifacts ▸ mem
  have runtimeName := inv.runtimeName_eq within
  obtain ⟨name, _, _, made⟩ := inv.compiled artifact within
  obtain ⟨unit, physical, _⟩ := Environment.artifact_eq_ok made
  obtain ⟨entry, found, root, native⟩ := Environment.entry_of_artifact made
  obtain ⟨file, _, translated, _⟩ := Environment.classFile_of_classUnit unit
  rw [← physical] at found native
  have beside : session.environment.index.resolve (artifact.physical ++ nativeEnding) = some side := given
  rw [beside] at native
  -- the file in the index has the path of the class, with another ending, in some folder
  obtain ⟨folder, located⟩ := ClassIndex.located_scan scanned _ side given
  have source : Path.fileName side.path = Path.fileName artifact.physical ++ nativeEnding := by
    rw [located, Path.fileName_join]
    exact Path.fileName_append_ending (by decide) artifact.physical
  obtain ⟨stored, path, parts⟩ := Artifact.exists_nativePath native
  rw [source] at parts
  have placed := Artifact.nativePath_eq_iff parts
  refine ⟨runtimeName, ⟨entry, found, ?_⟩, fun method among path native => ?_, stored,
    List.mem_filterMap.mpr ⟨artifact, mem, path⟩, path, ?_, placed, fun slash only => placed.mpr ?_⟩
  · rw [Artifact.path, root]
  · rw [runtimeName, ← declared]
    exact ClassFile.native_of_translate translated among native
  · rw [parts, Artifact.parts_path, Path.parts_append_ending (by decide), ← List.cons_append, List.dropLast_concat]
    rfl
  · rw [runtimeName]
    exact Naming.fileName_strip slash only

/-! ## Two classes with native methods -/

namespace GrownTogether

/-- The class file of `art/C`, which has a native method `m`. -/
def grown : Bytes :=
  [0xCA, 0xFE, 0xBA, 0xBE, 0, 0, 0, 52, 0, 5, 1, 0, 5, 97, 114, 116, 47, 67, 7, 0, 1, 1, 0, 1, 109, 1, 0, 3, 40, 41, 86,
    0, 0, 0, 2, 0, 0, 0, 0, 0, 0, 0, 1, 1, 0, 0, 3, 0, 4, 0, 0, 0, 0]

/-- The class file of `rt/java/B`, which has a native method `m`. -/
def housed : Bytes :=
  [0xCA, 0xFE, 0xBA, 0xBE, 0, 0, 0, 52, 0, 5, 1, 0, 9, 114, 116, 47, 106, 97, 118, 97, 47, 66, 7, 0, 1, 1, 0, 1, 109,
    1, 0, 3, 40, 41, 86, 0, 0, 0, 2, 0, 0, 0, 0, 0, 0, 0, 1, 1, 0, 0, 3, 0, 4, 0, 0, 0, 0]

/-- Both classes have a file with native methods beside their class file. -/
def disk : Disk :=
  ⟨.folder [("r", .folder [("art", .folder [("C.class", .file grown), ("C.native.js", .file [67])]),
    ("rt", .folder [("java", .folder [("B.class", .file housed), ("B.native.js", .file [66])])])])], []⟩

def config : CompilerConfig := ⟨["r"], "o", some "*", [], ⟨"rt/"⟩⟩

def files : List (List String × Bytes) :=
  [(["art", "C.class"], grown), (["art", "C.native.js"], [67]), (["rt", "java", "B.class"], housed),
    (["rt", "java", "B.native.js"], [66])]

def session : Session :=
  ⟨config, ⟨⟨"rt/"⟩, ∅, (files.foldlM (ClassIndex.addFile 0 "r") {}).toOption.getD {}, disk.read, .standard⟩,
    ⟨{}, disk, Session.openingNews⟩⟩

/-- The session starts on the disk. -/
theorem start_disk : Session.start config ∅ disk = .ok session := by
  obtain ⟨listing, opened, found⟩ : ∃ listing, disk.entries "r" = .ok listing ∧ indexedFiles listing = files := by
    refine ⟨_, rfl, ?_⟩
    have ordered : (files.map Prod.fst).Pairwise fun one other => (!decide (other < one)) = true := by decide +kernel
    exact List.mergeSort_of_pairwise (List.pairwise_map.mp ordered)
  have indexed : (files.foldlM (ClassIndex.addFile 0 "r") {}).isOk = true := by decide +kernel
  rw [← found] at indexed
  have started := @Session.start_of_files config ∅ disk "r" listing rfl opened indexed
  rwa [found] at started

theorem scan_disk : ClassIndex.scan [disk.classRoot "r"] = .ok session.environment.index := by
  obtain ⟨index, scanned, same⟩ := Session.start_eq_ok start_disk
  rw [congrArg (fun started => started.environment.index) same]
  exact scanned

/-- The unit of the method `m` of a class with the given runtime name. -/
def method (runtimeName : String) : MethodUnit :=
  ⟨"m", "()V", ⟨.void, []⟩, [], .native (runtimeName ++ ".native.js"), [.isNative]⟩

/-- What a compilation of both classes makes. -/
def artifacts : List Artifact :=
  [⟨"art/C", 0, "aC", ⟨"art/C", none, [], [], [method "aC"], []⟩, some "r/art/C.native.js"⟩,
    ⟨"rt/java/B", 0, "java/B", ⟨"rt/java/B", none, [], [], [method "java/B"], []⟩, some "r/rt/java/B.native.js"⟩]

/-- The session compiles with success. -/
theorem compile_session :
    ∃ after, Session.compile.run.run session = (.ok (), after) ∧ after.run.state.artifacts = artifacts := by
  have seeds : session.seeds = ["art/C", "rt/java/B"] := by decide +kernel
  obtain ⟨state, chain, made⟩ : ∃ state, Relation.ReflTransGen session.environment.Step
      (["art/C", "rt/java/B"], { session.run.state with
        services := session.environment.index.services, fragments := session.environment.index.fragments }) ([], state) ∧
      state.artifacts = artifacts := by
    refine Exists.imp (fun state => And.imp_left (.head (@Environment.Step.compile session.environment "art/C" ["rt/java/B"] _
      artifacts[0] (by decide +kernel) (by decide +kernel) (by decide +kernel) (by decide +kernel)))) ?_
    rw [show ["rt/java/B"] ++ _ = ["rt/java/B"] by decide +kernel]
    refine Exists.imp (fun state => And.imp_left (.head (@Environment.Step.compile session.environment "rt/java/B" [] _
      artifacts[1] (by decide +kernel) (by decide +kernel) (by decide +kernel) (by decide +kernel)))) ?_
    rw [show ([] : List String) ++ _ = [] by decide +kernel]
    exact ⟨_, .refl, rfl⟩
  rw [← seeds] at chain
  obtain ⟨after, compiled, same⟩ : ∃ after, Session.compile.run.run session = (.ok (), after) ∧
      after.run.state.artifacts = state.artifacts :=
    Session.compile_of_steps (by decide +kernel) chain made (by decide +kernel)
  exact ⟨after, compiled, same.trans made⟩

/-- The native methods of `rt/java/B` are where its unit says. -/
theorem native_placed : ∃ after, Session.start config ∅ disk = .ok session ∧ Session.compile.run.run session = (.ok (), after) ∧
    session.environment.index.resolve "rt/java/B.native.js" = some ⟨"r/rt/java/B.native.js", 0⟩ ∧
    config.naming.OnlyAtParts "rt/java/B" ∧ (method "java/B").implementation = .native "java/B.native.js" ∧
    "classpath0/java/B.native.js" ∈ after.run.state.natives := by
  obtain ⟨after, compiled, made⟩ := compile_session
  have mem : artifacts[1] ∈ after.run.state.artifacts := by
    rw [made]
    exact List.getElem_mem _
  have given : session.environment.index.resolve "rt/java/B.native.js" = some ⟨"r/rt/java/B.native.js", 0⟩ := by
    decide +kernel
  have only : config.naming.OnlyAtParts "rt/java/B" := by decide +kernel
  obtain ⟨_, _, _, stored, among, _, _, _, placed⟩ := Session.compile_natives scan_disk rfl compiled mem given rfl
  rw [placed (by decide +kernel) only] at among
  exact ⟨after, start_disk, compiled, given, only, rfl, among⟩

/-- The home package stands at the end of `art/`, so the runtime name of `art/C` is `aC`. The unit is stored as `aC.js` and says
that the native methods are in `aC.native.js`, but they are stored as `C.native.js`. -/
theorem native_misplaced : ∃ after, Session.start config ∅ disk = .ok session ∧
    Session.compile.run.run session = (.ok (), after) ∧ after.run.state.artifacts = artifacts ∧
    session.environment.index.resolve (artifacts[0].physical ++ ".native.js") = some ⟨"r/art/C.native.js", 0⟩ ∧
    artifacts[0].unit.name = artifacts[0].physical ∧ artifacts[0].path = "classpath0/aC.js" ∧
    artifacts[0].unit.methods.map MethodUnit.implementation = [.native "aC.native.js"] ∧
    artifacts[0].nativePath = some "classpath0/C.native.js" ∧
    after.run.state.natives = ["classpath0/C.native.js", "classpath0/java/B.native.js"] := by
  obtain ⟨after, compiled, made⟩ := compile_session
  have natives : after.run.state.natives = ["classpath0/C.native.js", "classpath0/java/B.native.js"] := by
    rw [BuildState.natives, made]
    decide +kernel
  exact ⟨after, start_disk, compiled, made, by decide +kernel, rfl, by decide +kernel, by decide +kernel, by decide +kernel,
    natives⟩

end GrownTogether

end JvmUnits
