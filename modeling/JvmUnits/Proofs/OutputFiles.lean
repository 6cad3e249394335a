import JvmUnits.Proofs.DiskFrames
import JvmUnits.Proofs.HandledOnce
import Mathlib.Data.List.Dedup
import Mathlib.Data.List.Perm.Basic

/-!
# Output files

A unit is written to a path that is made of its root and its runtime name, while a compilation tells classes apart by their
physical names. So two classes can share an output file: `B` and the class of that name in the home package have the runtime
name `B`, and the unit of one replaces that of the other (`SharedOutput.compile_overwrites`). Each output file belongs to one
class exactly where runtime names tell the compiled classes apart, as they do when the home package is in use for platform
classes alone; and then every unit is on the disk at the end as it was written (`Session.compile_outputs`).
-/

namespace JvmUnits

/-! ## Paths of units -/

theorem slash_not_mem_toString (n : Nat) : '/' ∉ (toString n).toList := by
  have digits : (toString n).toList = Nat.toDigits 10 n := by
    simp [toString, Nat.repr]
  rw [digits]
  intro mem
  have digit := Nat.isDigit_of_mem_toDigits (by decide) (by decide) mem
  cases digit

/-- A path inside the output folder starts with the folder of a root. -/
theorem parts_classpath (root : Nat) (inner : String) :
    Path.parts ("classpath" ++ toString root ++ "/" ++ inner) = ("classpath" ++ toString root) :: Path.parts inner := by
  have free : '/' ∉ ("classpath" ++ toString root).toList := by
    rw [String.toList_append, List.mem_append, not_or]
    exact ⟨by decide, slash_not_mem_toString root⟩
  have folder : Path.parts ("classpath" ++ toString root) = ["classpath" ++ toString root] := by
    rw [Path.parts, pieces_of_not_mem free, List.map_singleton, String.ofList_toList]
  rw [Path.parts_append_slash, folder]
  rfl

namespace Artifact

/-- The parts of the path of a unit: the folder of the root, and those of the runtime name with the ending. -/
theorem parts_path (artifact : Artifact) :
    Path.parts artifact.path = ("classpath" ++ toString artifact.root) :: Path.parts (artifact.runtimeName ++ ".js") := by
  rw [path, String.append_assoc, parts_classpath]

/-- Units with the same path have the same runtime name. -/
theorem runtimeName_of_path {one other : Artifact} (same : one.path = other.path) : one.runtimeName = other.runtimeName := by
  have parts : Path.parts one.path = Path.parts other.path := by rw [same]
  rw [parts_path, parts_path, List.cons.injEq] at parts
  exact (String.append_left_inj ".js").mp (Path.parts_injective parts.2)

end Artifact

namespace BuildState

/-- There are recorded references for each runtime name of an artifact once. -/
theorem size_references (naming : Naming) (state : BuildState) :
    (state.references naming).size = (state.artifacts.map Artifact.runtimeName).dedup.length := by
  rw [← Std.TreeMap.length_keys]
  refine List.Perm.length_eq ((List.perm_ext_iff_of_nodup Std.TreeMap.nodup_keys (List.nodup_dedup _)).mpr fun name => ?_)
  rw [Std.TreeMap.mem_keys, mem_references, List.mem_dedup, List.mem_map]

/-- The runtime names of the compiled classes tell them apart. -/
def TellsApart (naming : Naming) (state : BuildState) : Prop :=
  ∀ one ∈ state.artifacts, ∀ other ∈ state.artifacts, naming.strip one.physical = naming.strip other.physical →
    one.physical = other.physical

end BuildState

/-! ## Stored artifacts -/

namespace Artifact

variable {naming : Naming} {output : String} {artifact : Artifact} {home : List String}

/-- The paths that an artifact is stored at. -/
def targets (output : String) (artifact : Artifact) : List String :=
  Path.join output artifact.path :: artifact.nativePath.toList.map (Path.join output)

/-- Storing an artifact changes only the files that it is stored at. -/
theorem touches_save {written : List String → Prop}
    (allowed : ∀ target ∈ artifact.targets output, written (Path.chain home target)) :
    Touches home written (artifact.save naming output) := by
  have unit := allowed _ List.mem_cons_self
  unfold save
  refine .bind ((DiskAction.touches_createFolders _).adapt _) fun _ => ?_
  refine .bind ((DiskAction.touches_write _ unit).adapt _) fun _ => ?_
  split
  · rename_i source inner _ native
    have mem : Path.join output inner ∈ artifact.targets output := by simp [targets, native]
    exact (DiskAction.touches_copy _ (allowed _ mem)).adapt _
  · exact .pure _

/-- An artifact that has been stored has its unit on the disk, unless its native methods are stored at the same place. -/
theorem unit_of_save {disk after : Disk} (h : (artifact.save naming output).run disk = (.ok (), after))
    (spared : ∀ inner ∈ artifact.nativePath, Path.chain disk.workingFolder (Path.join output inner) ≠
      Path.chain disk.workingFolder (Path.join output artifact.path)) :
    after.tree.get? (Path.chain disk.workingFolder (Path.join output artifact.path)) =
        some (.file (Utf8.encode (artifact.unit.render naming))) ∧
      ∃ place, after.place (Path.join output artifact.path) = .ok place := by
  obtain ⟨_, begun, created, h⟩ := of_run_bind_ok h
  obtain ⟨_, middle, wrote, h⟩ := of_run_bind_ok h
  have first : disk.Leaves (fun _ => False) begun :=
    (DiskAction.touches_createFolders _).leaves rfl (of_run_adapt_ok created)
  have second : begun.Leaves (fun _ => True) middle :=
    (DiskAction.touches_write _ trivial).leaves rfl (of_run_adapt_ok wrote)
  have here : middle.workingFolder = disk.workingFolder := second.workingFolder.trans first.workingFolder
  obtain ⟨unit, place, walked⟩ := DiskAction.file_of_write (of_run_adapt_ok wrote)
  rw [first.workingFolder] at unit
  have last : middle.Leaves
      (fun names => ∃ inner ∈ artifact.nativePath, names = Path.chain disk.workingFolder (Path.join output inner)) after := by
    split at h
    · rename_i source inner _ native
      exact (DiskAction.touches_copy source ⟨inner, native, rfl⟩).leaves here (of_run_adapt_ok h)
    · cases h
      exact .refl _
  refine ⟨last.file unit ?_, last.exists_place walked⟩
  rintro ⟨inner, native, same⟩
  exact spared inner native same.symm

end Artifact

namespace Store

variable {naming : Naming} {output : String}

/-- Storing an artifact on a disk is saving it there. -/
theorem run_save_of_onDisk {artifact : Artifact} {disk after : Disk} {result : Except Error Unit}
    (h : Store.onDisk naming output artifact disk = (after, result)) :
    (artifact.save naming output).run disk = (result, after) := by
  unfold Store.onDisk at h
  generalize (artifact.save naming output).run disk = saved at h ⊢
  cases h
  rfl

/-- Storing artifacts changes only the files that they are stored at. -/
theorem leaves_all {home : List String} {written : List String → Prop} {artifacts : List Artifact} {disk after : Disk}
    {result : Except Error Unit} (here : disk.workingFolder = home)
    (allowed : ∀ artifact ∈ artifacts, ∀ target ∈ artifact.targets output, written (Path.chain home target))
    (h : (Store.onDisk naming output).all artifacts disk = (after, result)) : disk.Leaves written after := by
  induction artifacts generalizing disk with
  | nil =>
    cases h
    exact .refl _
  | cons artifact rest ih =>
    have saved : Touches home written (artifact.save naming output) :=
      Artifact.touches_save (allowed artifact List.mem_cons_self)
    rw [Store.all] at h
    split at h
    · rename_i middle cause first
      cases h
      exact saved.leaves here (run_save_of_onDisk first)
    · rename_i middle first
      have begun := saved.leaves here (run_save_of_onDisk first)
      exact begun.trans (ih (begun.workingFolder.trans here) (fun other mem => allowed other (List.mem_cons_of_mem _ mem)) h)

/-- Where every unit has a place of its own, the unit of each artifact is on the disk when all have been stored, unless native
methods are stored at its place. -/
theorem read_of_all {artifacts : List Artifact} {disk after : Disk}
    (h : (Store.onDisk naming output).all artifacts disk = (after, .ok ()))
    (distinct : artifacts.Pairwise fun one other => Path.chain disk.workingFolder (Path.join output one.path) ≠
      Path.chain disk.workingFolder (Path.join output other.path))
    {artifact : Artifact} (mem : artifact ∈ artifacts)
    (spared : ∀ other ∈ artifacts, ∀ inner ∈ other.nativePath, Path.chain disk.workingFolder (Path.join output inner) ≠
      Path.chain disk.workingFolder (Path.join output artifact.path)) :
    after.read (Path.join output artifact.path) = .ok (Utf8.encode (artifact.unit.render naming)) := by
  induction artifacts generalizing disk with
  | nil => cases mem
  | cons first rest ih =>
    rw [Store.all] at h
    split at h
    · cases h
    · rename_i middle saved
      have saved := run_save_of_onDisk saved
      have touched : Touches disk.workingFolder (fun _ => True) (first.save naming output) :=
        Artifact.touches_save fun _ _ => trivial
      have here : middle.workingFolder = disk.workingFolder := (touched.leaves rfl saved).workingFolder
      obtain ⟨apart, distinct⟩ := List.pairwise_cons.mp distinct
      rcases List.mem_cons.mp mem with rfl | mem
      · obtain ⟨unit, place, walked⟩ := Artifact.unit_of_save saved (spared artifact List.mem_cons_self)
        -- What is stored later is stored elsewhere.
        have later : middle.Leaves (· ≠ Path.chain disk.workingFolder (Path.join output artifact.path)) after := by
          refine leaves_all here (fun other mem target among => ?_) h
          rcases List.mem_cons.mp among with rfl | among
          · exact (apart other mem).symm
          · obtain ⟨inner, native, rfl⟩ := List.mem_map.mp among
            exact spared other (List.mem_cons_of_mem _ mem) inner (Option.mem_toList.mp native)
        obtain ⟨there, reached⟩ := later.exists_place walked
        refine Disk.read_of_file reached ?_
        rw [later.workingFolder, here]
        exact later.file unit (fun other => other rfl)
      · rw [← here] at distinct spared
        exact ih h distinct mem (fun other among => spared other (List.mem_cons_of_mem _ among))

end Store

/-! ## Outputs of a compilation -/

/-- A spelling that leads to the class file of its runtime name. Such are names in which the home package does not occur, and
those of platform classes with the home package in front; the home package in front of any other name makes it irregular. -/
def Naming.IsRegular (naming : Naming) (name : String) : Prop := naming.physical (naming.strip name) = naming.physical name

instance (naming : Naming) (name : String) : Decidable (naming.IsRegular name) := inferInstanceAs (Decidable (_ = _))

namespace Environment

variable {env : Environment} {seeds : List String} {state : BuildState}

/-- An artifact has the runtime name of its physical name. -/
theorem Invariant.runtimeName_eq (inv : env.Invariant seeds [] state) {artifact : Artifact} (mem : artifact ∈ state.artifacts) :
    artifact.runtimeName = env.naming.strip artifact.physical := by
  obtain ⟨name, _, _, made⟩ := inv.compiled artifact mem
  obtain ⟨_, physical, runtimeName⟩ := artifact_eq_ok made
  rw [runtimeName, physical, Naming.strip_physical]

/-- Where every class is reached under regular names alone, runtime names tell the compiled classes apart. -/
theorem Invariant.tellsApart (inv : env.Invariant seeds [] state)
    (regular : ∀ name, env.Reachable seeds name → env.isBuiltin name = false → env.naming.IsRegular name) :
    state.TellsApart env.naming := by
  -- The physical name of an artifact is that of its runtime name.
  have found : ∀ artifact ∈ state.artifacts, env.naming.physical (env.naming.strip artifact.physical) = artifact.physical := by
    intro artifact mem
    obtain ⟨name, reached, own, made⟩ := inv.compiled artifact mem
    obtain ⟨_, physical, _⟩ := artifact_eq_ok made
    rw [physical, Naming.strip_physical]
    exact regular name reached own
  intro one memOne other memOther same
  rw [← found one memOne, same, found other memOther]

end Environment

namespace BuildState

variable {naming : Naming} {state : BuildState}

/-- Runtime names are different exactly if they tell the compiled classes apart. -/
theorem nodup_runtimeNames_iff (classes : (state.artifacts.map Artifact.physical).Nodup)
    (named : ∀ artifact ∈ state.artifacts, artifact.runtimeName = naming.strip artifact.physical) :
    (state.artifacts.map Artifact.runtimeName).Nodup ↔ state.TellsApart naming := by
  have names : state.artifacts.map Artifact.runtimeName = (state.artifacts.map Artifact.physical).map naming.strip := by
    rw [List.map_map]
    exact List.map_congr_left named
  rw [names, List.nodup_map_iff_inj_on classes]
  constructor
  · intro inj one memOne other memOther same
    exact inj _ (List.mem_map_of_mem memOne) _ (List.mem_map_of_mem memOther) same
  · intro apart physical memPhysical physical' memPhysical' same
    obtain ⟨one, memOne, rfl⟩ := List.mem_map.mp memPhysical
    obtain ⟨other, memOther, rfl⟩ := List.mem_map.mp memPhysical'
    exact apart one memOne other memOther same

/-- Different runtime names have different paths. -/
theorem nodup_compiled (names : (state.artifacts.map Artifact.runtimeName).Nodup) : state.compiled.Nodup := by
  rw [List.Nodup, List.pairwise_map] at names
  rw [compiled, List.Nodup, List.pairwise_map]
  exact names.imp fun ne same => ne (Artifact.runtimeName_of_path same)

/-- There is one entry of references for each artifact exactly when the runtime names differ. -/
theorem size_references_eq_iff :
    (state.references naming).size = state.compiled.length ↔ (state.artifacts.map Artifact.runtimeName).Nodup := by
  rw [size_references, compiled, List.length_map, ← List.length_map Artifact.runtimeName, ← List.dedup_eq_self]
  constructor
  · intro same
    exact (List.dedup_sublist _).eq_of_length same
  · intro same
    rw [same]

end BuildState

namespace Session

variable {session after : Session}

/-- A session that compiles with success has compiled each class once. Each of its output files and each entry of its references
belongs to one class exactly when runtime names tell the compiled classes apart; they do if every reachable class is spelled
regularly. In that case each unit is on the disk at the end as it was written, provided that the output paths are clean and
that no native methods are stored in its place. -/
theorem compile_outputs (untouched : session.run.state = {}) (compiled : compile.run.run session = (.ok (), after)) :
    (after.run.state.artifacts.map Artifact.physical).Nodup ∧
      (after.run.state.compiled.Nodup ∧
          (after.run.state.references session.config.naming).size = after.run.state.compiled.length ↔
        after.run.state.TellsApart session.environment.naming) ∧
      ((∀ name, session.environment.Reachable session.seeds name → session.environment.isBuiltin name = false →
          session.environment.naming.IsRegular name) →
        after.run.state.TellsApart session.environment.naming) ∧
      (after.run.state.TellsApart session.environment.naming → (∀ path ∈ after.run.state.compiled, Path.IsClean path) →
        ∀ artifact ∈ after.run.state.artifacts,
          (∀ inner ∈ after.run.state.natives,
            Path.chain session.run.storage.workingFolder (Path.join session.config.output inner) ≠
              Path.chain session.run.storage.workingFolder (Path.join session.config.output artifact.path)) →
          after.run.storage.read (Path.join session.config.output artifact.path) =
            .ok (Utf8.encode (artifact.unit.render session.config.naming))) := by
  have ended := compilation_of_compile compiled
  obtain ⟨stored, state, inv, artifacts, _⟩ := Run.compile_eq_ok untouched ended
  have classes : (after.run.state.artifacts.map Artifact.physical).Nodup := by
    obtain ⟨added, more, distinct⟩ := Run.nodup_physical_compile session.environment
      (.onDisk session.config.naming session.config.output) session.seeds session.run
    rw [show session.run.compile _ _ _ = _ from ended, untouched] at more
    rw [more]
    exact distinct
  have named : ∀ artifact ∈ after.run.state.artifacts,
      artifact.runtimeName = session.environment.naming.strip artifact.physical := by
    rw [artifacts]
    exact fun artifact mem => inv.runtimeName_eq mem
  have names := BuildState.nodup_runtimeNames_iff classes named
  refine ⟨classes, ⟨?_, ?_⟩, ?_, ?_⟩
  · rintro ⟨_, size⟩
    exact names.mp (BuildState.size_references_eq_iff.mp size)
  · intro apart
    have distinct := names.mpr apart
    exact ⟨BuildState.nodup_compiled distinct, BuildState.size_references_eq_iff.mpr distinct⟩
  · intro regular
    unfold BuildState.TellsApart
    rw [artifacts]
    exact inv.tellsApart regular
  · intro apart clean artifact mem spared
    have distinct := BuildState.nodup_compiled (names.mpr apart)
    rw [BuildState.compiled, List.Nodup, List.pairwise_map] at distinct
    refine Store.read_of_all stored (distinct.imp_of_mem ?_) mem ?_
    · intro one other memOne memOther ne same
      have cleanOne := clean one.path (List.mem_map_of_mem memOne)
      have cleanOther := clean other.path (List.mem_map_of_mem memOther)
      exact ne (Path.chain_join_injective _ _ cleanOne cleanOther same)
    · intro other among inner native
      exact spared inner (List.mem_filterMap.mpr ⟨other, among, native⟩)

end Session

/-! ## Two classes with an output file each -/

namespace CyclicPair

/-- From `A` only three names can be reached. -/
theorem mem_of_reachable {name : String} (reached : environment.Reachable ["A"] name) : name ∈ ["A", "java/B", "java/O"] := by
  have plainUnit : environment.classUnit (environment.naming.physical "A") = .ok artifacts[0].unit := by decide +kernel
  have platformUnit : environment.classUnit (environment.naming.physical "java/B") = .ok artifacts[1].unit := by
    decide +kernel
  induction reached with
  | seed mem =>
    rw [List.mem_singleton.mp mem]
    exact List.mem_cons_self
  | reference _ own made mem known =>
    simp only [List.mem_cons, List.not_mem_nil, or_false] at known
    rcases known with rfl | rfl | rfl
    · rw [plainUnit, Except.ok.injEq] at made
      rw [← made] at mem
      exact (by decide : artifacts[0].unit.references ⊆ ["A", "java/B", "java/O"]) mem
    · rw [platformUnit, Except.ok.injEq] at made
      rw [← made] at mem
      exact (by decide : artifacts[1].unit.references ⊆ ["A", "java/B", "java/O"]) mem
    · exact absurd own (by decide +kernel)

/-- Both units are on the disk at the end. -/
theorem session_outputs : ∃ after, Session.compile.run.run session = (.ok (), after) ∧
    after.run.state.compiled = ["classpath0/A.js", "classpath0/java/B.js"] ∧
    (after.run.state.references ⟨"rt/"⟩).size = 2 ∧
    ∀ artifact ∈ artifacts, after.run.storage.read (Path.join "o" artifact.path) =
      .ok (Utf8.encode (artifact.unit.render ⟨"rt/"⟩)) := by
  obtain ⟨after, compiled, made⟩ := compile_session
  have seeds : session.seeds = ["A"] := by decide +kernel
  have paths : after.run.state.compiled = ["classpath0/A.js", "classpath0/java/B.js"] := by
    rw [BuildState.compiled, made]
    decide +kernel
  have natives : after.run.state.natives = [] := by
    rw [BuildState.natives, made]
    rfl
  obtain ⟨_, told, regular, written⟩ := Session.compile_outputs rfl compiled
  rw [seeds] at regular
  have apart : after.run.state.TellsApart session.environment.naming := by
    refine regular fun name reached _ => ?_
    have spelled : ∀ name ∈ ["A", "java/B", "java/O"], environment.naming.IsRegular name := by decide +kernel
    exact spelled name (mem_of_reachable reached)
  obtain ⟨_, size⟩ := told.mpr apart
  rw [paths] at size
  refine ⟨after, compiled, paths, size, fun artifact mem => ?_⟩
  rw [← made] at mem
  refine written apart ?_ artifact mem ?_
  · rw [paths]
    decide +kernel
  · rw [natives]
    exact fun inner none => absurd none List.not_mem_nil

end CyclicPair

/-! ## Two classes with one output file -/

namespace SharedOutput

/-- The class file of `B`, a subclass of `java/O`. -/
def plain : Bytes :=
  [0xCA, 0xFE, 0xBA, 0xBE, 0, 0, 0, 52, 0, 5, 1, 0, 1, 66, 7, 0, 1, 1, 0, 6, 106, 97, 118, 97, 47, 79, 7, 0, 3,
    0, 0, 0, 2, 0, 4, 0, 0, 0, 0, 0, 0, 0, 0]

/-- The class file of `rt/B`, which has no superclass. -/
def housed : Bytes :=
  [0xCA, 0xFE, 0xBA, 0xBE, 0, 0, 0, 52, 0, 3, 1, 0, 4, 114, 116, 47, 66, 7, 0, 1, 0, 0, 0, 2, 0, 0, 0, 0, 0, 0, 0, 0, 0, 0]

def environment : Environment where
  naming := ⟨"rt/"⟩
  builtins := (∅ : Builtins).insert "java/O"
  index := { entries := (∅ : Std.TreeMap String IndexEntry).insert "B.class" ⟨"B", 0⟩ |>.insert "rt/B.class" ⟨"rtB", 0⟩ }
  contents path := .ok (if path = "B" then plain else housed)

def session : Session where
  config := ⟨[], "o", some "*", [], ⟨"rt/"⟩⟩
  environment := environment
  run := ⟨{}, ⟨.folder [("o", .folder [("classpath0", .folder [])])], []⟩, #[]⟩

/-- What a compilation of both classes makes. -/
def artifacts : List Artifact :=
  [⟨"B", 0, "B", ⟨"B", some "java/O", [], [], [], ["java/O"]⟩, none⟩, ⟨"rt/B", 0, "B", ⟨"rt/B", none, [], [], [], []⟩, none⟩]

/-- A chain of steps compiles both classes. -/
theorem steps : ∃ state, Relation.ReflTransGen environment.Step (["B", "rt/B"], {}) ([], state) ∧
    state.artifacts = artifacts := by
  refine Exists.imp (fun state => And.imp_left (.head (@Environment.Step.compile environment "B" ["rt/B"] {} artifacts[0]
    (by decide +kernel) (by decide +kernel) (by decide +kernel) (by decide +kernel)))) ?_
  rw [show ["rt/B"] ++ _ = ["rt/B", "java/O"] by decide +kernel]
  refine Exists.imp (fun state => And.imp_left (.head (@Environment.Step.compile environment "rt/B" ["java/O"] _ artifacts[1]
    (by decide +kernel) (by decide +kernel) (by decide +kernel) (by decide +kernel)))) ?_
  rw [show ["java/O"] ++ _ = ["java/O"] by decide +kernel]
  exact ⟨_, .single (.builtin (by decide +kernel) (by decide +kernel)), rfl⟩

/-- Of artifacts that are stored one after the other, the last one has its unit on the disk. -/
theorem read_last {disk after : Disk} (h : (Store.onDisk ⟨"rt/"⟩ "o").all artifacts disk = (after, .ok ())) :
    after.read (Path.join "o" artifacts[1].path) = .ok (Utf8.encode (artifacts[1].unit.render ⟨"rt/"⟩)) := by
  unfold artifacts at h
  rw [Store.all] at h
  split at h
  · cases h
  · refine Store.read_of_all h (List.pairwise_singleton _ _) (List.mem_singleton_self _) fun other mem inner native => ?_
    rw [List.mem_singleton.mp mem] at native
    cases native

/-- The runtime name `B` belongs to two classes. Both are compiled; the unit of the second replaces that of the first, and there
is one entry of references. -/
theorem compile_overwrites : ∃ after, Session.compile.run.run session = (.ok (), after) ∧
    after.run.state.artifacts = artifacts ∧ artifacts.map Artifact.physical = ["B", "rt/B"] ∧
    after.run.state.compiled = ["classpath0/B.js", "classpath0/B.js"] ∧
    (after.run.state.references ⟨"rt/"⟩).toList = [("B", [])] ∧
    after.run.storage.read "o/classpath0/B.js" = .ok (Utf8.encode (artifacts[1].unit.render ⟨"rt/"⟩)) ∧
    artifacts[0].unit.render ⟨"rt/"⟩ ≠ artifacts[1].unit.render ⟨"rt/"⟩ := by
  obtain ⟨state, chain, made⟩ := steps
  have seeds : session.seeds = ["B", "rt/B"] := by decide +kernel
  rw [← seeds] at chain
  obtain ⟨after, compiled, same⟩ : ∃ after, Session.compile.run.run session = (.ok (), after) ∧
      after.run.state.artifacts = state.artifacts :=
    Session.compile_of_steps (by decide +kernel) chain made (by decide +kernel)
  rw [made] at same
  obtain ⟨stored, _⟩ := Run.compile_eq_ok rfl (Session.compilation_of_compile compiled)
  rw [same] at stored
  refine ⟨after, compiled, same, rfl, ?_, ?_, ?_, by decide +kernel⟩
  · rw [BuildState.compiled, same]
    decide +kernel
  · rw [BuildState.references, same]
    decide +kernel
  · have path : Path.join "o" artifacts[1].path = "o/classpath0/B.js" := by decide +kernel
    rw [← path]
    exact read_last stored

end SharedOutput

end JvmUnits
