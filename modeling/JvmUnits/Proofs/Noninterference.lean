import JvmUnits.Proofs.AlikeDisks
import JvmUnits.Proofs.Failures

/-!
# Files that never matter

A compilation reads the class files of the classes that it can reach and that are not built in, copies the files with their
native methods, and looks at the bytes of no other file. So two sessions that differ in the bytes of other files go the same
way (`Session.compile_alike`): the record of class files that are read holds reachable classes only
(`Run.concerns_compileRecorded`), and storing an artifact goes the same way on disks that are alike (`Run.compile_simulates`).
-/

namespace JvmUnits

/-! ## What is read -/

namespace Environment

variable {env : Environment} {seeds : List String}

/-- The record is about classes that can be reached from the seeds and are not built in. -/
def Concerns (env : Environment) (seeds : List String) (log : List Handling) : Prop :=
  ∀ handling ∈ log, ∃ name stage, env.Reachable seeds name ∧ env.isBuiltin name = false ∧
    handling = Handling.ofClass (env.naming.physical name) stage

/-- A visit handles the class file of its name, and only if the class is not built in. -/
theorem concerns_visitRecorded {name : String} (state : BuildState) (reached : env.Reachable seeds name) :
    env.Concerns seeds (env.visitRecorded name state).2.log := by
  intro handling mem
  unfold visitRecorded visitIn at mem
  split at mem
  · cases mem
  · simp only at mem
    split at mem
    · cases mem
    · rename_i own
      split at mem
      · cases mem
      · rw [Recording.log_map] at mem
        obtain ⟨stage, _, rfl⟩ := List.mem_map.mp ((env.log_artifactRecorded _ _).subset mem)
        exact ⟨name, stage, reached, Bool.eq_false_iff.mpr own, rfl⟩

/-- A visit makes the artifact of its name. -/
theorem makes_of_visit {name : String} {state after : BuildState} {artifact : Artifact}
    (fresh : state.isClaimed name = false) (visited : env.visit name state = (after, .ok (some artifact)))
    (reached : env.Reachable seeds name) : env.Makes seeds artifact := by
  obtain ⟨own, _, made, _⟩ := visit_eq_some fresh visited
  exact ⟨name, reached, own, made⟩

/-- A step puts names on the list that can be reached from those that are on it. -/
theorem Step.reachable {before after : List String × BuildState} (taken : env.Step before after)
    (queued : ∀ name ∈ before.1, env.Reachable seeds name) : ∀ name ∈ after.1, env.Reachable seeds name := by
  intro name mem
  cases taken with
  | skip | builtin | shared => exact queued name (List.mem_cons_of_mem _ mem)
  | @compile first rest state artifact fresh own free made =>
    rcases List.mem_append.mp mem with mem | mem
    · exact queued name (List.mem_cons_of_mem _ mem)
    · exact .reference (queued first List.mem_cons_self) own (artifact_eq_ok made).1 (List.mem_filter.mp mem).1

/-- The class file of a built-in class is not part of such a record. -/
theorem Concerns.not_mem {log : List Handling} (concerns : env.Concerns seeds log) {name : String}
    (builtin : env.isBuiltin name = true) (stage : Stage) : Handling.ofClass name stage ∉ log := by
  intro mem
  obtain ⟨other, _, _, own, same⟩ := concerns _ mem
  have path : ClassIndex.classFilePath name = ClassIndex.classFilePath (env.naming.physical other) :=
    congrArg Handling.entry same
  have named := congrArg ClassIndex.className? path
  rw [ClassIndex.className?_classFilePath, ClassIndex.className?_classFilePath, Option.some.injEq] at named
  rw [named, isBuiltin_physical, own] at builtin
  cases builtin

end Environment

namespace Loop

variable {σ : Type} {env : Environment} {store : Store σ} {seeds : List String} {loop next : Loop σ} {log : List Handling}

/-- A turn handles at most the class file of the first name on the list. -/
theorem Turned.concerns {result : Turn σ} (turned : Turned (List Handling) env store loop log result)
    (queued : ∀ name ∈ loop.queue, env.Reachable seeds name) : env.Concerns seeds log := by
  cases turned with
  | finished | claimed =>
    intro handling mem
    cases mem
  | failed | passed | refused | stored => exact Environment.concerns_visitRecorded _ (queued _ List.mem_cons_self)

/-- A turn puts names on the list that can be reached from those that are on it. -/
theorem Turned.reachable (turned : Turned (List Handling) env store loop log (.goOn next))
    (queued : ∀ name ∈ loop.queue, env.Reachable seeds name) : ∀ name ∈ next.queue, env.Reachable seeds name := by
  cases turned with
  | claimed => exact fun other mem => queued other (List.mem_cons_of_mem _ mem)
  | passed => exact fun other mem => queued other (List.mem_cons_of_mem _ mem)
  | stored fresh visited => exact (Environment.Step.of_visit_some fresh visited).reachable queued

/-- A loop concerns only classes that can be reached, if its list has only names that can be. -/
theorem concerns_recorded (queued : ∀ name ∈ loop.queue, env.Reachable seeds name) :
    env.Concerns seeds (loop.recorded env store).2.log := by
  induction loop using induct (List Handling) env store with
  | ended turned =>
    rw [recorded_of_ended turned]
    exact turned.concerns queued
  | goOn turned ih =>
    rw [recorded_of_goOn turned]
    intro handling mem
    exact (List.mem_append.mp mem).elim (turned.concerns queued handling) (ih (turned.reachable queued) handling)

end Loop

namespace Run

variable {σ : Type} {env : Environment} {store : Store σ} {seeds : List String}

/-- A compilation reads no class files but those of reachable classes that are not built in. -/
theorem concerns_compileRecorded (run : Run σ) : env.Concerns seeds (run.compileRecorded env store seeds).2.log := by
  rw [log_compileRecorded]
  exact Loop.concerns_recorded fun _ mem => .seed mem

/-! ## What is stored -/

/-- Storing goes the same way in storages that belong together, for all artifacts that can be made from the seeds: it succeeds
in both or fails in both for the same reason, and leaves storages that belong together. What belongs together may depend on
what has been stored. -/
structure Simulates (env : Environment) (seeds : List String) (store : Store σ) (related : List Artifact → σ → σ → Prop) :
    Prop where
  result : ∀ stored artifact one other, env.Makes seeds artifact → related stored one other →
    (store artifact other).2 = (store artifact one).2
  kept : ∀ stored artifact one other, env.Makes seeds artifact → related stored one other →
    related stored (store artifact one).1 (store artifact other).1
  added : ∀ stored artifact one other, env.Makes seeds artifact → related stored one other →
    (store artifact one).2 = .ok () → related (stored ++ [artifact]) (store artifact one).1 (store artifact other).1

/-- Two runs that are equal but for their storages, which belong together. -/
structure Twins (related : List Artifact → σ → σ → Prop) (run twin : Run σ) : Prop where
  state : twin.state = run.state
  news : twin.news = run.news
  storage : related run.state.artifacts run.storage twin.storage

variable {related : List Artifact → σ → σ → Prop}

/-- Twin runs announce the same news. -/
theorem Twins.announce {run twin : Run σ} (twins : Twins related run twin) (done total : Nat) (name : String) :
    (twin.announce done total name).news = (run.announce done total name).news := by
  simp only [Run.announce, twins.news]

/-- Runs that are equal but for their storages go the same way. -/
theorem work_simulates (simulates : Simulates env seeds store related) {queue : List String} {done : Nat} {run : Run σ}
    (queued : ∀ name ∈ queue, env.Reachable seeds name) (twin : Run σ) (twins : Twins related run twin) :
    (work env store queue done twin).2 = (work env store queue done run).2 ∧
      Twins related (work env store queue done run).1 (work env store queue done twin).1 := by
  induction queue, done, run using work_induct env store generalizing twin with
  | finished =>
    rw [work_of_ended .finished, work_of_ended .finished]
    exact ⟨rfl, twins⟩
  | @claimed name rest done run already ih =>
    have twinAlready : twin.state.isClaimed name = true := by rw [twins.state]; exact already
    rw [work_of_goOn (.claimed already), work_of_goOn (.claimed twinAlready)]
    exact ih (fun other mem => queued other (List.mem_cons_of_mem _ mem)) twin twins
  | failed fresh visited =>
    have artifacts := Environment.artifacts_visit visited
    rw [work_of_ended (.failed fresh visited)]
    rw [← twins.state] at fresh visited
    rw [work_of_ended (.failed fresh visited)]
    refine ⟨rfl, rfl, twins.announce _ _ _, ?_⟩
    rw [artifacts]
    exact twins.storage
  | passed fresh visited ih =>
    have artifacts := Environment.artifacts_visit visited
    rw [work_of_goOn (.passed fresh visited)]
    rw [← twins.state] at fresh visited
    rw [work_of_goOn (.passed fresh visited)]
    refine ih (fun other mem => queued other (List.mem_cons_of_mem _ mem)) _ ⟨rfl, twins.announce _ _ _, ?_⟩
    rw [artifacts]
    exact twins.storage
  | refused fresh visited kept =>
    have artifacts := Environment.artifacts_visit visited
    have makes := Environment.makes_of_visit fresh visited (queued _ List.mem_cons_self)
    have result := simulates.result _ _ _ _ makes twins.storage
    have related := simulates.kept _ _ _ _ makes twins.storage
    rw [kept] at result related
    rw [work_of_ended (.refused fresh visited kept)]
    rw [← twins.state] at fresh visited
    rw [work_of_ended (.refused fresh visited (Prod.ext rfl result))]
    refine ⟨rfl, rfl, twins.announce _ _ _, ?_⟩
    rw [artifacts]
    exact related
  | stored fresh visited kept ih =>
    have artifacts := Environment.artifacts_visit visited
    have makes := Environment.makes_of_visit fresh visited (queued _ List.mem_cons_self)
    have result := simulates.result _ _ _ _ makes twins.storage
    have added := simulates.added _ _ _ _ makes twins.storage (by rw [kept])
    rw [kept] at result added
    have reachable := (Environment.Step.of_visit_some fresh visited).reachable queued
    rw [work_of_goOn (.stored fresh visited kept)]
    rw [← twins.state] at fresh visited
    rw [work_of_goOn (.stored fresh visited (Prod.ext rfl result))]
    refine ih reachable _ ⟨rfl, twins.announce _ _ _, ?_⟩
    rw [BuildState.artifacts_emit, artifacts]
    exact added

/-- Compilations that are equal but for their storages go the same way. -/
theorem compile_simulates (simulates : Simulates env seeds store related) {run twin : Run σ}
    (twins : Twins related run twin) :
    (twin.compile env store seeds).2 = (run.compile env store seeds).2 ∧
      Twins related (run.compile env store seeds).1 (twin.compile env store seeds).1 := by
  have started : Twins related (run.started env) (twin.started env) :=
    ⟨by simp only [Run.started, twins.state], twins.news, twins.storage⟩
  have both : (work env store seeds 0 (twin.started env)).2 = (work env store seeds 0 (run.started env)).2 ∧
      Twins related (work env store seeds 0 (run.started env)).1 (work env store seeds 0 (twin.started env)).1 :=
    work_simulates simulates (fun _ mem => .seed mem) _ started
  obtain ⟨result, ended⟩ := both
  rcases worked : work env store seeds 0 (run.started env) with ⟨after, failure | done⟩ <;>
    rcases twinWorked : work env store seeds 0 (twin.started env) with ⟨twinAfter, outcome⟩ <;>
    rw [worked, twinWorked] at result ended <;> obtain rfl := result
  · rw [compile_of_failed worked, compile_of_failed twinWorked]
    exact ⟨rfl, ended⟩
  · rw [compile_of_done worked, compile_of_done twinWorked]
    have state : twinAfter.state = after.state := ended.state
    have news : twinAfter.news = after.news := ended.news
    refine ⟨rfl, by simp only [concluded, state], by simp only [concluded, news], ?_⟩
    simp only [concluded, BuildState.artifacts_foldl_useBuiltin]
    exact ended.storage

end Run

/-! ## Sessions -/

/-- No file that may differ is the class file of a class that can be reached from the seeds and is not built in, or has its
native methods. -/
def Environment.Spares (env : Environment) (seeds home : List String) (differ : List String → Prop) : Prop :=
  ∀ name, env.Reachable seeds name → env.isBuiltin name = false →
    ∀ inner ∈ [ClassIndex.classFilePath (env.naming.physical name), env.naming.physical name ++ nativeEnding],
      ∀ entry, env.index.resolve inner = some entry → ¬ differ (Path.chain home entry.path)

/-- The file with the native methods of a class is looked up under its physical name. -/
theorem Environment.native_of_artifact {env : Environment} {physical runtimeName : String} {artifact : Artifact}
    (made : env.artifact physical runtimeName = .ok artifact) :
    artifact.native = (env.index.resolve (physical ++ nativeEnding)).map IndexEntry.path := by
  obtain ⟨_, _, _, _, _, _, _, _, rfl⟩ := artifact_cases made
  rfl

/-- A place where one of some artifacts is stored. -/
def Artifact.StoredAt (home : List String) (output : String) (artifacts : List Artifact) (names : List String) : Prop :=
  ∃ artifact ∈ artifacts, ∃ target ∈ artifact.targets output, names = Path.chain home target

/-- Two disks are alike up to files that may differ and are not where artifacts have been stored. -/
def Disk.AlikeAfter (home : List String) (output : String) (differ : List String → Prop) (stored : List Artifact)
    (one other : Disk) : Prop :=
  one.Alike home (fun names => differ names ∧ ¬ Artifact.StoredAt home output stored names) other

/-- Storing an artifact on a disk is saving it there. -/
theorem Store.onDisk_eq (naming : Naming) (output : String) (artifact : Artifact) (disk : Disk) :
    Store.onDisk naming output artifact disk =
      (((artifact.save naming output).run disk).2, ((artifact.save naming output).run disk).1) := by
  unfold Store.onDisk
  generalize (artifact.save naming output).run disk = saved
  rfl

/-- Storing artifacts in an output folder goes the same way on disks that are alike. -/
theorem Run.simulates_onDisk {env : Environment} {seeds home : List String} {differ : List String → Prop}
    (spared : env.Spares seeds home differ) (naming : Naming) (output : String) :
    Simulates env seeds (.onDisk naming output) (Disk.AlikeAfter home output differ) := by
  have saved : ∀ stored artifact one other, env.Makes seeds artifact → Disk.AlikeAfter home output differ stored one other →
      SameEnd home (fun names => differ names ∧ ¬ Artifact.StoredAt home output stored names)
        (fun names => ∃ target ∈ artifact.targets output, names = Path.chain home target)
        ((artifact.save naming output).run one) ((artifact.save naming output).run other) := by
    rintro stored artifact one other ⟨name, reached, own, made⟩ alike
    refine Artifact.lockstep_save naming output ?_ _ one other (fun names may => may.1) alike
    intro source native
    rw [Environment.native_of_artifact made, Option.mem_def, Option.map_eq_some_iff] at native
    obtain ⟨entry, found, rfl⟩ := native
    exact spared name reached own _ (by simp) entry found
  refine ⟨?_, ?_, ?_⟩
  · intro stored artifact one other makes alike
    simp only [Store.onDisk_eq]
    exact (saved stored artifact one other makes alike).result
  · intro stored artifact one other makes alike
    simp only [Store.onDisk_eq]
    exact (saved stored artifact one other makes alike).alike
  · intro stored artifact one other makes alike ok
    simp only [Store.onDisk_eq] at ok
    simp only [Store.onDisk_eq]
    refine ((saved stored artifact one other makes alike).settles () ok).mono ?_
    rintro names ⟨⟨may, early⟩, late⟩
    refine ⟨may, ?_⟩
    rintro ⟨which, mem, target, among, eq⟩
    rcases List.mem_append.mp mem with mem | mem
    · exact early ⟨which, mem, target, among, eq⟩
    · rw [List.mem_singleton] at mem
      subst mem
      exact late ⟨target, among, eq⟩

/-! ## Class paths that an index does not tell apart -/

/-- Files of two roots that have the same path, and the same bytes if they describe a service. -/
def SameEntry (one other : List String × Bytes) : Prop := other.1 = one.1 ∧ ((describedService? one.1).isSome → other.2 = one.2)

/-- Roots with the same path whose files have the same paths, and the same bytes if they describe services. -/
structure ClassRoot.SameFiles (one other : ClassRoot) : Prop where
  path : other.path = one.path
  listing : Matching (fun found twin => List.Forall₂ SameEntry (indexedFiles found) (indexedFiles twin)) one.listing
    other.listing

namespace ClassIndex

/-- Files that have the same bytes, or whose bytes do not matter, are indexed alike. -/
theorem addFile_same {root : Nat} {rootPath : String} {index : ClassIndex} {one other : List String × Bytes}
    (same : SameEntry one other) : addFile root rootPath index other = addFile root rootPath index one := by
  obtain ⟨names, bytes⟩ := same
  unfold addFile
  rw [names]
  cases service : describedService? one.1 with
  | none => rfl
  | some name => rw [bytes (by rw [service]; rfl)]

/-- Lists of such files are indexed alike. -/
theorem foldlM_addFile_same {root : Nat} {rootPath : String} {files others : List (List String × Bytes)}
    (same : List.Forall₂ SameEntry files others) (index : ClassIndex) :
    others.foldlM (addFile root rootPath) index = files.foldlM (addFile root rootPath) index := by
  induction same generalizing index with
  | nil => rfl
  | cons first rest ih =>
    rw [List.foldlM_cons, List.foldlM_cons, addFile_same first]
    exact congrArg _ (funext ih)

/-- Class paths with the same files in the same roots have the same index. -/
theorem scan_same {roots others : List ClassRoot} (same : List.Forall₂ ClassRoot.SameFiles roots others) :
    scan others = scan roots := by
  have each : ∀ (number : Nat) (index : ClassIndex),
      (others.zipIdx number).foldlM addRoot index = (roots.zipIdx number).foldlM addRoot index := by
    induction same with
    | nil => exact fun _ _ => rfl
    | @cons root other roots others first rest ih =>
      intro number index
      have added : addRoot index (other, number) = addRoot index (root, number) := by
        unfold addRoot
        have listing := first.listing
        generalize root.listing = found at listing
        generalize other.listing = twin at listing
        simp only [first.path]
        cases listing with
        | error => rfl
        | ok files => exact foldlM_addFile_same files index
      rw [List.zipIdx_cons, List.zipIdx_cons, List.foldlM_cons, List.foldlM_cons, added]
      exact congrArg _ (funext fun next => ih (number + 1) next)
  exact each 0 {}

end ClassIndex

namespace Session

/-- Two sessions are equal but for the bytes of files that may differ: they have the same configuration, naming, built-in
classes and index of the class path, they have done the same so far, their disks are alike, and they see the same contents of
the other files. -/
structure Alike (differ : List String → Prop) (one other : Session) : Prop where
  config : other.config = one.config
  environment : other.environment = { one.environment with contents := other.environment.contents }
  contents : ∀ path, ¬ differ (Path.chain one.run.storage.workingFolder path) →
    other.environment.contents path = one.environment.contents path
  state : other.run.state = one.run.state
  news : other.run.news = one.run.news
  storage : one.run.storage.Alike one.run.storage.workingFolder differ other.run.storage

variable {differ : List String → Prop} {one other : Session}

/-- Sessions that start with the same configuration and built-in classes on disks that are alike are alike, if the roots of the
class path have the same files on both disks, and services are described by the same bytes. -/
theorem alike_of_start {config : CompilerConfig} {builtins : Builtins} {disk otherDisk : Disk}
    (alike : disk.Alike disk.workingFolder differ otherDisk)
    (same : ∀ path ∈ config.classPath, (disk.classRoot path).SameFiles (otherDisk.classRoot path))
    (started : start config builtins disk = .ok one) :
    ∃ other, start config builtins otherDisk = .ok other ∧ one.Alike differ other := by
  have roots : List.Forall₂ ClassRoot.SameFiles (config.classPath.map disk.classRoot)
      (config.classPath.map otherDisk.classRoot) := by
    rw [List.forall₂_map_left_iff, List.forall₂_map_right_iff, List.forall₂_same]
    exact same
  unfold start at started ⊢
  rw [ClassIndex.scan_same roots]
  cases scanned : ClassIndex.scan (config.classPath.map disk.classRoot) with
  | error cause =>
    rw [scanned] at started
    cases started
  | ok index =>
    rw [scanned] at started
    cases started
    exact ⟨_, rfl, rfl, rfl, fun path spared => alike.read spared, rfl, rfl, alike⟩

/-- Sessions that are alike compile alike, if no file that may differ belongs to a class that is reached and not built in. -/
theorem compilation_alike (alike : one.Alike differ other) (untouched : one.run.state = {})
    (spared : one.environment.Spares one.seeds one.run.storage.workingFolder differ) :
    other.compilation.2 = one.compilation.2 ∧
      Run.Twins (Disk.AlikeAfter one.run.storage.workingFolder one.config.output differ) one.compilation.1
        other.compilation.1 := by
  have seeds : other.seeds = one.seeds := by
    unfold Session.seeds
    rw [alike.environment, alike.config]
  have agrees : one.environment.Agrees other.environment.contents
      (other.run.compileRecorded one.environment (.onDisk one.config.naming one.config.output) one.seeds).2.log := by
    intro handling mem _ entry found
    obtain ⟨name, stage, reached, own, rfl⟩ := Run.concerns_compileRecorded other.run handling mem
    exact alike.contents entry.path (spared name reached own _ List.mem_cons_self entry found)
  have twins : Run.Twins (Disk.AlikeAfter one.run.storage.workingFolder one.config.output differ) one.run other.run := by
    refine ⟨alike.state, alike.news, alike.storage.mono fun names may => ⟨may, ?_⟩⟩
    rw [untouched]
    rintro ⟨artifact, mem, _⟩
    cases mem
  unfold compilation
  rw [seeds, alike.config, alike.environment, Run.compile_of_agrees agrees]
  exact Run.compile_simulates (Run.simulates_onDisk spared _ _) twins

/-- Sessions that are alike have the same engine for patterns. -/
theorem Alike.engine (alike : one.Alike differ other) : other.environment.engine = one.environment.engine := by
  rw [alike.environment]

/-- Sessions that are alike find the same patterns too large. -/
theorem Alike.oversized (alike : one.Alike differ other) : other.oversized? = one.oversized? := by
  unfold oversized?
  rw [alike.config, alike.engine]

/-- A pattern that is too large ends a compilation before it begins. -/
theorem compile_of_oversized {session : Session} {pattern : String} (oversized : session.oversized? = some pattern) :
    compile.run.run session = (.error (.patternTooLarge pattern session.environment.engine.sizeLimit), session) := by
  rw [compile, run_get_bind]
  simp only [oversized]
  rfl

/-- Files outside the closure never matter. Let two sessions that have not compiled anything be equal but for the bytes of some
files, none of which is the class file of a class that the first one reaches and that is not built in, or has the native methods
of such a class. Then both compile with the same result, and are equal afterwards but for the bytes of those files: they have
the same artifacts, hence the same lists of units, native files and references, and the same built-in classes in use. Every file
that an artifact is stored at reads the same on both disks. And no class file of a built-in class is read. -/
theorem compile_alike (alike : one.Alike differ other) (untouched : one.run.state = {})
    (spared : one.environment.Spares one.seeds one.run.storage.workingFolder differ) :
    ∃ result after twin, compile.run.run one = (result, after) ∧ compile.run.run other = (result, twin) ∧
      twin.run.state = after.run.state ∧ after.Alike differ twin ∧
      (∀ artifact ∈ after.run.state.artifacts, ∀ target ∈ artifact.targets one.config.output,
        twin.run.storage.read target = after.run.storage.read target) ∧
      ∀ name, one.environment.isBuiltin name = true → Handling.ofClass name .read ∉
        (one.run.compileRecorded one.environment (.onDisk one.config.naming one.config.output) one.seeds).2.log := by
  have unread : ∀ name, one.environment.isBuiltin name = true → Handling.ofClass name .read ∉
      (one.run.compileRecorded one.environment (.onDisk one.config.naming one.config.output) one.seeds).2.log :=
    fun name builtin => (Run.concerns_compileRecorded one.run).not_mem builtin .read
  cases oversized : one.oversized? with
  | some pattern =>
    have refused := compile_of_oversized (alike.oversized.trans oversized)
    rw [alike.engine] at refused
    refine ⟨_, one, other, compile_of_oversized oversized, refused, alike.state, alike, ?_, unread⟩
    rw [untouched]
    intro artifact mem
    cases mem
  | none =>
    obtain ⟨result, twins⟩ := compilation_alike alike untouched spared
    have here : one.compilation.1.storage.workingFolder = one.run.storage.workingFolder := twins.storage.here
    refine ⟨_, _, { other with run := other.compilation.1 }, compile_of_fits oversized, ?_, twins.state, ?_, ?_, unread⟩
    · rw [compile_of_fits (alike.oversized.trans oversized), result]
    · refine ⟨alike.config, alike.environment, ?_, twins.state, twins.news, ?_⟩ <;> simp only [here]
      · exact alike.contents
      · exact twins.storage.mono fun names may => may.1
    · intro artifact mem target among
      exact twins.storage.read fun may => may.2 ⟨artifact, mem, target, among, rfl⟩

end Session

/-! ## Two class paths with other bytes in the files that do not matter -/

namespace FileTree.Alike

variable {differ : List String → Prop}

/-- Files are alike if they have the same bytes or may differ. -/
theorem file {data other : Bytes} (same : ¬ differ [] → data = other) : Alike differ (.file data) (.file other) := by
  rintro (_ | ⟨name, names⟩)
  · exact .file same
  · exact .missing

/-- Folders with the same names whose entries are alike are alike. -/
theorem folder {entries others : List (String × FileTree)}
    (each : List.Forall₂ (fun entry other => other.1 = entry.1 ∧ entry.2.Alike (fun names => differ (entry.1 :: names)) other.2)
      entries others) : Alike differ (.folder entries) (.folder others) := by
  rintro (_ | ⟨name, names⟩)
  · exact .folder entries others
  · simp only [get?]
    induction each with
    | nil => exact .missing
    | @cons entry other entries others first rest ih =>
      obtain ⟨_, tree⟩ := entry
      obtain ⟨key, otherTree⟩ := other
      obtain ⟨rfl, alike⟩ := first
      by_cases same : name = key
      · subst same
        simp only [List.lookup_cons, beq_self_eq_true]
        exact alike names
      · have differs : (name == key) = false := by simpa using same
        simp only [List.lookup_cons, differs]
        exact ih

end FileTree.Alike

namespace OtherBytes

/-- A class path with the classes `A`, which has native methods, and `rt/java/B`, and two more class files with given bytes:
that of `C`, and that of the built-in class `java/O`. -/
def disk (junk : Bytes) : Disk :=
  ⟨.folder [("r", .folder [("A.class", .file CyclicPair.plain), ("A.native.js", .file [47, 47]), ("C.class", .file junk),
    ("rt", .folder [("java", .folder [("B.class", .file CyclicPair.platform), ("O.class", .file junk)])])])], []⟩

def config : CompilerConfig := ⟨["r"], "o", some "A", [], ⟨"rt/"⟩⟩

/-- The two class files whose bytes differ. -/
def differ (names : List String) : Prop := names ∈ [["r", "C.class"], ["r", "rt", "java", "O.class"]]

/-- The files of the class path. -/
def files (junk : Bytes) : List (List String × Bytes) :=
  [(["A.class"], CyclicPair.plain), (["A.native.js"], [47, 47]), (["C.class"], junk),
    (["rt", "java", "B.class"], CyclicPair.platform), (["rt", "java", "O.class"], junk)]

def session (junk : Bytes) : Session :=
  ⟨config, ⟨⟨"rt/"⟩, (∅ : Builtins).insert "java/O", ((files junk).foldlM (ClassIndex.addFile 0 "r") {}).toOption.getD {},
    (disk junk).read, .standard⟩, ⟨{}, disk junk, Session.openingNews⟩⟩

/-- The two disks differ in two class files only. -/
theorem alike_disk (one other : Bytes) : (disk one).Alike [] differ (disk other) := by
  have unused : differ ["r", "C.class"] := List.mem_cons_self
  have builtin : differ ["r", "rt", "java", "O.class"] := List.mem_cons_of_mem _ List.mem_cons_self
  refine ⟨rfl, rfl, .folder (.cons ⟨rfl, .folder ?_⟩ .nil)⟩
  refine .cons ⟨rfl, .file fun _ => rfl⟩ (.cons ⟨rfl, .file fun _ => rfl⟩
    (.cons ⟨rfl, .file ?_⟩ (.cons ⟨rfl, .folder ?_⟩ .nil)))
  · exact absurd unused
  · refine .cons ⟨rfl, .folder (.cons ⟨rfl, .file fun _ => rfl⟩ (.cons ⟨rfl, .file ?_⟩ .nil))⟩ .nil
    exact absurd builtin

/-- The files of the class path, in order. -/
theorem indexedFiles_disk (junk : Bytes) :
    ∃ listing, (disk junk).entries "r" = .ok listing ∧ indexedFiles listing = files junk := by
  refine ⟨_, rfl, ?_⟩
  have ordered : ((files junk).map Prod.fst).Pairwise fun one other => (!decide (other < one)) = true := by
    change ([["A.class"], ["A.native.js"], ["C.class"], ["rt", "java", "B.class"], ["rt", "java", "O.class"]] :
      List (List String)).Pairwise _
    decide +kernel
  exact List.mergeSort_of_pairwise (List.pairwise_map.mp ordered)

theorem sameFiles_disk (one other : Bytes) : ((disk one).classRoot "r").SameFiles ((disk other).classRoot "r") := by
  obtain ⟨listing, opened, found⟩ := indexedFiles_disk one
  obtain ⟨otherListing, otherOpened, otherFound⟩ := indexedFiles_disk other
  refine ⟨rfl, ?_⟩
  unfold Disk.classRoot
  rw [opened, otherOpened]
  refine .ok ?_
  rw [found, otherFound]
  have plain : ∀ names : List String, describedService? names = none →
      ∀ one other : Bytes, SameEntry (names, one) (names, other) :=
    fun names none one other => ⟨rfl, fun some => by simp [none] at some⟩
  exact .cons (plain _ rfl _ _) (.cons (plain _ rfl _ _) (.cons (plain _ rfl _ _) (.cons (plain _ rfl _ _)
    (.cons (plain _ rfl _ _) .nil))))

/-- The session starts on the first disk. -/
theorem start_disk : Session.start config ((∅ : Builtins).insert "java/O") (disk [1]) = .ok (session [1]) := by
  obtain ⟨listing, opened, found⟩ := indexedFiles_disk [1]
  have indexed : ((files [1]).foldlM (ClassIndex.addFile 0 "r") {}).isOk = true := by decide +kernel
  rw [← found] at indexed
  have started := @Session.start_of_files config ((∅ : Builtins).insert "java/O") (disk [1]) "r" listing rfl opened indexed
  rwa [found] at started

/-- Three names can be reached from `A`, one of them that of the built-in class. -/
theorem mem_of_reachable {name : String} (reached : (session [1]).environment.Reachable ["A"] name) :
    name ∈ ["A", "java/B", "java/O"] :=
  reached.mem_of_closed (by decide) (by decide +kernel)

/-- The files that differ are not those of a class that is reached and not built in. -/
theorem spares : (session [1]).environment.Spares ["A"] [] differ := by
  have apart : ∀ name ∈ ["A", "java/B", "java/O"], (session [1]).environment.isBuiltin name = true ∨
      ∀ inner ∈ [ClassIndex.classFilePath ((session [1]).environment.naming.physical name),
          (session [1]).environment.naming.physical name ++ nativeEnding],
        ∀ entry ∈ (session [1]).environment.index.resolve inner,
          Path.chain [] entry.path ∉ [["r", "C.class"], ["r", "rt", "java", "O.class"]] := by
    decide +kernel
  intro name reached own inner mem entry found
  rcases apart name (mem_of_reachable reached) with builtin | spared
  · rw [own] at builtin
    cases builtin
  · exact spared inner mem entry found

/-- What a compilation from `A` makes. -/
def artifacts : List Artifact :=
  [⟨"A", 0, "A", ⟨"A", some "java/B", [], [], [], ["java/B"]⟩, some "r/A.native.js"⟩,
    ⟨"rt/java/B", 0, "java/B", ⟨"rt/java/B", some "java/O", ["A"], [], [], ["A", "java/O"]⟩, none⟩]

/-- A chain of steps compiles the two classes. -/
theorem steps : ∃ state, Relation.ReflTransGen (session [1]).environment.Step
    (["A"], ((session [1]).run.started (session [1]).environment).state) ([], state) ∧ state.artifacts = artifacts := by
  refine Exists.imp (fun state => And.imp_left (.head (@Environment.Step.compile (session [1]).environment "A" []
    ((session [1]).run.started (session [1]).environment).state artifacts[0]
    (by decide +kernel) (by decide +kernel) (by decide +kernel) (by decide +kernel)))) ?_
  rw [show ([] : List String) ++ _ = ["java/B"] by decide +kernel]
  refine Exists.imp (fun state => And.imp_left (.head (@Environment.Step.compile (session [1]).environment "java/B" [] _
    artifacts[1] (by decide +kernel) (by decide +kernel) (by decide +kernel) (by decide +kernel)))) ?_
  rw [show ([] : List String) ++ _ = ["java/O"] by decide +kernel]
  exact ⟨_, .single (.builtin (by decide +kernel) (by decide +kernel)), rfl⟩

/-- Sessions on the two disks compile alike: both read `A` and `rt/java/B` and succeed, whatever the other class files hold. -/
theorem compile_disks : ∃ other after twin,
    Session.start config ((∅ : Builtins).insert "java/O") (disk []) = .ok other ∧
    Session.compile.run.run (session [1]) = (.ok (), after) ∧ Session.compile.run.run other = (.ok (), twin) ∧
    after.run.state.artifacts = artifacts ∧ twin.run.state = after.run.state ∧
    (∀ artifact ∈ artifacts, ∀ target ∈ artifact.targets "o",
      twin.run.storage.read target = after.run.storage.read target) ∧
    Handling.ofClass "rt/java/O" .read ∉
      ((session [1]).run.compileRecorded (session [1]).environment (.onDisk ⟨"rt/"⟩ "o") ["A"]).2.log := by
  have seeds : (session [1]).seeds = ["A"] := by decide +kernel
  obtain ⟨state, chain, made⟩ := steps
  rw [← seeds] at chain
  obtain ⟨after, compiled, artifacts⟩ := Session.compile_of_steps (by decide +kernel) chain made (by decide +kernel)
  have roots : ∀ path ∈ config.classPath, ((disk [1]).classRoot path).SameFiles ((disk []).classRoot path) := by
    intro path mem
    rw [List.mem_singleton.mp mem]
    exact sameFiles_disk [1] []
  obtain ⟨other, started, alike⟩ := Session.alike_of_start (alike_disk [1] []) roots start_disk
  have spared : (session [1]).environment.Spares (session [1]).seeds (session [1]).run.storage.workingFolder differ := by
    rw [seeds]
    exact spares
  obtain ⟨result, ended, twin, first, second, same, _, reads, unread⟩ := Session.compile_alike alike rfl spared
  rw [compiled] at first
  cases first
  rw [artifacts, made] at reads
  rw [seeds] at unread
  exact ⟨other, after, twin, started, compiled, second, artifacts.trans made, same, reads,
    unread "rt/java/O" (by decide +kernel)⟩

end OtherBytes

end JvmUnits
