import JvmUnits.Compiler.Session
import JvmUnits.Proofs.Reachability
import JvmUnits.Proofs.References

/-!
# The world of a compilation is closed

A compilation that succeeds has compiled exactly the classes that can be reached from its seeds, and notes exactly the built-in
classes among them, besides those that are always needed (`Session.compile_exact`). So no unit that it writes names a class
that is neither defined by a unit of the same compilation nor built in (`Session.compile_closed`).
-/

namespace JvmUnits

/-! ## What a state tells about its artifacts and built-in classes -/

namespace BuildState

/-- The use of several built-in classes is noted besides what was noted before. -/
theorem mem_builtinsUsed_foldl (names : List String) (state : BuildState) (name : String) :
    name ∈ (names.foldl useBuiltin state).builtinsUsed ↔ name ∈ names ∨ name ∈ state.builtinsUsed := by
  induction names generalizing state with
  | nil => simp
  | cons first rest ih =>
    rw [List.foldl_cons, ih, mem_builtinsUsed_useBuiltin, List.mem_cons]
    tauto

/-- Noting classes that are in use adds no artifacts. -/
theorem artifacts_foldl_useBuiltin (names : List String) (state : BuildState) :
    (names.foldl useBuiltin state).artifacts = state.artifacts := by
  induction names generalizing state with
  | nil => rfl
  | cons first rest ih =>
    rw [List.foldl_cons, ih]
    rfl

/-- The classes whose references are recorded are those that have an artifact. -/
theorem mem_references (naming : Naming) (state : BuildState) (name : String) :
    name ∈ state.references naming ↔ ∃ artifact ∈ state.artifacts, artifact.runtimeName = name := by
  have key : ∀ (artifacts : List Artifact) (found : Std.TreeMap String (List String)),
      name ∈ artifacts.foldl (fun found artifact =>
          found.insert artifact.runtimeName (artifact.unit.runtimeReferences naming)) found ↔
        name ∈ found ∨ ∃ artifact ∈ artifacts, artifact.runtimeName = name := by
    intro artifacts
    induction artifacts with
    | nil => simp
    | cons artifact rest ih =>
      intro found
      rw [List.foldl_cons, ih, Std.TreeMap.mem_insert, Std.LawfulEqCmp.compare_eq_iff_eq]
      simp only [List.exists_mem_cons_iff]
      tauto
  rw [references, key]
  simp

end BuildState

/-! ## Whole compilations -/

namespace Run

variable {σ : Type} {env : Environment} {store : Store σ}

/-- A compilation that succeeds from scratch: its artifacts have been stored, and the built-in classes that are always needed
are noted besides those of a state that satisfies the invariant with nothing left to do. -/
theorem compile_eq_ok {seeds : List String} {run after : Run σ} (untouched : run.state = {})
    (h : run.compile env store seeds = (after, .ok ())) :
    store.all after.state.artifacts run.storage = (after.storage, .ok ()) ∧
      ∃ state, env.Invariant seeds [] state ∧ after.state.artifacts = state.artifacts ∧
        ∀ name, name ∈ after.state.builtinsUsed ↔ name ∈ Builtins.required ∨ name ∈ state.builtinsUsed := by
  rcases ended : work env store seeds 0 (run.started env) with ⟨worked, failure | _⟩
  · rw [compile_of_failed ended] at h
    cases h
  · rw [compile_of_done ended] at h
    cases h
    have start : env.Invariant seeds seeds (run.started env).state := by
      rw [started, untouched]
      exact .init (fun _ => rfl) rfl (fun _ => Std.TreeSet.not_mem_emptyc)
    obtain ⟨added, artifacts, stored⟩ := stored_of_work ended
    rw [started, untouched] at artifacts
    refine ⟨?_, worked.state, invariant_of_work start ended, BuildState.artifacts_foldl_useBuiltin _ _,
      BuildState.mem_builtinsUsed_foldl _ _⟩
    simp only [concluded, BuildState.artifacts_foldl_useBuiltin, artifacts]
    exact stored

/-- A chain of steps from the seeds to the empty list is what a compilation does, if its artifacts can be stored. -/
theorem compile_of_steps {seeds : List String} {run : Run σ} {state : BuildState} {added : List Artifact} {storage : σ}
    (steps : Relation.ReflTransGen env.Step
      (seeds, { run.state with services := env.index.services, fragments := env.index.fragments }) ([], state))
    (artifacts : state.artifacts = run.state.artifacts ++ added)
    (stored : store.all added run.storage = (storage, .ok ())) :
    ∃ after, run.compile env store seeds = (after, .ok ()) ∧ after.state.artifacts = state.artifacts := by
  obtain ⟨worked, ended, rfl, _⟩ : ∃ worked, work env store seeds 0 (run.started env) = (worked, .ok ()) ∧
      worked.state = state ∧ worked.storage = storage :=
    work_of_steps steps rfl artifacts stored
  exact ⟨worked.concluded, compile_of_done ended, BuildState.artifacts_foldl_useBuiltin _ _⟩

end Run

/-! ## Compilations of a session -/

/-- The classes that a unit names, its own class first. -/
def ClassUnit.classNames (naming : Naming) (unit : ClassUnit) : List String :=
  naming.strip unit.name :: unit.mentionedNames naming

/-- The class file behind a unit has the name of the unit. -/
theorem Environment.classFile_of_classUnit {env : Environment} {physical : String} {unit : ClassUnit}
    (h : env.classUnit physical = .ok unit) :
    ∃ file, env.classFile physical = .ok file ∧ file.translate env.naming = .ok unit ∧ file.name = unit.name := by
  obtain ⟨file, parsed, translated⟩ := bind_eq_ok.mp h
  obtain ⟨_, _, _, _, rfl⟩ := ClassFile.translate_eq_ok translated
  exact ⟨file, parsed, translated, rfl⟩

namespace Session

variable {session after : Session}

/-- The classes that a session starts from. -/
def seeds (session : Session) : List String := session.environment.index.seeds session.config.patterns

/-- The compilation that a session runs. -/
def compilation (session : Session) : Run Disk × Except Failure Unit :=
  session.run.compile session.environment (.onDisk session.config.naming session.config.output) session.seeds

/-- A session that starts has the index of its class path, and nothing has been compiled yet. -/
theorem start_eq_ok {config : CompilerConfig} {builtins : Builtins} {disk : Disk}
    (started : start config builtins disk = .ok session) :
    ∃ index, ClassIndex.scan (config.classPath.map disk.classRoot) = .ok index ∧
      session = ⟨config, ⟨config.naming, builtins, index, disk.read, .standard⟩, ⟨{}, disk, openingNews⟩⟩ := by
  unfold start at started
  split at started
  · cases started
  · rename_i index scanned
    cases started
    exact ⟨index, scanned, rfl⟩

/-- A session with one folder for a class path starts with the index of the files in this folder. -/
theorem start_of_files {config : CompilerConfig} {builtins : Builtins} {disk : Disk} {root : String}
    {listing : List (String × FileTree)} (classPath : config.classPath = [root]) (opened : disk.entries root = .ok listing)
    (indexed : ((indexedFiles listing).foldlM (ClassIndex.addFile 0 root) {}).isOk = true) :
    start config builtins disk = .ok ⟨config,
      ⟨config.naming, builtins, ((indexedFiles listing).foldlM (ClassIndex.addFile 0 root) {}).toOption.getD {}, disk.read,
        .standard⟩,
      ⟨{}, disk, openingNews⟩⟩ := by
  have scanned : ClassIndex.scan (config.classPath.map disk.classRoot) =
      (indexedFiles listing).foldlM (ClassIndex.addFile 0 root) {} := by
    have added : ClassIndex.addRoot {} (disk.classRoot root, 0) =
        (indexedFiles listing).foldlM (ClassIndex.addFile 0 root) {} := by
      simp only [ClassIndex.addRoot, Disk.classRoot, opened]
    rw [classPath, ClassIndex.scan, ← added]
    exact bind_pure _
  unfold start
  rw [scanned]
  cases ended : (indexedFiles listing).foldlM (ClassIndex.addFile 0 root) {} with
  | error cause =>
    rw [ended] at indexed
    cases indexed
  | ok index => rfl

/-- A step that looks at the session goes on with it. -/
theorem run_get_bind {α : Type} (next : Session → SessionStep α) (session : Session) :
    (get >>= next : SessionStep α).run.run session = (next session).run.run session := rfl

/-- A step that changes the session goes on with the changed one. -/
theorem run_set_bind {α : Type} (given : Session) (next : PUnit → SessionStep α) (session : Session) :
    (set given >>= next : SessionStep α).run.run session = (next ⟨⟩).run.run given := rfl

/-- Unless a pattern is too large, a session runs its compilation and keeps what it did, whether it fails or not. -/
theorem compile_of_fits (fits : session.oversized? = none) :
    compile.run.run session = (session.compilation.2, { session with run := session.compilation.1 }) := by
  rw [compile, run_get_bind]
  simp only [fits]
  change (set _ >>= _ : SessionStep Unit).run.run session = _
  rw [run_set_bind]
  unfold compilation seeds
  cases (session.run.compile session.environment (.onDisk session.config.naming session.config.output)
    (session.environment.index.seeds session.config.patterns)).2 <;> rfl

/-- A session compiles with success if there is a chain of steps from its seeds to the empty list and the artifacts of the chain
can be stored. -/
theorem compile_of_steps {state : BuildState} {added : List Artifact} (fits : session.oversized? = none)
    (steps : Relation.ReflTransGen session.environment.Step
      (session.seeds, { session.run.state with
        services := session.environment.index.services, fragments := session.environment.index.fragments }) ([], state))
    (artifacts : state.artifacts = session.run.state.artifacts ++ added)
    (stored : ((Store.onDisk session.config.naming session.config.output).all added session.run.storage).2 = .ok ()) :
    ∃ after, compile.run.run session = (.ok (), after) ∧ after.run.state.artifacts = state.artifacts := by
  obtain ⟨run, ended, same⟩ := Run.compile_of_steps steps artifacts (Prod.ext rfl stored)
  have compiled := compile_of_fits fits
  rw [show session.compilation = _ from ended] at compiled
  exact ⟨_, compiled, same⟩

/-- A session that compiles with success has run its compilation with success. -/
theorem compilation_of_compile (h : compile.run.run session = (.ok (), after)) :
    session.compilation = (after.run, .ok ()) := by
  cases oversized : session.oversized? with
  | some pattern =>
    rw [compile, run_get_bind] at h
    simp only [oversized] at h
    cases h
  | none =>
    rw [compile_of_fits oversized] at h
    obtain ⟨ended, same⟩ := Prod.mk.inj h
    rw [← same, ← ended]

/-- In a session that compiles with success, every class name that occurs in a unit it has written (the unit's own name, its
interfaces and superclass, the types of its fields and methods, declared exceptions, and all that its nodes name) is defined by
a unit that it has written, or is that of a built-in class that it notes; provided that every class file that it has read
declares the name under which it was looked up. -/
theorem compile_closed (untouched : session.run.state = {}) (compiled : compile.run.run session = (.ok (), after))
    (faithful : ∀ artifact ∈ after.run.state.artifacts, ∀ file,
      session.environment.classFile artifact.physical = .ok file → file.name = artifact.physical) :
    (Store.onDisk session.config.naming session.config.output).all after.run.state.artifacts session.run.storage =
        (after.run.storage, .ok ()) ∧
      ∀ artifact ∈ after.run.state.artifacts, ∀ name ∈ artifact.unit.classNames session.environment.naming,
        (∃ other ∈ after.run.state.artifacts, session.environment.naming.strip other.unit.name = name) ∨
          name ∈ after.run.state.builtinsUsed := by
  obtain ⟨stored, state, inv, artifacts, builtins⟩ := Run.compile_eq_ok untouched (compilation_of_compile compiled)
  refine ⟨stored, ?_⟩
  rw [artifacts] at faithful ⊢
  -- An artifact defines the runtime name under which it was asked for.
  have defined : ∀ artifact ∈ state.artifacts,
      session.environment.naming.strip artifact.unit.name = artifact.runtimeName := by
    intro artifact mem
    obtain ⟨name, _, _, made⟩ := inv.compiled artifact mem
    obtain ⟨unit, physical, runtimeName⟩ := Environment.artifact_eq_ok made
    obtain ⟨file, parsed, _, named⟩ := Environment.classFile_of_classUnit unit
    rw [← named, faithful artifact mem file (by rw [physical]; exact parsed), physical, runtimeName,
      Naming.strip_physical]
  intro artifact mem name occurs
  by_cases own : name = session.environment.naming.strip artifact.unit.name
  · exact Or.inl ⟨artifact, mem, own.symm⟩
  · have mentioned := (List.mem_cons.mp occurs).resolve_left own
    obtain ⟨_, _, _, made⟩ := inv.compiled artifact mem
    obtain ⟨file, _, translated, _⟩ := Environment.classFile_of_classUnit (Environment.artifact_eq_ok made).1
    obtain ⟨reference, refers, rfl⟩ := ClassFile.covered_of_translate translated mentioned own
    have claimed := inv.claimed_of_reference mem refers
    cases builtin : session.environment.isBuiltin reference with
    | true => exact Or.inr ((builtins _).mpr (Or.inr (inv.noted reference claimed builtin)))
    | false =>
      obtain ⟨other, stored, runtimeName, _⟩ := inv.present reference claimed builtin
      exact Or.inl ⟨other, stored, by rw [defined other stored, runtimeName]⟩

/-- A session that compiles with success has compiled exactly the reachable classes that are not built in, and notes exactly
the reachable built-in classes and those that are always needed; provided that the home package is no platform package. -/
theorem compile_exact (untouched : session.run.state = {})
    (foreign : Naming.isPlatform session.environment.naming.home = false)
    (compiled : compile.run.run session = (.ok (), after)) :
    (∀ name, name ∈ after.run.state.references session.config.naming ↔
        ∃ reached, session.environment.Reachable session.seeds reached ∧ session.environment.isBuiltin reached = false ∧
          session.environment.naming.strip reached = name) ∧
      ∀ name, name ∈ after.run.state.builtinsUsed ↔
        (∃ reached, session.environment.Reachable session.seeds reached ∧ session.environment.isBuiltin reached = true ∧
          session.environment.naming.strip reached = name) ∨ name ∈ Builtins.required := by
  obtain ⟨_, state, inv, artifacts, builtins⟩ := Run.compile_eq_ok untouched (compilation_of_compile compiled)
  refine ⟨fun name => ?_, fun name => ?_⟩
  · rw [BuildState.mem_references, artifacts]
    constructor
    · rintro ⟨artifact, mem, rfl⟩
      obtain ⟨reached, reachable, own, made⟩ := inv.compiled artifact mem
      exact ⟨reached, reachable, own, (Environment.artifact_eq_ok made).2.2.symm⟩
    · rintro ⟨reached, reachable, own, rfl⟩
      obtain ⟨artifact, mem, runtimeName, _⟩ := inv.present reached (inv.claimed_of_reachable foreign reachable) own
      exact ⟨artifact, mem, runtimeName⟩
  · rw [builtins, or_comm]
    refine or_congr_left ⟨inv.used name, ?_⟩
    rintro ⟨reached, reachable, builtin, rfl⟩
    exact inv.noted reached (inv.claimed_of_reachable foreign reachable) builtin

end Session

/-! ## Two classes that name each other -/

namespace CyclicPair

/-- The class file of `A`, a subclass of `java/B`. -/
def plain : Bytes :=
  [0xCA, 0xFE, 0xBA, 0xBE, 0, 0, 0, 52, 0, 5, 1, 0, 1, 65, 7, 0, 1, 1, 0, 6, 106, 97, 118, 97, 47, 66, 7, 0, 3,
    0, 0, 0, 2, 0, 4, 0, 0, 0, 0, 0, 0, 0, 0]

/-- The class file of `rt/java/B`, a subclass of `java/O` that implements `A`. -/
def platform : Bytes :=
  [0xCA, 0xFE, 0xBA, 0xBE, 0, 0, 0, 52, 0, 7, 1, 0, 9, 114, 116, 47, 106, 97, 118, 97, 47, 66, 7, 0, 1,
    1, 0, 6, 106, 97, 118, 97, 47, 79, 7, 0, 3, 1, 0, 1, 65, 7, 0, 5, 0, 0, 0, 2, 0, 4, 0, 1, 0, 6, 0, 0, 0, 0, 0, 0]

def environment : Environment where
  naming := ⟨"rt/"⟩
  builtins := (∅ : Builtins).insert "java/O"
  index := { entries := (∅ : Std.TreeMap String IndexEntry).insert "A.class" ⟨"A", 0⟩ |>.insert "rt/java/B.class" ⟨"B", 0⟩ }
  contents path := .ok (if path = "A" then plain else platform)

def session : Session where
  config := ⟨[], "o", some "A", [], ⟨"rt/"⟩⟩
  environment := environment
  run := ⟨{}, ⟨.folder [("o", .folder [("classpath0", .folder [("java", .folder [])])])], []⟩, #[]⟩

/-- What a compilation from `A` makes: the platform class is found under its physical name. -/
def artifacts : List Artifact :=
  [⟨"A", 0, "A", ⟨"A", some "java/B", [], [], [], ["java/B"]⟩, none⟩,
    ⟨"rt/java/B", 0, "java/B", ⟨"rt/java/B", some "java/O", ["A"], [], [], ["A", "java/O"]⟩, none⟩]

/-- A chain of steps compiles the two classes. -/
theorem steps : ∃ state, Relation.ReflTransGen environment.Step (["A"], {}) ([], state) ∧ state.artifacts = artifacts := by
  refine Exists.imp (fun state => And.imp_left (.head (@Environment.Step.compile environment "A" [] {} artifacts[0]
    (by decide +kernel) (by decide +kernel) (by decide +kernel) (by decide +kernel)))) ?_
  rw [show ([] : List String) ++ _ = ["java/B"] by decide +kernel]
  refine Exists.imp (fun state => And.imp_left (.head (@Environment.Step.compile environment "java/B" [] _ artifacts[1]
    (by decide +kernel) (by decide +kernel) (by decide +kernel) (by decide +kernel)))) ?_
  -- The reference back to `A` is claimed by now and not asked for again.
  rw [show ([] : List String) ++ _ = ["java/O"] by decide +kernel]
  exact ⟨_, .single (.builtin (by decide +kernel) (by decide +kernel)), rfl⟩

/-- The session compiles with success. -/
theorem compile_session :
    ∃ after, Session.compile.run.run session = (.ok (), after) ∧ after.run.state.artifacts = artifacts := by
  obtain ⟨state, chain, made⟩ := steps
  have seeds : session.seeds = ["A"] := by decide +kernel
  rw [← seeds] at chain
  rw [← made]
  exact Session.compile_of_steps (by decide +kernel) chain made (by decide +kernel)

/-- Each class file declares the name under which it is looked up. -/
theorem name_of_classFile : ∀ artifact ∈ artifacts, ∀ file,
    environment.classFile artifact.physical = .ok file → file.name = artifact.physical := by
  have named : ∀ artifact ∈ artifacts,
      (environment.classFile artifact.physical).map ClassFile.name = .ok artifact.physical := by
    decide +kernel
  intro artifact mem file parsed
  have ended := named artifact mem
  rw [parsed] at ended
  exact Except.ok.inj ended

/-- Both classes and `java/O` are all that the units of `A` and `java/B` name. -/
theorem session_closed : ∃ after, Session.compile.run.run session = (.ok (), after) ∧ after.run.state.artifacts = artifacts ∧
    ∀ artifact ∈ artifacts, ∀ name ∈ artifact.unit.classNames ⟨"rt/"⟩,
      (∃ other ∈ artifacts, Naming.strip ⟨"rt/"⟩ other.unit.name = name) ∨ name ∈ after.run.state.builtinsUsed := by
  obtain ⟨after, compiled, made⟩ := compile_session
  have closed := (Session.compile_closed rfl compiled (by rw [made]; exact name_of_classFile)).2
  rw [made] at closed
  exact ⟨after, compiled, made, closed⟩

/-- What can be reached from `A` is what is compiled and noted. -/
theorem session_exact : ∃ after, Session.compile.run.run session = (.ok (), after) ∧
    (∀ name, name ∈ after.run.state.references ⟨"rt/"⟩ ↔
      ∃ reached, environment.Reachable ["A"] reached ∧ environment.isBuiltin reached = false ∧
        Naming.strip ⟨"rt/"⟩ reached = name) ∧
    ∀ name, name ∈ after.run.state.builtinsUsed ↔
      (∃ reached, environment.Reachable ["A"] reached ∧ environment.isBuiltin reached = true ∧
        Naming.strip ⟨"rt/"⟩ reached = name) ∨ name ∈ Builtins.required := by
  obtain ⟨after, compiled, _⟩ := compile_session
  have seeds : session.seeds = ["A"] := by decide +kernel
  have closure := Session.compile_exact rfl (by decide) compiled
  rw [seeds] at closure
  exact ⟨after, compiled, closure⟩

end CyclicPair

end JvmUnits
