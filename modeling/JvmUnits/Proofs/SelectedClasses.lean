import JvmUnits.Proofs.ClassPatterns
import JvmUnits.Proofs.Failures

/-!
# Classes that patterns select

A pattern selects class files by their paths in the index, while a class is looked up under its physical name. For most classes
the two are the same, and a selected class is compiled from the entry that was selected; it is never missing. The classes of the
platform are looked up in the home package instead. So a platform class that is selected is compiled from the entry in the home
package, and is missing exactly if there is none, whatever the pattern has found (`Session.compile_selected`).
-/

namespace JvmUnits

namespace Environment

variable {env : Environment} {physical runtimeName : String}

/-- A class is missing exactly if there is no entry of its physical name. -/
theorem artifact_eq_classNotFound_iff {missing : String} :
    env.artifact physical runtimeName = .error (.classNotFound missing) ↔
      env.index.resolve (ClassIndex.classFilePath physical) = none ∧ missing = physical := by
  constructor
  · intro failed
    exact (artifact_eq_missing failed missing).mp rfl
  · rintro ⟨absent, rfl⟩
    exact artifact_of_missing absent

/-- A visit to a class that is not built in compiles it, if neither the name nor the physical name was claimed before. -/
theorem visit_of_unclaimed {name : String} {state : BuildState} (fresh : state.isClaimed name = false)
    (free : state.isClaimed (env.naming.physical name) = false) (own : env.isBuiltin name = false) :
    (env.visit name state).2 = (env.artifact (env.naming.physical name) (env.naming.strip name)).map some := by
  rw [visit_of_fresh fresh, if_neg (by simp [own]), if_neg (by simp [free])]

/-- The class is a platform class that the home package does not have, and is missing under its name there. -/
def LacksInHome (env : Environment) (name missing : String) : Prop :=
  Naming.isPlatform name = true ∧ env.naming.home ≠ "" ∧ env.index.resolve (env.naming.home ++ name ++ ".class") = none ∧
    missing = env.naming.home ++ name

/-- A class whose file is in the index under its own name is missing only if the home package lacks it. -/
theorem missing_iff {name missing : String} {entry : IndexEntry}
    (found : env.index.resolve (ClassIndex.classFilePath name) = some entry) :
    env.artifact (env.naming.physical name) (env.naming.strip name) = .error (.classNotFound missing) ↔
      env.LacksInHome name missing := by
  rw [artifact_eq_classNotFound_iff]
  constructor
  · rintro ⟨absent, rfl⟩
    have elsewhere : ¬ env.naming.IsPlain name := by
      intro plain
      rw [Naming.physical_of_plain plain, found] at absent
      cases absent
    rw [Naming.IsPlain, not_or, Bool.not_eq_false] at elsewhere
    rw [Naming.physical_of_platform elsewhere.1] at absent ⊢
    exact ⟨elsewhere.1, elsewhere.2, absent, rfl⟩
  · rintro ⟨platform, _, absent, rfl⟩
    rw [Naming.physical_of_platform platform]
    exact ⟨absent, rfl⟩

end Environment

/-! ## Failures of storing -/

/-- The action fails only because of a file. -/
def FailsOnFiles {α : Type} (action : ExceptT Error (StateM Disk) α) : Prop :=
  ∀ disk cause after, action.run disk = (.error cause, after) → ∃ path refusal, cause = .file path refusal

namespace FailsOnFiles

variable {α β : Type}

theorem pure (a : α) : FailsOnFiles (Pure.pure a) := by
  intro disk cause after failed
  cases failed

/-- An action on a disk whose refusals are put in words of a file fails on files. -/
theorem adapt (action : ExceptT OsError (StateM Disk) α) (path : String) : FailsOnFiles (action.adapt (Error.file path)) := by
  intro disk cause after failed
  have adapted : (action.adapt (Error.file path)).run disk =
      ((action.run disk).1.mapError (Error.file path), (action.run disk).2) := rfl
  rw [adapted] at failed
  rcases ended : action.run disk with ⟨refusal | a, middle⟩ <;> rw [ended] at failed <;> cases failed
  exact ⟨path, refusal, rfl⟩

/-- Two actions in a row fail on files if both do. -/
theorem bind {action : ExceptT Error (StateM Disk) α} {next : α → ExceptT Error (StateM Disk) β} (first : FailsOnFiles action)
    (second : ∀ a, FailsOnFiles (next a)) : FailsOnFiles (action >>= next) := by
  intro disk cause after failed
  rcases ended : action.run disk with ⟨e | a, middle⟩
  · rw [run_bind_error ended] at failed
    cases failed
    exact first disk cause after ended
  · rw [run_bind_ok ended] at failed
    exact second a middle cause after failed

end FailsOnFiles

/-- Saving an artifact fails on files only. -/
theorem Artifact.failsOnFiles_save (naming : Naming) (output : String) (artifact : Artifact) :
    FailsOnFiles (artifact.save naming output) := by
  unfold save
  refine .bind (.adapt _ _) fun _ => .bind (.adapt _ _) fun _ => ?_
  split
  · exact .adapt _ _
  · exact .pure _

/-- An artifact is not refused because a class is missing. -/
theorem Store.onDisk_ne_classNotFound {naming : Naming} {output missing : String} {artifact : Artifact} {disk : Disk} :
    (Store.onDisk naming output artifact disk).2 ≠ .error (.classNotFound missing) := by
  intro refused
  rcases ended : Store.onDisk naming output artifact disk with ⟨after, result⟩
  rw [ended] at refused
  obtain rfl : result = .error (.classNotFound missing) := refused
  obtain ⟨path, refusal, same⟩ := artifact.failsOnFiles_save naming output disk _ _ (run_save_of_onDisk ended)
  cases same

/-! ## Selected classes of a session -/

/-- A run fails as soon as the visit to the first name on its list does. -/
theorem Run.snd_work_of_visit_error {σ : Type} {env : Environment} {store : Store σ} {name : String} {rest : List String}
    {done : Nat} {run : Run σ} {cause : Error} (fresh : run.state.isClaimed name = false)
    (failed : (env.visit name run.state).2 = .error cause) :
    (work env store (name :: rest) done run).2 = .error (.compile name cause) := by
  rcases visited : env.visit name run.state with ⟨state, result⟩
  rw [visited] at failed
  obtain rfl : result = .error cause := failed
  rw [work_of_ended (.failed fresh visited)]

namespace Session

variable {session after : Session}

/-- A session that fails to compile a class has a compilation that fails so. -/
theorem compilation_of_failed {name : String} {cause : Error}
    (h : compile.run.run session = (.error (.compile name cause), after)) :
    session.compilation.2 = .error (.compile name cause) := by
  cases oversized : session.oversized? with
  | some pattern =>
    rw [compile, run_get_bind] at h
    simp only [oversized] at h
    cases h
  | none =>
    rw [compile_of_fits oversized] at h
    exact (Prod.mk.inj h).1

/-- A class that a session reports missing is not found under its physical name. -/
theorem artifact_of_missing {name missing : String}
    (h : compile.run.run session = (.error (.compile name (.classNotFound missing)), after)) :
    session.environment.artifact (session.environment.naming.physical name) (session.environment.naming.strip name) =
      .error (.classNotFound missing) := by
  have failed := compilation_of_failed h
  rw [compilation, Run.snd_compile] at failed
  obtain ⟨_, _, _, _, _, same, _, refuses, _⟩ := Run.steps_of_failed_work (Prod.ext rfl failed)
  cases same
  cases refuses with
  | compile own failed => exact failed
  | store taken made refused => exact absurd refused Store.onDisk_ne_classNotFound

/-- After a compilation from scratch that succeeds, every seed that is not built in has an artifact from its physical name,
unless the home package is a platform package itself. -/
theorem artifact_of_seed (untouched : session.run.state = {}) (compiled : compile.run.run session = (.ok (), after))
    (foreign : Naming.isPlatform session.environment.naming.home = false) {name : String} (mem : name ∈ session.seeds)
    (own : session.environment.isBuiltin name = false) :
    ∃ artifact ∈ after.run.state.artifacts, session.environment.artifact (session.environment.naming.physical name)
      (session.environment.naming.strip name) = .ok artifact := by
  obtain ⟨_, state, inv, artifacts, _⟩ := Run.compile_eq_ok untouched (compilation_of_compile compiled)
  have claimed : state.isClaimed name = true := (inv.seeded name mem).resolve_right List.not_mem_nil
  obtain ⟨artifact, among, runtimeName, physical⟩ := inv.present name claimed own
  obtain ⟨other, _, _, made⟩ := inv.compiled artifact among
  obtain ⟨_, physicalOther, runtimeNameOther⟩ := Environment.artifact_eq_ok made
  refine ⟨artifact, artifacts ▸ among, ?_⟩
  rw [← physical foreign, ← runtimeName, physicalOther, runtimeNameOther]
  exact made

/-- A class that some pattern of a session selects has an entry in the index under its name, and a pattern that matches the path
of the entry. When it is visited, is not built in, and neither its name nor its physical name has been claimed, it is compiled
from this entry if it is looked up under its own name; a platform class is compiled from its entry in the home package. It is
missing only if the home package lacks it, and no compilation of the session reports it as missing for another reason. After a
compilation that succeeds, a selected class that is looked up under its own name has been compiled from its entry. -/
theorem compile_selected {name : String}
    (selected : name ∈ session.environment.index.matchingClasses session.config.patterns) :
    ∃ entry, session.environment.index.resolve (name ++ ".class") = some entry ∧
      (∃ pattern ∈ session.config.patternTexts, ClassPattern.Matches pattern (name ++ ".class")) ∧
      (∀ state : BuildState, state.isClaimed name = false →
        state.isClaimed (session.environment.naming.physical name) = false → session.environment.isBuiltin name = false →
        (session.environment.naming.IsPlain name → (session.environment.visit name state).2 =
          (session.environment.artifactAt name (session.environment.naming.strip name) entry).map some) ∧
        (∀ housed, Naming.isPlatform name = true →
          session.environment.index.resolve (session.environment.naming.home ++ name ++ ".class") = some housed →
          (session.environment.visit name state).2 = (session.environment.artifactAt (session.environment.naming.home ++ name)
            (session.environment.naming.strip name) housed).map some) ∧
        ∀ missing, (session.environment.visit name state).2 = .error (.classNotFound missing) ↔
          session.environment.LacksInHome name missing) ∧
      (∀ after missing, compile.run.run session = (.error (.compile name (.classNotFound missing)), after) →
        session.environment.LacksInHome name missing) ∧
      ∀ after, session.run.state = {} → compile.run.run session = (.ok (), after) →
        Naming.isPlatform session.environment.naming.home = false → session.environment.isBuiltin name = false →
        session.environment.naming.IsPlain name → ∃ artifact ∈ after.run.state.artifacts,
          session.environment.artifactAt name (session.environment.naming.strip name) entry = .ok artifact := by
  obtain ⟨present, pattern, among, matched⟩ := ClassIndex.mem_matchingClasses_iff.mp selected
  obtain ⟨entry, found⟩ := Option.isSome_iff_exists.mp present
  obtain ⟨text, written, rfl⟩ := List.mem_map.mp among
  refine ⟨entry, found, ⟨text, written, ClassPattern.selects_iff_matches.mp matched⟩, ?_, ?_, ?_⟩
  · intro state fresh free own
    rw [Environment.visit_of_unclaimed fresh free own]
    refine ⟨fun plain => ?_, fun housed platform other => ?_, fun missing => ?_⟩
    · rw [Naming.physical_of_plain plain, Environment.artifact_of_entry found]
    · rw [Naming.physical_of_platform platform, Environment.artifact_of_entry other]
    · rw [map_eq_error_iff, Environment.missing_iff found]
  · intro after missing failed
    exact (Environment.missing_iff found).mp (artifact_of_missing failed)
  · intro after untouched compiled foreign own plain
    obtain ⟨artifact, mem, made⟩ := artifact_of_seed untouched compiled foreign (List.mem_append_left _ selected) own
    rw [Naming.physical_of_plain plain, Environment.artifact_of_entry found] at made
    exact ⟨artifact, mem, made⟩

end Session

/-- The class `B` is selected and compiled from its own entry. -/
theorem SharedOutput.compile_selected_plain :
    "B" ∈ session.environment.index.matchingClasses session.config.patterns ∧
      session.environment.index.resolve "B.class" = some ⟨"B", 0⟩ ∧
      (session.environment.visit "B" {}).2 = .ok (some artifacts[0]) ∧
      ∃ after, Session.compile.run.run session = (.ok (), after) ∧ artifacts[0] ∈ after.run.state.artifacts := by
  have selected : "B" ∈ session.environment.index.matchingClasses session.config.patterns := by decide +kernel
  have known : session.environment.index.resolve "B.class" = some ⟨"B", 0⟩ := by decide +kernel
  have made : session.environment.artifactAt "B" (session.environment.naming.strip "B") ⟨"B", 0⟩ = .ok artifacts[0] := by
    decide +kernel
  obtain ⟨state, chain, all⟩ := steps
  have seeds : session.seeds = ["B", "rt/B"] := by decide +kernel
  rw [← seeds] at chain
  obtain ⟨after, compiled, _⟩ : ∃ after, Session.compile.run.run session = (.ok (), after) ∧
      after.run.state.artifacts = state.artifacts :=
    Session.compile_of_steps (by decide +kernel) chain all (by decide +kernel)
  obtain ⟨entry, found, _, visited, _, kept⟩ := Session.compile_selected selected
  obtain rfl : entry = ⟨"B", 0⟩ := Option.some.inj (found.symm.trans known)
  refine ⟨selected, known, ?_, after, compiled, ?_⟩
  · rw [(visited {} rfl rfl (by decide +kernel)).1 (Or.inl (by decide)), made]
    rfl
  · obtain ⟨artifact, mem, same⟩ := kept after rfl compiled (by decide) (by decide +kernel) (Or.inl (by decide))
    obtain rfl : artifacts[0] = artifact := Except.ok.inj (made.symm.trans same)
    exact mem

/-! ## A platform class outside the home package -/

namespace PlatformSeed

/-- The class file of `java/util/Foo`, which has no superclass. -/
def data : Bytes :=
  [0xCA, 0xFE, 0xBA, 0xBE, 0, 0, 0, 52, 0, 3, 1, 0, 13, 106, 97, 118, 97, 47, 117, 116, 105, 108, 47, 70, 111, 111, 7, 0, 1,
    0, 0, 0, 2, 0, 0, 0, 0, 0, 0, 0, 0, 0, 0]

def entry : IndexEntry := ⟨"r/java/util/Foo.class", 0⟩

def environment : Environment where
  naming := .standard
  builtins := ∅
  index := { entries := (∅ : Std.TreeMap String IndexEntry).insert "java/util/Foo.class" entry }
  contents _ := .ok data

def session : Session where
  config := ⟨["r"], "o", some "java.util.Foo", [], .standard⟩
  environment := environment
  run := ⟨{}, ⟨.folder [], []⟩, #[]⟩

/-- The pattern selects the class, and its entry leads to a class file that compiles. But the class is looked up in the home
package, and the session ends with the report that it is missing. -/
theorem selected_missing :
    environment.index.matchingClasses session.config.patterns = ["java/util/Foo"] ∧
      environment.index.resolve "java/util/Foo.class" = some entry ∧
      environment.artifactAt "java/util/Foo" "java/util/Foo" entry =
        .ok ⟨"java/util/Foo", 0, "java/util/Foo", ⟨"java/util/Foo", none, [], [], [], []⟩, none⟩ ∧
      environment.isBuiltin "java/util/Foo" = false ∧
      (environment.visit "java/util/Foo" {}).2 = .error (.classNotFound "net/nexustools/jvm/runtime/java/util/Foo") ∧
      ∃ after, Session.compile.run.run session =
        (.error (.compile "java/util/Foo" (.classNotFound "net/nexustools/jvm/runtime/java/util/Foo")), after) := by
  have visited : (environment.visit "java/util/Foo" {}).2 =
      .error (.classNotFound "net/nexustools/jvm/runtime/java/util/Foo") := by decide +kernel
  have seeds : session.seeds = ["java/util/Foo"] := by decide +kernel
  refine ⟨by decide +kernel, by decide +kernel, by decide +kernel, by decide +kernel, visited, ?_⟩
  rw [Session.compile_of_fits (by decide +kernel), Session.compilation, Run.snd_compile, seeds]
  exact ⟨_, Prod.ext (Run.snd_work_of_visit_error rfl visited) rfl⟩

end PlatformSeed

end JvmUnits
