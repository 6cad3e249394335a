import JvmUnits.Proofs.ClosedWorld
import Mathlib.Data.List.Nodup

/-!
# Class files are handled once

A compilation that keeps a record of the stages of class files is the compilation. No stage of a class file is recorded twice,
however often the class is referred to and however it is spelled (`Run.compile_once`): a visit handles a class file only where
its physical name is not claimed, and claims it. What a turn of the loop records is said of one turn first, and from there of
a whole run (`Loop.Turned.fresh`, `Loop.fresh_recorded`).
-/

namespace JvmUnits

namespace Recording

variable {ε α β : Type}

theorem log_map (work : Recording (List Handling) ε α) (f : α → β) : (f <$> work).log = work.log := by
  obtain ⟨log, e | a⟩ := work
  · rfl
  · exact List.append_nil log

/-- After a stage comes only what may follow it. -/
theorem log_stage_bind {handling : Handling} {outcome : Except ε α} {next : α → Recording (List Handling) ε β}
    {later : List Handling}
    (follows : ∀ a, (next a).log <+: later) : (stage handling outcome >>= next).log <+: handling :: later := by
  cases outcome with
  | error e => exact List.cons_prefix_cons.mpr ⟨rfl, List.nil_prefix⟩
  | ok a => exact List.cons_prefix_cons.mpr ⟨rfl, follows a⟩

/-- A stage is recorded whatever comes after it. -/
theorem mem_stage_bind {handling : Handling} {outcome : Except ε α} {next : α → Recording (List Handling) ε β} :
    handling ∈ (stage handling outcome >>= next).log := by
  cases outcome with
  | error e => exact List.mem_singleton_self handling
  | ok a => exact List.mem_cons_self

/-- Where work succeeds after a stage, it went on. -/
theorem stage_bind_eq_ok {handling : Handling} {outcome : Except ε α} {next : α → Recording (List Handling) ε β} {b : β}
    (h : (stage handling outcome >>= next).outcome = .ok b) :
    ∃ a, (next a).outcome = .ok b ∧ (stage handling outcome >>= next).log = handling :: (next a).log := by
  cases outcome with
  | error e => cases h
  | ok a => exact ⟨a, h, rfl⟩

end Recording

/-! ## What a visit records -/

namespace Environment

variable {env : Environment}

/-- Compiles the class that is looked up under a physical name, with a record of its stages. -/
abbrev artifactRecorded (env : Environment) (physical runtimeName : String) : Recording (List Handling) Error Artifact :=
  env.artifactIn (List Handling) physical runtimeName

/-- Takes care of one name, with a record of the stages. -/
abbrev visitRecorded (env : Environment) (name : String) (state : BuildState) :
    BuildState × Recording (List Handling) Error (Option Artifact) :=
  env.visitIn (List Handling) name state

/-- The record of a class file has its stages in order, up to the one that failed. -/
theorem log_artifactRecorded (env : Environment) (physical runtimeName : String) :
    (env.artifactRecorded physical runtimeName).log <+: [.read, .parse, .translate].map (Handling.ofClass physical) := by
  unfold artifactRecorded artifactIn
  cases env.index.resolve (ClassIndex.classFilePath physical) with
  | none => exact List.nil_prefix
  | some entry =>
    exact Recording.log_stage_bind fun _ => Recording.log_stage_bind fun _ => Recording.log_stage_bind fun _ => List.nil_prefix

/-- The record of a class that is compiled has all its stages. -/
theorem translate_mem_artifactRecorded {physical runtimeName : String} {artifact : Artifact}
    (h : (env.artifactRecorded physical runtimeName).outcome = .ok artifact) :
    Handling.ofClass physical .translate ∈ (env.artifactRecorded physical runtimeName).log := by
  unfold artifactRecorded artifactIn at h ⊢
  cases found : env.index.resolve (ClassIndex.classFilePath physical) with
  | none =>
    rw [found] at h
    cases h
  | some entry =>
    rw [found] at h
    obtain ⟨data, h, read⟩ := Recording.stage_bind_eq_ok h
    obtain ⟨file, h, parsed⟩ := Recording.stage_bind_eq_ok h
    obtain ⟨unit, h, translated⟩ := Recording.stage_bind_eq_ok h
    simp only [artifactAtIn]
    rw [read, parsed, translated]
    simp

/-- A record of class files that are not claimed, with no stage twice. -/
structure Fresh (state : BuildState) (log : List Handling) : Prop where
  unclaimed : ∀ physical stage, Handling.ofClass physical stage ∈ log → state.isClaimed physical = false
  distinct : log.Nodup

/-- The class files of a record are claimed. -/
def Claimed (state : BuildState) (log : List Handling) : Prop :=
  ∀ handling ∈ log, ∃ physical stage, handling = Handling.ofClass physical stage ∧ state.isClaimed physical = true

theorem Fresh.nil (state : BuildState) : Fresh state [] := ⟨fun _ _ mem => absurd mem List.not_mem_nil, List.nodup_nil⟩

/-- A record may go on with what is new once its own class files are claimed. -/
theorem Fresh.append {state after : BuildState} {log later : List Handling} (first : Fresh state log)
    (claimed : Claimed after log) (mono : ∀ name, state.isClaimed name = true → after.isClaimed name = true)
    (rest : Fresh after later) : Fresh state (log ++ later) := by
  constructor
  · intro physical stage mem
    rcases List.mem_append.mp mem with mem | mem
    · exact first.unclaimed physical stage mem
    · have free := rest.unclaimed physical stage mem
      cases before : state.isClaimed physical with
      | false => rfl
      | true => rw [mono physical before] at free; cases free
  · -- A stage in both parts would be of a class file that is claimed in between and yet is not.
    refine List.nodup_append'.mpr ⟨first.distinct, rest.distinct, fun handling mem mem' => ?_⟩
    obtain ⟨physical, stage, rfl, taken⟩ := claimed handling mem
    rw [rest.unclaimed physical stage mem'] at taken
    cases taken

/-- A class file that is not claimed may go through its stages. -/
theorem Fresh.ofClass {state : BuildState} {physical : String} {log : List Handling}
    (free : state.isClaimed physical = false) (stages : log <+: [.read, .parse, .translate].map (Handling.ofClass physical)) :
    Fresh state log := by
  constructor
  · intro other stage mem
    obtain ⟨_, _, same⟩ := List.mem_map.mp (stages.subset mem)
    have path : ClassIndex.classFilePath physical = ClassIndex.classFilePath other := congrArg Handling.entry same
    have name := congrArg ClassIndex.className? path
    rw [ClassIndex.className?_classFilePath, ClassIndex.className?_classFilePath, Option.some.injEq] at name
    rw [← name, free]
  · refine stages.sublist.nodup (List.Nodup.map (fun one other same => congrArg Handling.stage same) (by decide))

/-- A visit that compiles a class is the first to claim its physical name. -/
theorem visitRecorded_cases {name : String} {state after : BuildState} {work : Recording (List Handling) Error (Option Artifact)}
    (visited : env.visitRecorded name state = (after, work)) :
    work = pure none ∨
      ∃ physical runtimeName, state.isClaimed physical = false ∧ after.isClaimed physical = true ∧
        work = some <$> env.artifactRecorded physical runtimeName := by
  unfold visitRecorded visitIn at visited
  split at visited
  · cases visited
    exact Or.inl rfl
  · rename_i fresh
    simp only at visited
    split at visited
    · cases visited
      exact Or.inl rfl
    · split at visited
      · cases visited
        exact Or.inl rfl
      · rename_i notShared
        cases visited
        refine Or.inr ⟨env.naming.physical name, env.naming.strip name, ?_, by simp, rfl⟩
        -- Spelled otherwise the physical name was looked up among the claims, and spelled so it is the fresh name itself.
        cases taken : state.isClaimed (env.naming.physical name) with
        | false => rfl
        | true =>
          have other : env.naming.physical name ≠ name := by
            intro same
            rw [same] at taken
            exact fresh taken
          exact absurd ⟨other, by simp [taken]⟩ notShared

/-- What a visit records is new, and is claimed afterwards. -/
theorem fresh_visitRecorded {name : String} {state after : BuildState} {work : Recording (List Handling) Error (Option Artifact)}
    (visited : env.visitRecorded name state = (after, work)) : Fresh state work.log ∧ Claimed after work.log := by
  rcases visitRecorded_cases visited with rfl | ⟨physical, runtimeName, free, taken, rfl⟩
  · exact ⟨.nil state, fun _ mem => absurd mem List.not_mem_nil⟩
  · rw [Recording.log_map]
    have stages := env.log_artifactRecorded physical runtimeName
    refine ⟨.ofClass free stages, fun handling mem => ?_⟩
    obtain ⟨stage, _, rfl⟩ := List.mem_map.mp (stages.subset mem)
    exact ⟨physical, stage, rfl, taken⟩

/-- A visit that yields an artifact has recorded the translation of its class file. -/
theorem translate_mem_visitRecorded {name : String} {state after : BuildState} {log : List Handling} {artifact : Artifact}
    (visited : env.visitRecorded name state = (after, ⟨log, .ok (some artifact)⟩)) :
    Handling.ofClass artifact.physical .translate ∈ log := by
  rcases visitRecorded_cases visited with none | ⟨physical, runtimeName, _, _, made⟩
  · cases none
  · have recorded : log = _ := congrArg Recording.log made
    have outcome := congrArg Recording.outcome made
    rw [Recording.log_map] at recorded
    rw [Recording.outcome_map] at outcome
    cases given : (env.artifactRecorded physical runtimeName).outcome with
    | error e =>
      rw [given] at outcome
      cases outcome
    | ok found =>
      rw [given] at outcome
      cases outcome
      have translated := translate_mem_artifactRecorded given
      rw [outcome_artifactIn] at given
      rw [(artifact_eq_ok given).2.1, recorded]
      exact translated

/-! ## What a visit depends on -/

/-- Other contents of the files are those of the environment for the class files that a record has as read. -/
def Agrees (env : Environment) (contents : String → Except OsError Bytes) (log : List Handling) : Prop :=
  ∀ handling ∈ log, handling.stage = .read → ∀ entry, env.index.resolve handling.entry = some entry →
    contents entry.path = env.contents entry.path

/-- What agrees with a whole record agrees with the first part of it. -/
theorem Agrees.of_append_left {contents : String → Except OsError Bytes} {log later : List Handling}
    (agree : env.Agrees contents (log ++ later)) : env.Agrees contents log :=
  fun handling mem => agree handling (List.mem_append_left later mem)

/-- What agrees with a whole record agrees with the last part of it. -/
theorem Agrees.of_append_right {contents : String → Except OsError Bytes} {log later : List Handling}
    (agree : env.Agrees contents (log ++ later)) : env.Agrees contents later :=
  fun handling mem => agree handling (List.mem_append_right log mem)

/-- An artifact depends on no class file but the one that is recorded as read. -/
theorem artifact_of_agrees {contents : String → Except OsError Bytes} {physical runtimeName : String}
    (agree : env.Agrees contents (env.artifactRecorded physical runtimeName).log) :
    { env with contents }.artifact physical runtimeName = env.artifact physical runtimeName := by
  cases found : env.index.resolve (ClassIndex.classFilePath physical) with
  | none =>
    have absent : { env with contents }.index.resolve (ClassIndex.classFilePath physical) = none := found
    rw [artifact_of_missing found, artifact_of_missing absent]
  | some entry =>
    have there : { env with contents }.index.resolve (ClassIndex.classFilePath physical) = some entry := found
    have recorded : Handling.ofClass physical .read ∈ (env.artifactRecorded physical runtimeName).log := by
      rw [artifactRecorded, artifactIn, found]
      exact Recording.mem_stage_bind
    have same := agree _ recorded rfl entry found
    have sameRead : { env with contents }.readFile entry.path = env.readFile entry.path := by
      unfold readFile
      simp only [same]
    rw [artifact_of_entry found, artifact_of_entry there, artifactAt, artifactAt, outcome_artifactAtIn, outcome_artifactAtIn,
      sameRead]

/-- A visit depends on no class file but the one that is recorded as read. -/
theorem visit_of_agrees {contents : String → Except OsError Bytes} {name : String} {state : BuildState}
    (agree : env.Agrees contents (env.visitRecorded name state).2.log) :
    { env with contents }.visit name state = env.visit name state := by
  unfold visitRecorded visitIn at agree
  rw [visit_eq, visit_eq]
  split at agree
  · rename_i claimed
    rw [if_pos claimed, if_pos claimed]
  · rename_i fresh
    rw [if_neg fresh, if_neg fresh]
    simp only at agree ⊢
    split at agree
    · rename_i known
      rw [if_pos known, if_pos known]
    · rename_i own
      rw [if_neg own, if_neg own]
      split at agree
      · rename_i shared
        rw [if_pos shared, if_pos shared]
      · rename_i notShared
        rw [if_neg notShared, if_neg notShared]
        rw [Recording.log_map] at agree
        rw [artifact_of_agrees agree]

end Environment

/-! ## Turns with a record -/

namespace Loop

variable {σ : Type} {env : Environment} {store : Store σ} {loop next : Loop σ} {log : List Handling} {after : Run σ}
  {outcome : Except Failure Unit}

/-- A turn gives up no claim. -/
theorem Turned.mono (turned : Turned (List Handling) env store loop log (.goOn next)) {name : String}
    (claimed : loop.run.state.isClaimed name = true) : next.run.state.isClaimed name = true := by
  cases turned with
  | claimed => exact claimed
  | passed fresh visited => exact Environment.visit_mono visited claimed
  | stored fresh visited =>
    have kept := Environment.visit_mono visited claimed
    exact kept

/-- What a turn records is new. -/
theorem Turned.fresh {result : Turn σ} (turned : Turned (List Handling) env store loop log result) :
    Environment.Fresh loop.run.state log := by
  cases turned with
  | finished | claimed => exact .nil _
  | failed fresh visited => exact (Environment.fresh_visitRecorded (Environment.visitIn_of_visit visited)).1
  | passed fresh visited => exact (Environment.fresh_visitRecorded (Environment.visitIn_of_visit visited)).1
  | refused fresh visited => exact (Environment.fresh_visitRecorded (Environment.visitIn_of_visit visited)).1
  | stored fresh visited => exact (Environment.fresh_visitRecorded (Environment.visitIn_of_visit visited)).1

/-- What a turn records is claimed after it. -/
theorem Turned.claims (turned : Turned (List Handling) env store loop log (.goOn next)) :
    Environment.Claimed next.run.state log := by
  cases turned with
  | claimed =>
    intro handling mem
    cases mem
  | passed fresh visited => exact (Environment.fresh_visitRecorded (Environment.visitIn_of_visit visited)).2
  | stored fresh visited => exact (Environment.fresh_visitRecorded (Environment.visitIn_of_visit visited)).2

/-- A turn with which the loop ends adds no artifact. -/
theorem Turned.artifacts_of_ended (turned : Turned (List Handling) env store loop log (.ended after outcome)) :
    after.state.artifacts = loop.run.state.artifacts := by
  cases turned with
  | finished => rfl
  | failed fresh visited => exact Environment.artifacts_visit visited
  | refused fresh visited => exact Environment.artifacts_visit visited

/-- A turn adds at most one artifact, and has recorded the translation of its class file. -/
theorem Turned.translated (turned : Turned (List Handling) env store loop log (.goOn next)) :
    ∃ added, next.run.state.artifacts = loop.run.state.artifacts ++ added ∧
      (added.map fun artifact => Handling.ofClass artifact.physical .translate).Sublist log := by
  cases turned with
  | claimed => exact ⟨[], (List.append_nil _).symm, List.nil_sublist _⟩
  | passed fresh visited =>
    have same := Environment.artifacts_visit visited
    exact ⟨[], by rw [List.append_nil]; exact same, List.nil_sublist _⟩
  | @stored name rest done run state artifact storage fresh visited =>
    have same := Environment.artifacts_visit visited
    have recorded := Environment.translate_mem_visitRecorded (Environment.visitIn_of_visit visited)
    refine ⟨[artifact], ?_, List.singleton_sublist.mpr recorded⟩
    rw [← same]
    rfl

/-- A turn depends on no class file but the one that is recorded as read. -/
theorem Turned.of_agrees {result : Turn σ} {contents : String → Except OsError Bytes}
    (turned : Turned (List Handling) env store loop log result) (agree : env.Agrees contents log) :
    Turned Unit { env with contents } store loop () result := by
  cases turned with
  | finished => exact .finished
  | claimed taken => exact .claimed taken
  | failed fresh visited => exact .failed fresh ((Environment.visit_of_agrees agree).trans visited)
  | passed fresh visited => exact .passed fresh ((Environment.visit_of_agrees agree).trans visited)
  | refused fresh visited kept => exact .refused fresh ((Environment.visit_of_agrees agree).trans visited) kept
  | stored fresh visited kept => exact .stored fresh ((Environment.visit_of_agrees agree).trans visited) kept

/-! ## Runs with a record -/

/-- Turns until the loop ends, with a record of the stages. -/
def recorded (env : Environment) (store : Store σ) (loop : Loop σ) : Run σ × Recording (List Handling) Failure Unit :=
  loop.workIn (List Handling) env store []

/-- A record goes on from an earlier one. -/
theorem workIn_append (record : List Handling) (loop : Loop σ) :
    loop.workIn (List Handling) env store record =
      ((loop.recorded env store).1, ⟨record ++ (loop.recorded env store).2.log, (loop.recorded env store).2.outcome⟩) := by
  induction loop using induct (List Handling) env store generalizing record with
  | ended turned =>
    rw [recorded, workIn_of_ended turned, workIn_of_ended turned]
    rfl
  | @goOn loop log next turned ih =>
    rw [recorded, workIn_of_goOn turned, workIn_of_goOn turned, ih, ih]
    simp [Record.join]

/-- A loop that is ended by a turn has the record of this turn. -/
theorem recorded_of_ended (turned : Turned (List Handling) env store loop log (.ended after outcome)) :
    loop.recorded env store = (after, ⟨log, outcome⟩) :=
  workIn_of_ended turned

/-- A loop that goes on after a turn has the record of this turn in front of the others. -/
theorem recorded_of_goOn (turned : Turned (List Handling) env store loop log (.goOn next)) :
    loop.recorded env store =
      ((next.recorded env store).1, ⟨log ++ (next.recorded env store).2.log, (next.recorded env store).2.outcome⟩) := by
  rw [← workIn_append]
  exact workIn_of_goOn turned

/-- A run records only what was not claimed before it, and nothing twice. -/
theorem fresh_recorded (env : Environment) (store : Store σ) (loop : Loop σ) :
    Environment.Fresh loop.run.state (loop.recorded env store).2.log := by
  induction loop using induct (List Handling) env store with
  | ended turned =>
    rw [recorded_of_ended turned]
    exact turned.fresh
  | goOn turned ih =>
    rw [recorded_of_goOn turned]
    exact turned.fresh.append turned.claims (fun _ => turned.mono) ih

/-- Every artifact that a run adds to its state has the translation of its class file in the record. -/
theorem translated_recorded (env : Environment) (store : Store σ) (loop : Loop σ) :
    ∃ added, (loop.recorded env store).1.state.artifacts = loop.run.state.artifacts ++ added ∧
      (added.map fun artifact => Handling.ofClass artifact.physical .translate).Sublist (loop.recorded env store).2.log := by
  induction loop using induct (List Handling) env store with
  | ended turned =>
    rw [recorded_of_ended turned]
    exact ⟨[], by rw [List.append_nil]; exact turned.artifacts_of_ended, List.nil_sublist _⟩
  | goOn turned ih =>
    obtain ⟨first, here, handled⟩ := turned.translated
    obtain ⟨more, later, translated⟩ := ih
    rw [recorded_of_goOn turned]
    refine ⟨first ++ more, ?_, ?_⟩
    · rw [later, here, List.append_assoc]
    · rw [List.map_append]
      exact handled.append translated

/-- A run depends on no class files but those that are recorded as read. -/
theorem work_of_agrees {contents : String → Except OsError Bytes} {loop : Loop σ}
    (agree : env.Agrees contents (loop.recorded env store).2.log) :
    Run.work { env with contents } store loop.queue loop.done loop.run = Run.work env store loop.queue loop.done loop.run := by
  induction loop using induct (List Handling) env store with
  | ended turned =>
    rw [recorded_of_ended turned] at agree
    rw [Run.work_of_ended (turned.of_agrees agree), Run.work_of_ended turned.plain]
  | goOn turned ih =>
    rw [recorded_of_goOn turned] at agree
    rw [Run.work_of_goOn (turned.of_agrees agree.of_append_left), Run.work_of_goOn turned.plain]
    exact ih agree.of_append_right

end Loop

/-! ## Whole compilations with a record -/

namespace Run

variable {σ : Type} {env : Environment} {store : Store σ}

/-- A whole compilation, with a record of the stages. -/
def compileRecorded (env : Environment) (store : Store σ) (seeds : List String) (run : Run σ) :
    Run σ × Recording (List Handling) Failure Unit :=
  run.compileIn (List Handling) env store seeds

theorem log_compileRecorded (seeds : List String) (run : Run σ) :
    (run.compileRecorded env store seeds).2.log = (Loop.recorded env store ⟨seeds, 0, run.started env⟩).2.log :=
  run.log_compileIn (List Handling) env store seeds

/-- Without the record the compilation is the same. -/
theorem erase_compileRecorded (seeds : List String) (run : Run σ) :
    ((run.compileRecorded env store seeds).1, (run.compileRecorded env store seeds).2.outcome) =
      run.compile env store seeds :=
  run.plain_compileIn (List Handling) env store seeds

/-- A compilation has the artifacts of its work: its conclusion adds none. -/
theorem artifacts_compile (seeds : List String) (run : Run σ) :
    (run.compile env store seeds).1.state.artifacts = (work env store seeds 0 (run.started env)).1.state.artifacts := by
  rcases worked : work env store seeds 0 (run.started env) with ⟨after, failure | _⟩
  · rw [compile_of_failed worked]
  · rw [compile_of_done worked]
    exact BuildState.artifacts_foldl_useBuiltin _ _

/-- A compilation records nothing twice. -/
theorem nodup_compileRecorded (env : Environment) (store : Store σ) (seeds : List String) (run : Run σ) :
    (run.compileRecorded env store seeds).2.log.Nodup := by
  rw [log_compileRecorded]
  exact (Loop.fresh_recorded env store _).distinct

/-- Every artifact that a compilation adds has the translation of its class file in the record. -/
theorem translated_compileRecorded (env : Environment) (store : Store σ) (seeds : List String) (run : Run σ) :
    ∃ added, (run.compile env store seeds).1.state.artifacts = run.state.artifacts ++ added ∧
      (added.map fun artifact => Handling.ofClass artifact.physical .translate).Sublist
        (run.compileRecorded env store seeds).2.log := by
  have plain := Loop.plain_workIn env store ([] : List Handling) ⟨seeds, 0, run.started env⟩
  rw [artifacts_compile, log_compileRecorded, ← plain]
  exact Loop.translated_recorded env store ⟨seeds, 0, run.started env⟩

/-- A compilation makes no two artifacts of one class. -/
theorem nodup_physical_compile (env : Environment) (store : Store σ) (seeds : List String) (run : Run σ) :
    ∃ added, (run.compile env store seeds).1.state.artifacts = run.state.artifacts ++ added ∧
      (added.map Artifact.physical).Nodup := by
  obtain ⟨added, artifacts, translated⟩ := run.translated_compileRecorded env store seeds
  have distinct : ((added.map Artifact.physical).map fun physical => Handling.ofClass physical .translate).Nodup := by
    rw [List.map_map]
    exact translated.nodup (run.nodup_compileRecorded env store seeds)
  exact ⟨added, artifacts, distinct.of_map⟩

/-- A compilation depends on no class files but those that are recorded as read. -/
theorem compile_of_agrees {contents : String → Except OsError Bytes} {seeds : List String} {run : Run σ}
    (agree : env.Agrees contents (run.compileRecorded env store seeds).2.log) :
    run.compile { env with contents } store seeds = run.compile env store seeds := by
  rw [log_compileRecorded] at agree
  have same : work { env with contents } store seeds 0 (run.started { env with contents }) =
      work env store seeds 0 (run.started env) := Loop.work_of_agrees agree
  rcases worked : work env store seeds 0 (run.started env) with ⟨after, failure | _⟩
  · rw [compile_of_failed worked, compile_of_failed (same.trans worked)]
  · rw [compile_of_done worked, compile_of_done (same.trans worked)]

/-- In every compilation, whether it succeeds or fails, each class file is read at most once, parsed at most once and translated
at most once: the compilation with a record is the compilation, no stage of a class file is recorded twice, the compilation
depends on no class file that is not recorded as read, and the translation of every artifact that it makes is recorded. -/
theorem compile_once (env : Environment) (store : Store σ) (seeds : List String) (run : Run σ) :
    ((run.compileRecorded env store seeds).1, (run.compileRecorded env store seeds).2.outcome) =
        run.compile env store seeds ∧
      (∀ handling, (run.compileRecorded env store seeds).2.log.count handling ≤ 1) ∧
      (∀ contents, env.Agrees contents (run.compileRecorded env store seeds).2.log →
        run.compile { env with contents } store seeds = run.compile env store seeds) ∧
      ∃ added, (run.compile env store seeds).1.state.artifacts = run.state.artifacts ++ added ∧
        (added.map fun artifact => Handling.ofClass artifact.physical .translate).Sublist
          (run.compileRecorded env store seeds).2.log := by
  refine ⟨erase_compileRecorded seeds run, ?_, ?_, run.translated_compileRecorded env store seeds⟩
  · exact List.nodup_iff_count_le_one.mp (run.nodup_compileRecorded env store seeds)
  · intro contents agree
    exact compile_of_agrees agree

end Run

/-! ## Two classes that name each other, once more -/

namespace CyclicPair

/-- The contents of the two class files alone. -/
def twoFiles (path : String) : Except OsError Bytes :=
  if path = "A" then .ok plain else if path = "B" then .ok platform else .error .notFound

theorem agrees_twoFiles (log : List Handling) : environment.Agrees twoFiles log := by
  intro handling _ _ entry found
  unfold ClassIndex.resolve environment at found
  simp only [Std.TreeMap.getElem?_insert, Std.LawfulEqCmp.compare_eq_iff_eq, Std.TreeMap.getElem?_emptyc] at found
  split at found
  · cases found
    rfl
  · split at found
    · cases found
      rfl
    · cases found

/-- Each of the two classes refers to the other, and each is translated once. -/
theorem handled_once : ∃ log run, session.run.compileRecorded environment (.onDisk ⟨"rt/"⟩ "o") ["A"] = (run, ⟨log, .ok ()⟩) ∧
    (∀ handling, log.count handling ≤ 1) ∧
    [Handling.ofClass "A" .translate, Handling.ofClass "rt/java/B" .translate].Sublist log ∧
    session.run.compile { environment with contents := twoFiles } (.onDisk ⟨"rt/"⟩ "o") ["A"] = (run, .ok ()) := by
  have seeds : session.seeds = ["A"] := by decide +kernel
  obtain ⟨after, compiled, made⟩ := compile_session
  have ended := Session.compilation_of_compile compiled
  unfold Session.compilation at ended
  rw [seeds] at ended
  obtain ⟨erased, distinct, depends, added, more, translated⟩ :=
    Run.compile_once environment (.onDisk ⟨"rt/"⟩ "o") ["A"] session.run
  have same : session.run.compile environment (.onDisk ⟨"rt/"⟩ "o") ["A"] = (after.run, .ok ()) := ended
  rw [same, made] at more
  obtain rfl : artifacts = added := more
  rw [same] at erased depends
  obtain ⟨run, outcome⟩ := Prod.mk.inj erased
  refine ⟨_, after.run, ?_, distinct, translated, depends twoFiles (agrees_twoFiles _)⟩
  rw [← run, ← outcome]

end CyclicPair

end JvmUnits
