import JvmUnits.Proofs.Failures
import Mathlib.Data.List.Flatten

/-!
# The loop of a compilation ends

`Loop.turn` is one turn of the loop that works off the list: it takes the first name, and goes on or ends. Nothing in it counts
turns, the list may grow with every turn, and the names that may be put on it are not bounded. And yet the loop ends
(`Loop.turns_of_enough`): names are put on the list only as references of a class file that was not claimed before, so with
every turn the *potential* falls, which counts the names on the list and the references of all class files that are not claimed
(`Loop.potential_turn`). What the loop has come to then is what a run does, and it has translated no more class files than
there are in the index (`Run.compile_terminates`).
-/

namespace JvmUnits

/-! ## Turns -/

namespace Loop

variable {σ : Type}

/-- Some number of turns, or fewer if the loop ends before. -/
def turns (env : Environment) (store : Store σ) : Nat → Loop σ → Turn σ
  | 0, loop => .goOn loop
  | n + 1, loop =>
    match loop.turn env store with
    | .goOn next => turns env store n next
    | .ended run outcome => .ended run outcome

end Loop

/-! ## The potential -/

namespace Environment

variable {env : Environment}

/-- The references of the class file that is looked up under a physical name; none if the class does not compile. -/
def referencesOf (env : Environment) (physical : String) : List String :=
  ((env.classUnit physical).toOption.map ClassUnit.references).getD []

/-- The references of all class files that have not been claimed. -/
def awaited (env : Environment) (state : BuildState) : List String := (env.unclaimed state).flatMap env.referencesOf

/-- The references of all class files of the index. -/
def allReferences (env : Environment) : List String := env.index.classNames.flatMap env.referencesOf

/-- The references of a class are those of the unit in its artifact. -/
theorem referencesOf_artifact {physical runtimeName : String} {artifact : Artifact}
    (made : env.artifact physical runtimeName = .ok artifact) : env.referencesOf physical = artifact.unit.references := by
  simp [referencesOf, (artifact_eq_ok made).1, Except.toOption]

/-- Where no claim is given up, class files that are not claimed were not claimed before. -/
theorem unclaimed_sublist {state after : BuildState} (mono : ∀ name, state.isClaimed name → after.isClaimed name) :
    (env.unclaimed after).Sublist (env.unclaimed state) :=
  List.monotone_filter_right _ fun name => not_isClaimed_of_mono mono name

/-- No more names are awaited once more of them are claimed. -/
theorem length_awaited_le {state after : BuildState} (mono : ∀ name, state.isClaimed name → after.isClaimed name) :
    (env.awaited after).length ≤ (env.awaited state).length :=
  ((unclaimed_sublist mono).flatMap _).length_le

theorem length_awaited_le_all (env : Environment) (state : BuildState) :
    (env.awaited state).length ≤ env.allReferences.length :=
  (List.filter_sublist.flatMap _).length_le

/-- The references of a class file that is claimed are no longer awaited. -/
theorem length_awaited_add_le {state after : BuildState} (mono : ∀ name, state.isClaimed name → after.isClaimed name)
    {physical : String} (known : physical ∈ env.index.classNames) (before : state.isClaimed physical = false)
    (now : after.isClaimed physical = true) :
    (env.referencesOf physical).length + (env.awaited after).length ≤ (env.awaited state).length := by
  have gone : physical ∉ env.unclaimed after := by simp [unclaimed, now]
  have there : physical ∈ env.unclaimed state := by simp [unclaimed, known, before]
  obtain ⟨between, same, part⟩ := List.cons_subperm_of_not_mem_of_mem gone there (unclaimed_sublist mono).subperm
  have count := (same.flatMap_right env.referencesOf).length_eq
  have least := (part.flatMap env.referencesOf).length_le
  rw [List.flatMap_cons, List.length_append] at count
  unfold awaited
  omega

/-- A visit that yields an artifact is the first to claim the class file. -/
theorem claims_of_visit_some {name : String} {state after : BuildState} {artifact : Artifact}
    (fresh : state.isClaimed name = false) (visited : env.visit name state = (after, .ok (some artifact))) :
    ∃ physical runtimeName, env.artifact physical runtimeName = .ok artifact ∧ state.isClaimed physical = false ∧
      after.isClaimed physical = true := by
  obtain ⟨_, free, made, rfl⟩ := visit_eq_some fresh visited
  exact ⟨_, _, made, free, by simp⟩

end Environment

namespace Loop

variable {σ : Type} {env : Environment} {store : Store σ}

/-- The names on the list and the references that are still awaited. -/
def potential (env : Environment) (loop : Loop σ) : Nat := loop.queue.length + (env.awaited loop.run.state).length

/-- A turn without its record. -/
theorem turned_of_turn {loop : Loop σ} {result : Turn σ} (taken : loop.turn env store = result) :
    Turned Unit env store loop () result :=
  turned_of_turnIn (Prod.ext rfl taken)

/-- A turn with which the loop goes on takes a name from the list and puts on it no more than the references of a class file
that was not claimed before: the potential falls. -/
theorem potential_turn {loop next : Loop σ} (went : loop.turn env store = .goOn next) :
    next.potential env < loop.potential env := by
  cases turned_of_turn went with
  | claimed => simp [potential]
  | passed fresh visited =>
    have fewer := env.length_awaited_le fun _ => Environment.visit_mono visited
    simp only [potential, List.length_cons]
    exact Nat.add_lt_add_of_lt_of_le (Nat.lt_succ_self _) fewer
  | @stored name rest done run state artifact storage fresh visited =>
    obtain ⟨physical, runtimeName, made, before, now⟩ := Environment.claims_of_visit_some fresh visited
    have fewer := env.length_awaited_add_le (fun _ => Environment.visit_mono visited)
      (Environment.mem_classNames_of_artifact made) before now
    have found := List.length_filter_le (fun reference => !state.isClaimed reference) artifact.unit.references
    rw [Environment.referencesOf_artifact made] at fewer
    have same : env.awaited (state.emit artifact) = env.awaited state := rfl
    simp only [potential, List.length_cons, List.length_append, same]
    omega

/-- After more turns than the potential counts the loop has ended, as a run does. -/
theorem turns_of_enough {n : Nat} {loop : Loop σ} (enough : loop.potential env < n) :
    ∃ after outcome, loop.turns env store n = .ended after outcome ∧
      Run.work env store loop.queue loop.done loop.run = (after, outcome) := by
  induction n generalizing loop with
  | zero => omega
  | succ n ih =>
    rw [turns]
    cases taken : loop.turn env store with
    | ended after outcome => exact ⟨after, outcome, rfl, Run.work_of_ended (turned_of_turn taken)⟩
    | goOn next =>
      have falls := potential_turn taken
      obtain ⟨after, outcome, ended, worked⟩ := ih (by omega : next.potential env < n)
      exact ⟨after, outcome, ended, (Run.work_of_goOn (turned_of_turn taken)).trans worked⟩

end Loop

/-! ## Class files that are translated -/

/-- The class files in an index, by their paths. -/
def ClassIndex.classPaths (index : ClassIndex) : List String :=
  index.entries.keys.filter fun path => classEnding.isSuffixOf path.toList

/-- A class file that is found is one of the index. -/
theorem ClassIndex.classFilePath_mem {index : ClassIndex} {physical : String} {entry : IndexEntry}
    (found : index.resolve (classFilePath physical) = some entry) : classFilePath physical ∈ index.classPaths := by
  have known : classFilePath physical ∈ index.entries := by
    rw [Std.TreeMap.mem_iff_isSome_getElem?]
    exact Option.isSome_of_eq_some found
  have ending : classEnding.isSuffixOf (classFilePath physical).toList = true := by
    rw [List.isSuffixOf_iff_suffix, classFilePath, String.toList_append, String.toList_ofList]
    exact List.suffix_append _ _
  exact List.mem_filter.mpr ⟨Std.TreeMap.mem_keys.mpr known, ending⟩

/-- In a record without repetitions a stage occurs at most once for each class file. -/
theorem Handling.count_stage_le {log : List Handling} {paths : List String} (distinct : log.Nodup)
    (known : ∀ handling ∈ log, handling.entry ∈ paths) (stage : Stage) :
    (log.filter fun handling => handling.stage = stage).length ≤ paths.length := by
  have entries : ((log.filter fun handling => handling.stage = stage).map Handling.entry).Nodup := by
    refine List.Nodup.map_on ?_ (distinct.filter _)
    rintro ⟨one, first⟩ mem ⟨other, second⟩ mem' rfl
    simp only [List.mem_filter, decide_eq_true_eq] at mem mem'
    rw [mem.2, mem'.2]
  have among : (log.filter fun handling => handling.stage = stage).map Handling.entry ⊆ paths := by
    intro entry mem
    obtain ⟨handling, part, rfl⟩ := List.mem_map.mp mem
    exact known handling (List.mem_filter.mp part).1
  have least := (List.subperm_of_subset entries among).length_le
  rwa [List.length_map] at least

namespace Environment

variable {env : Environment}

/-- Only class files of the index are handled. -/
theorem entry_mem_artifactRecorded {physical runtimeName : String} {handling : Handling}
    (mem : handling ∈ (env.artifactRecorded physical runtimeName).log) : handling.entry ∈ env.index.classPaths := by
  obtain ⟨stage, _, rfl⟩ := List.mem_map.mp ((env.log_artifactRecorded physical runtimeName).subset mem)
  cases found : env.index.resolve (ClassIndex.classFilePath physical) with
  | none =>
    rw [artifactRecorded, artifactIn, found] at mem
    cases mem
  | some entry => exact ClassIndex.classFilePath_mem found

/-- Every class file that a visit handles is in the index. -/
theorem entry_mem_visitRecorded {name : String} {state after : BuildState} {work : Recording (List Handling) Error (Option Artifact)}
    (visited : env.visitRecorded name state = (after, work)) {handling : Handling} (mem : handling ∈ work.log) :
    handling.entry ∈ env.index.classPaths := by
  rcases visitRecorded_cases visited with rfl | ⟨physical, runtimeName, _, _, rfl⟩
  · cases mem
  · rw [Recording.log_map] at mem
    exact entry_mem_artifactRecorded mem

end Environment

namespace Loop

variable {σ : Type} {env : Environment} {store : Store σ} {loop : Loop σ} {log : List Handling} {handling : Handling}

/-- Every class file that a turn handles is in the index. -/
theorem Turned.entry_mem {result : Turn σ} (turned : Turned (List Handling) env store loop log result)
    (mem : handling ∈ log) : handling.entry ∈ env.index.classPaths := by
  cases turned with
  | finished | claimed => cases mem
  | failed fresh visited => exact Environment.entry_mem_visitRecorded (Environment.visitIn_of_visit visited) mem
  | passed fresh visited => exact Environment.entry_mem_visitRecorded (Environment.visitIn_of_visit visited) mem
  | refused fresh visited => exact Environment.entry_mem_visitRecorded (Environment.visitIn_of_visit visited) mem
  | stored fresh visited => exact Environment.entry_mem_visitRecorded (Environment.visitIn_of_visit visited) mem

/-- Every class file that is handled is in the index. -/
theorem entry_mem_recorded (mem : handling ∈ (loop.recorded env store).2.log) :
    handling.entry ∈ env.index.classPaths := by
  induction loop using induct (List Handling) env store with
  | ended turned =>
    rw [recorded_of_ended turned] at mem
    exact turned.entry_mem mem
  | goOn turned ih =>
    rw [recorded_of_goOn turned] at mem
    exact (List.mem_append.mp mem).elim turned.entry_mem ih

end Loop

namespace Run

variable {σ : Type}

/-- The loop of a compilation ends, whatever the class path, the built-in classes, the seeds and the class files are: after a
number of turns that is known beforehand from the seeds and from the references of the class files of the index it has ended,
with success or with a failure, as the compilation does. Until then it has translated no more class files than there are in
the index. -/
theorem compile_terminates (env : Environment) (store : Store σ) (seeds : List String) (run : Run σ) :
    (∃ after outcome,
      Loop.turns env store (seeds.length + env.allReferences.length + 1) ⟨seeds, 0, run.started env⟩ =
          .ended after outcome ∧
        work env store seeds 0 (run.started env) = (after, outcome) ∧ (run.compile env store seeds).2 = outcome) ∧
      ((run.compileRecorded env store seeds).1, (run.compileRecorded env store seeds).2.outcome) =
        run.compile env store seeds ∧
      ((run.compileRecorded env store seeds).2.log.filter fun handling => handling.stage = .translate).length ≤
        env.index.classPaths.length := by
  refine ⟨?_, erase_compileRecorded seeds run, ?_⟩
  · have start : Loop.potential env ⟨seeds, 0, run.started env⟩ < seeds.length + env.allReferences.length + 1 := by
      have awaited := env.length_awaited_le_all (run.started env).state
      unfold Loop.potential
      exact Nat.lt_succ_of_le (Nat.add_le_add_left awaited _)
    obtain ⟨after, outcome, ended, worked⟩ := Loop.turns_of_enough start
    refine ⟨after, outcome, ended, worked, ?_⟩
    rw [snd_compile, worked]
  · refine Handling.count_stage_le (run.nodup_compileRecorded env store seeds) ?_ .translate
    rw [log_compileRecorded]
    exact fun handling => Loop.entry_mem_recorded

end Run

end JvmUnits
