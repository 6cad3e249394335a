import JvmUnits.Compiler.WorkList
import Mathlib.Logic.Relation

/-!
# Steps of the work list

A run takes one name after the other from its list. `Environment.Step` says all that taking a name can do to the list and to
the state when it succeeds. A run that succeeds is a chain of such steps to the empty list, after which its artifacts have been
stored in order (`Run.steps_of_work`, `Run.stored_of_work`); and conversely, a chain of steps whose artifacts can be stored is
what a run does (`Run.work_of_steps`).
-/

namespace JvmUnits

/-! ## What the state keeps of an update -/

namespace BuildState

variable (state : BuildState) (name : String) (artifact : Artifact)

@[simp] theorem artifacts_claim : (state.claim name).artifacts = state.artifacts := rfl

@[simp] theorem artifacts_useBuiltin : (state.useBuiltin name).artifacts = state.artifacts := rfl

@[simp] theorem artifacts_emit : (state.emit artifact).artifacts = state.artifacts ++ [artifact] := rfl

@[simp] theorem builtinsUsed_claim : (state.claim name).builtinsUsed = state.builtinsUsed := rfl

@[simp] theorem builtinsUsed_emit : (state.emit artifact).builtinsUsed = state.builtinsUsed := rfl

/-- A name is claimed once it has been claimed; all other claims stay. -/
@[simp] theorem isClaimed_claim_eq_true (other : String) :
    (state.claim name).isClaimed other = true ↔ other = name ∨ state.isClaimed other = true := by
  rw [isClaimed_claim, Bool.or_eq_true, beq_iff_eq, eq_comm]

/-- A class is in use once it has been noted; all others stay. -/
@[simp] theorem mem_builtinsUsed_useBuiltin (other : String) :
    other ∈ (state.useBuiltin name).builtinsUsed ↔ other = name ∨ other ∈ state.builtinsUsed := by
  rw [useBuiltin, Std.TreeSet.mem_insert, Std.LawfulEqCmp.compare_eq_iff_eq, eq_comm]

end BuildState

/-! ## Steps -/

namespace Environment

variable {env : Environment}

/-- A visit to a name that has not been claimed: a built-in class is noted, a class whose physical name is claimed is left
alone, and any other class is compiled. -/
theorem visit_of_fresh {name : String} {state : BuildState} (fresh : state.isClaimed name = false) :
    env.visit name state =
      if env.isBuiltin name then ((state.claim name).useBuiltin (env.naming.strip name), .ok none)
      else if state.isClaimed (env.naming.physical name) then (state.claim name, .ok none)
      else ((state.claim name).claim (env.naming.physical name),
        (env.artifact (env.naming.physical name) (env.naming.strip name)).map some) := by
  rw [visit_eq, if_neg (by simp [fresh]), isBuiltin]
  split
  · rfl
  · by_cases same : env.naming.physical name = name
    · rw [if_neg (by simp [same]), if_neg (by simp [same, fresh])]
    · have other : (name == env.naming.physical name) = false := by simpa using Ne.symm same
      simp only [BuildState.isClaimed_claim, other, Bool.false_or, ne_eq, same, not_false_eq_true, true_and]

/-- A visit that yields an artifact: the class is not built in, its physical name was not claimed, the artifact is made for the
two names of the class, and both the name and the physical name are claimed afterwards. -/
theorem visit_eq_some {name : String} {state after : BuildState} {artifact : Artifact}
    (fresh : state.isClaimed name = false) (visited : env.visit name state = (after, .ok (some artifact))) :
    env.isBuiltin name = false ∧ state.isClaimed (env.naming.physical name) = false ∧
      env.artifact (env.naming.physical name) (env.naming.strip name) = .ok artifact ∧
      after = (state.claim name).claim (env.naming.physical name) := by
  rw [visit_of_fresh fresh] at visited
  split at visited
  · cases visited
  · rename_i own
    split at visited
    · cases visited
    · rename_i free
      cases made : env.artifact (env.naming.physical name) (env.naming.strip name) with
      | error e => simp [made, Except.map] at visited
      | ok found =>
        simp only [made, Except.map] at visited
        cases visited
        exact ⟨by simpa using own, by simpa using free, rfl, rfl⟩

/-- What taking the first name from the list does to the list and to the state, when it succeeds. -/
inductive Step (env : Environment) : List String × BuildState → List String × BuildState → Prop where
  | skip {name : String} {rest : List String} {state : BuildState} (claimed : state.isClaimed name = true) :
      Step env (name :: rest, state) (rest, state)
  | builtin {name : String} {rest : List String} {state : BuildState} (fresh : state.isClaimed name = false)
      (known : env.isBuiltin name = true) :
      Step env (name :: rest, state) (rest, (state.claim name).useBuiltin (env.naming.strip name))
  | shared {name : String} {rest : List String} {state : BuildState} (fresh : state.isClaimed name = false)
      (own : env.isBuiltin name = false) (taken : state.isClaimed (env.naming.physical name) = true) :
      Step env (name :: rest, state) (rest, state.claim name)
  | compile {name : String} {rest : List String} {state : BuildState} {artifact : Artifact}
      (fresh : state.isClaimed name = false) (own : env.isBuiltin name = false)
      (free : state.isClaimed (env.naming.physical name) = false)
      (made : env.artifact (env.naming.physical name) (env.naming.strip name) = .ok artifact) :
      Step env (name :: rest, state)
        (rest ++ artifact.unit.references.filter
            (fun reference => !((state.claim name).claim (env.naming.physical name)).isClaimed reference),
          ((state.claim name).claim (env.naming.physical name)).emit artifact)

/-- A visit that yields no artifact is a step that adds nothing to the list. -/
theorem Step.of_visit_none {name : String} {rest : List String} {state after : BuildState}
    (fresh : state.isClaimed name = false) (visited : env.visit name state = (after, .ok none)) :
    env.Step (name :: rest, state) (rest, after) := by
  rw [visit_of_fresh fresh] at visited
  split at visited
  · rename_i known
    cases visited
    exact .builtin fresh known
  · rename_i own
    split at visited
    · rename_i taken
      cases visited
      exact .shared fresh (by simpa using own) taken
    · cases made : env.artifact (env.naming.physical name) (env.naming.strip name) <;>
        simp [made, Except.map] at visited

/-- A visit that yields an artifact is a step that adds the references of its unit. -/
theorem Step.of_visit_some {name : String} {rest : List String} {state after : BuildState} {artifact : Artifact}
    (fresh : state.isClaimed name = false) (visited : env.visit name state = (after, .ok (some artifact))) :
    env.Step (name :: rest, state)
      (rest ++ artifact.unit.references.filter (fun reference => !after.isClaimed reference), after.emit artifact) := by
  obtain ⟨own, free, made, rfl⟩ := visit_eq_some fresh visited
  exact .compile fresh own free made

/-! ## Artifacts of a chain of steps -/

/-- A visit emits nothing itself. -/
theorem artifacts_visit {name : String} {state after : BuildState}
    {result : Except Error (Option Artifact)} (visited : env.visit name state = (after, result)) :
    after.artifacts = state.artifacts := by
  rw [visit_eq] at visited
  split at visited
  · cases visited
    rfl
  · split at visited
    · cases visited
      rfl
    · split at visited <;> (cases visited; rfl)

/-- A visit takes back no claim. -/
theorem visit_mono {name other : String} {state after : BuildState} {result : Except Error (Option Artifact)}
    (visited : env.visit name state = (after, result)) (claimed : state.isClaimed other = true) :
    after.isClaimed other = true := by
  have kept := visit_claimed_mono env name state claimed
  rwa [visited] at kept

/-- A step adds artifacts and takes none away. -/
theorem Step.artifacts {before after : List String × BuildState} (taken : env.Step before after) :
    ∃ more, after.2.artifacts = before.2.artifacts ++ more := by
  cases taken with
  | skip | builtin | shared => exact ⟨[], (List.append_nil _).symm⟩
  | compile => exact ⟨_, rfl⟩

/-- A chain of steps adds artifacts behind those that are there. -/
theorem artifacts_of_steps {before after : List String × BuildState}
    (taken : Relation.ReflTransGen env.Step before after) : ∃ more, after.2.artifacts = before.2.artifacts ++ more := by
  induction taken with
  | refl => exact ⟨[], (List.append_nil _).symm⟩
  | tail _ last ih =>
    obtain ⟨more, earlier⟩ := ih
    obtain ⟨added, later⟩ := last.artifacts
    exact ⟨more ++ added, by rw [later, earlier, List.append_assoc]⟩

end Environment

/-- Stores artifacts one after the other, up to the first that cannot be stored. -/
def Store.all {σ : Type} (store : Store σ) : List Artifact → σ → σ × Except Error Unit
  | [], storage => (storage, .ok ())
  | artifact :: rest, storage =>
    match store artifact storage with
    | (after, .error cause) => (after, .error cause)
    | (after, .ok ()) => store.all rest after

/-! ## Runs turn by turn -/

namespace Loop

variable {σ ω : Type} [Record ω] {env : Environment} {store : Store σ} {loop next : Loop σ} {record log : ω}
  {result : Turn σ} {after : Run σ} {outcome : Except Failure Unit}

/-- The work ends when a turn ends it, with what the turn has recorded behind the record. -/
theorem workIn_of_ended (turned : Turned ω env store loop log (.ended after outcome)) :
    loop.workIn ω env store record = (after, ⟨Record.join record log, outcome⟩) := by
  rw [workIn]
  split <;> rename_i taken <;> rw [turnIn_of_turned turned] at taken <;> cases taken
  rfl

/-- The work goes on when a turn does, with what the turn has recorded behind the record. -/
theorem workIn_of_goOn (turned : Turned ω env store loop log (.goOn next)) :
    loop.workIn ω env store record = next.workIn ω env store (Record.join record log) := by
  rw [workIn]
  split <;> rename_i taken <;> rw [turnIn_of_turned turned] at taken <;> cases taken
  rfl

/-- What holds where the loop ends with the next turn, and holds before a turn if it holds after it, holds of every loop: the
loop ends. -/
theorem induct (ω : Type) [Record ω] (env : Environment) (store : Store σ) {motive : Loop σ → Prop}
    (ended : ∀ {loop log after outcome}, Turned ω env store loop log (.ended after outcome) → motive loop)
    (goOn : ∀ {loop log next}, Turned ω env store loop log (.goOn next) → motive next → motive loop) (loop : Loop σ) :
    motive loop := by
  have all (record : ω) : motive loop := by
    fun_induction workIn ω env store record loop with
    | case1 record loop log after outcome taken => exact ended (turned_of_turnIn taken)
    | case2 record loop log next taken ih => exact goOn (turned_of_turnIn taken) ih
  exact all Record.nothing

/-- A turn does the same whatever is kept of the stages. -/
theorem Turned.plain (turned : Turned ω env store loop log result) : Turned Unit env store loop () result := by
  cases turned with
  | finished => exact .finished
  | claimed taken => exact .claimed taken
  | failed fresh visited => exact .failed fresh visited
  | passed fresh visited => exact .passed fresh visited
  | refused fresh visited kept => exact .refused fresh visited kept
  | stored fresh visited kept => exact .stored fresh visited kept

/-- A run does the same whatever is kept of the stages. -/
theorem plain_workIn (env : Environment) (store : Store σ) (record : ω) (loop : Loop σ) :
    Recording.plain (loop.workIn ω env store record) = Run.work env store loop.queue loop.done loop.run := by
  induction loop using induct ω env store generalizing record with
  | ended turned =>
    rw [Run.work, workIn_of_ended turned, workIn_of_ended turned.plain]
    rfl
  | goOn turned ih =>
    rw [Run.work, workIn_of_goOn turned, workIn_of_goOn turned.plain, ih]
    rfl

end Loop

namespace Run

variable {σ : Type} {env : Environment} {store : Store σ} {queue : List String} {done : Nat} {run after : Run σ} {log : Unit}

/-- The work of a run ends when a turn ends it. -/
theorem work_of_ended {outcome : Except Failure Unit}
    (turned : Loop.Turned Unit env store ⟨queue, done, run⟩ log (.ended after outcome)) :
    work env store queue done run = (after, outcome) := by
  rw [work, Loop.workIn_of_ended turned]
  rfl

/-- The work of a run goes on when a turn does. -/
theorem work_of_goOn {next : Loop σ} (turned : Loop.Turned Unit env store ⟨queue, done, run⟩ log (.goOn next)) :
    work env store queue done run = work env store next.queue next.done next.run := by
  rw [work, work, Loop.workIn_of_goOn turned]

/-- Induction on the turns of a run, with all that a turn can do written out. -/
theorem work_induct (env : Environment) (store : Store σ) {motive : List String → Nat → Run σ → Prop}
    (finished : ∀ {done run}, motive [] done run)
    (claimed : ∀ {name rest done run}, run.state.isClaimed name = true → motive rest done run →
      motive (name :: rest) done run)
    (failed : ∀ {name rest done run state cause}, run.state.isClaimed name = false →
      env.visit name run.state = (state, .error cause) → motive (name :: rest) done run)
    (passed : ∀ {name rest done run state}, run.state.isClaimed name = false →
      env.visit name run.state = (state, .ok none) →
      motive rest (done + 1) { run.announce done (done + rest.length + 1) name with state } →
      motive (name :: rest) done run)
    (refused : ∀ {name rest done run state artifact storage cause}, run.state.isClaimed name = false →
      env.visit name run.state = (state, .ok (some artifact)) →
      store artifact run.storage = (storage, .error cause) → motive (name :: rest) done run)
    (stored : ∀ {name rest done run state artifact storage}, run.state.isClaimed name = false →
      env.visit name run.state = (state, .ok (some artifact)) → store artifact run.storage = (storage, .ok ()) →
      motive (rest ++ artifact.unit.references.filter fun reference => !state.isClaimed reference) (done + 1)
        { run.announce done (done + rest.length + 1) name with state := state.emit artifact, storage } →
      motive (name :: rest) done run)
    (queue : List String) (done : Nat) (run : Run σ) : motive queue done run := by
  have all (loop : Loop σ) : motive loop.queue loop.done loop.run := by
    induction loop using Loop.induct Unit env store with
    | ended turned =>
      cases turned with
      | finished => exact finished
      | failed fresh visited => exact failed fresh visited
      | refused fresh visited kept => exact refused fresh visited kept
    | goOn turned ih =>
      cases turned with
      | claimed already => exact claimed already ih
      | passed fresh visited => exact passed fresh visited ih
      | stored fresh visited kept => exact stored fresh visited kept ih
  exact all ⟨queue, done, run⟩

/-! ## Runs are chains of steps -/

/-- A run that succeeds is a chain of steps from its list to the empty one. -/
theorem steps_of_work (h : work env store queue done run = (after, .ok ())) :
    Relation.ReflTransGen env.Step (queue, run.state) ([], after.state) := by
  induction queue, done, run using work_induct env store with
  | finished =>
    rw [work_of_ended .finished] at h
    cases h
    exact .refl
  | claimed already ih =>
    rw [work_of_goOn (.claimed already)] at h
    exact .head (.skip already) (ih h)
  | failed fresh visited =>
    rw [work_of_ended (.failed fresh visited)] at h
    cases h
  | passed fresh visited ih =>
    rw [work_of_goOn (.passed fresh visited)] at h
    exact .head (.of_visit_none fresh visited) (ih h)
  | refused fresh visited kept =>
    rw [work_of_ended (.refused fresh visited kept)] at h
    cases h
  | stored fresh visited kept ih =>
    rw [work_of_goOn (.stored fresh visited kept)] at h
    exact .head (.of_visit_some fresh visited) (ih h)

/-- A run that succeeds has stored, in order, the artifacts that it added to its state. -/
theorem stored_of_work (h : work env store queue done run = (after, .ok ())) :
    ∃ added, after.state.artifacts = run.state.artifacts ++ added ∧ store.all added run.storage = (after.storage, .ok ()) := by
  induction queue, done, run using work_induct env store with
  | finished =>
    rw [work_of_ended .finished] at h
    cases h
    exact ⟨[], (List.append_nil _).symm, rfl⟩
  | claimed already ih =>
    rw [work_of_goOn (.claimed already)] at h
    exact ih h
  | failed fresh visited =>
    rw [work_of_ended (.failed fresh visited)] at h
    cases h
  | passed fresh visited ih =>
    rw [work_of_goOn (.passed fresh visited)] at h
    obtain ⟨added, artifacts, stored⟩ := ih h
    exact ⟨added, by rw [artifacts, Environment.artifacts_visit visited], stored⟩
  | refused fresh visited kept =>
    rw [work_of_ended (.refused fresh visited kept)] at h
    cases h
  | @stored name rest done run state artifact storage fresh visited kept ih =>
    rw [work_of_goOn (.stored fresh visited kept)] at h
    obtain ⟨added, artifacts, more⟩ := ih h
    refine ⟨artifact :: added, ?_, ?_⟩
    · rw [artifacts, BuildState.artifacts_emit, Environment.artifacts_visit visited, List.append_assoc]
      rfl
    · rw [Store.all, kept]
      exact more

/-- A chain of steps to the empty list is what a run does, if the artifacts of the chain can be stored. -/
theorem work_of_steps {before : List String × BuildState} {state : BuildState} {added : List Artifact} {storage : σ}
    (steps : Relation.ReflTransGen env.Step before ([], state)) {run : Run σ} {done : Nat} (start : before.2 = run.state)
    (artifacts : state.artifacts = run.state.artifacts ++ added)
    (stored : store.all added run.storage = (storage, .ok ())) :
    ∃ after, work env store before.1 done run = (after, .ok ()) ∧ after.state = state ∧ after.storage = storage := by
  induction steps using Relation.ReflTransGen.head_induction_on generalizing run done added with
  | refl =>
    have nothing : added = [] := by simpa [← start] using artifacts
    subst nothing
    rw [Store.all] at stored
    exact ⟨run, work_of_ended .finished, start.symm, (Prod.mk.inj stored).1⟩
  | head taken chain ih =>
    cases taken with
    | skip claimed =>
      rw [work_of_goOn (.claimed (by rw [← start]; exact claimed))]
      exact ih start artifacts stored
    | builtin fresh known =>
      simp only at start
      subst start
      rw [work_of_goOn (.passed fresh (by rw [Environment.visit_of_fresh fresh, if_pos known]))]
      exact ih rfl artifacts stored
    | shared fresh own taken =>
      simp only at start
      subst start
      rw [work_of_goOn (.passed fresh (by rw [Environment.visit_of_fresh fresh, if_neg (by simp [own]), if_pos taken]))]
      exact ih rfl artifacts stored
    | @compile name rest state artifact fresh own free made =>
      simp only at start
      subst start
      -- The artifact of this step is the first that is added.
      obtain ⟨more, later⟩ := Environment.artifacts_of_steps chain
      rw [later, BuildState.artifacts_emit, List.append_assoc] at artifacts
      obtain rfl := List.append_cancel_left artifacts
      rw [List.singleton_append, Store.all] at stored
      split at stored
      · cases stored
      · rename_i storage first
        rw [work_of_goOn (.stored fresh
          (by rw [Environment.visit_of_fresh fresh, if_neg (by simp [own]), if_neg (by simp [free]), made]; rfl) first)]
        exact ih rfl (by rw [later]) stored

/-! ## Compilations -/

section

variable {ω : Type} [Record ω] {seeds : List String} {failure : Failure}

/-- A compilation fails with its work, recorded or not. -/
theorem plain_compileIn_of_failed (worked : work env store seeds 0 (run.started env) = (after, .error failure)) :
    Recording.plain (run.compileIn ω env store seeds) = (after, .error failure) := by
  rw [← Loop.plain_workIn env store (Record.nothing : ω) ⟨seeds, 0, run.started env⟩] at worked
  rw [compileIn]
  rcases reached : Loop.workIn ω env store Record.nothing ⟨seeds, 0, run.started env⟩ with ⟨last, log, outcome⟩
  rw [reached] at worked
  cases worked
  rfl

/-- A compilation concludes when its work is done, recorded or not. -/
theorem plain_compileIn_of_done (worked : work env store seeds 0 (run.started env) = (after, .ok ())) :
    Recording.plain (run.compileIn ω env store seeds) = (after.concluded, .ok ()) := by
  rw [← Loop.plain_workIn env store (Record.nothing : ω) ⟨seeds, 0, run.started env⟩] at worked
  rw [compileIn]
  rcases reached : Loop.workIn ω env store Record.nothing ⟨seeds, 0, run.started env⟩ with ⟨last, log, outcome⟩
  rw [reached] at worked
  cases worked
  rfl

end

/-- A compilation fails as its run does. -/
theorem compile_of_failed {seeds : List String} {failure : Failure}
    (worked : work env store seeds 0 (run.started env) = (after, .error failure)) :
    run.compile env store seeds = (after, .error failure) :=
  plain_compileIn_of_failed worked

/-- A compilation succeeds where its run does, and then notes the built-in classes that are always needed. -/
theorem compile_of_done {seeds : List String} (worked : work env store seeds 0 (run.started env) = (after, .ok ())) :
    run.compile env store seeds = (after.concluded, .ok ()) :=
  plain_compileIn_of_done worked

/-- A compilation does the same whatever is kept of the stages. -/
theorem plain_compileIn (ω : Type) [Record ω] (env : Environment) (store : Store σ) (seeds : List String) (run : Run σ) :
    Recording.plain (run.compileIn ω env store seeds) = run.compile env store seeds := by
  rcases worked : work env store seeds 0 (run.started env) with ⟨after, failure | _⟩
  · rw [plain_compileIn_of_failed worked, compile_of_failed worked]
  · rw [plain_compileIn_of_done worked, compile_of_done worked]

/-- A compilation records what its run does. -/
theorem log_compileIn (ω : Type) [Record ω] (env : Environment) (store : Store σ) (seeds : List String) (run : Run σ) :
    (run.compileIn ω env store seeds).2.log =
      (Loop.workIn ω env store Record.nothing ⟨seeds, 0, run.started env⟩).2.log := by
  unfold compileIn
  rcases Loop.workIn ω env store Record.nothing ⟨seeds, 0, run.started env⟩ with ⟨reached, log, failure | _⟩ <;> rfl

end Run

end JvmUnits
