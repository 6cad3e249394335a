import JvmUnits.Proofs.ClassErrors
import JvmUnits.Proofs.OutputFiles

/-!
# When a compilation fails

A run that fails is a chain of steps up to a name that can not be taken: its class does not compile, or its artifact can not be
stored (`Run.steps_of_failed_work`). So where artifacts can be stored, a compilation fails exactly when it can reach a class
that does not compile, and its failure names such a class (`Run.compile_succeeds_iff`).
-/

namespace JvmUnits

/-! ## Classes that compile -/

namespace Environment

variable {env : Environment} {seeds : List String}

/-- The class of a name compiles: its class file is in the index and can be read, its bytes parse, and what they say can be
translated. -/
def Compiles (env : Environment) (name : String) : Prop :=
  ∃ entry data file unit, env.index.resolve (ClassIndex.classFilePath (env.naming.physical name)) = some entry ∧
    env.contents entry.path = .ok data ∧ ClassFile.parse data = .ok file ∧ file.translate env.naming = .ok unit

theorem readFile_eq_ok {path : String} {data : Bytes} : env.readFile path = .ok data ↔ env.contents path = .ok data := by
  unfold readFile
  cases env.contents path <;> simp

/-- A class compiles when the lookup of its unit succeeds. -/
theorem compiles_iff {name : String} :
    env.Compiles name ↔ ∃ unit, env.classUnit (env.naming.physical name) = .ok unit := by
  unfold Compiles classUnit classFile
  cases env.index.resolve (ClassIndex.classFilePath (env.naming.physical name)) with
  | none => simp [bind, Except.bind]
  | some entry =>
    simp only [Option.some.injEq, exists_and_left, exists_eq_left', bind_eq_ok, readFile_eq_ok]
    constructor
    · rintro ⟨data, read, file, parsed, unit, translated⟩
      exact ⟨unit, file, ⟨data, read, parsed⟩, translated⟩
    · rintro ⟨unit, file, ⟨data, read, parsed⟩, translated⟩
      exact ⟨data, read, file, parsed, unit, translated⟩

/-- A class that compiles has an artifact. -/
theorem exists_artifact {name : String} (compiles : env.Compiles name) (runtimeName : String) :
    ∃ artifact, env.artifact (env.naming.physical name) runtimeName = .ok artifact := by
  obtain ⟨entry, data, file, unit, found, read, parsed, translated⟩ := compiles
  rw [artifact_of_entry found, artifactAt, outcome_artifactAtIn]
  exact ⟨_, bind_eq_ok.mpr
    ⟨data, readFile_eq_ok.mpr read, bind_eq_ok.mpr ⟨file, parsed, bind_eq_ok.mpr ⟨unit, translated, rfl⟩⟩⟩⟩

/-- A class is reported missing exactly when its class file is not in the index, and under its physical name. -/
theorem artifact_eq_missing {physical runtimeName : String} {cause : Error}
    (failed : env.artifact physical runtimeName = .error cause) (missing : String) :
    cause = .classNotFound missing ↔
      env.index.resolve (ClassIndex.classFilePath physical) = none ∧ missing = physical := by
  cases found : env.index.resolve (ClassIndex.classFilePath physical) with
  | none =>
    rw [artifact_of_missing found] at failed
    cases failed
    simp [eq_comm]
  | some entry =>
    rw [artifact_of_entry found, artifactAt, outcome_artifactAtIn, readFile] at failed
    constructor
    · rintro rfl
      cases read : env.contents entry.path with
      | error refusal =>
        rw [read] at failed
        cases failed
      | ok data =>
        rw [read] at failed
        have inside : (Error.classNotFound missing).isInside = true :=
          Reports.bind (ClassFile.inside_parse data)
            (fun file => .bind (ClassFile.inside_translate env.naming file) fun _ => .ok _) _ failed
        cases inside
    · rintro ⟨⟨⟩, _⟩

end Environment

/-- Names that are closed under the references of units are all that can be reached from seeds among them. -/
theorem Environment.Reachable.mem_of_closed {env : Environment} {seeds names : List String} {name : String}
    (reached : env.Reachable seeds name) (among : seeds ⊆ names)
    (closed : ∀ other ∈ names, env.isBuiltin other = true ∨
      ∀ unit ∈ (env.classUnit (env.naming.physical other)).toOption, unit.references ⊆ names) : name ∈ names := by
  induction reached with
  | seed mem => exact among mem
  | @reference other reference unit _ own made mem known =>
    rcases closed other known with builtin | inside
    · rw [own] at builtin
      cases builtin
    · exact inside unit (by rw [made]; rfl) mem

/-! ## Runs that fail -/

theorem Store.all_append {σ : Type} (store : Store σ) {first : List Artifact} {storage after : σ}
    (stored : store.all first storage = (after, .ok ())) (second : List Artifact) :
    store.all (first ++ second) storage = store.all second after := by
  induction first generalizing storage with
  | nil =>
    cases stored
    rfl
  | cons artifact rest ih =>
    rw [Store.all] at stored
    rw [List.cons_append, Store.all]
    cases kept : store artifact storage with
    | mk middle result =>
      rw [kept] at stored
      cases result with
      | error cause => cases stored
      | ok => exact ih stored

namespace Environment

variable {env : Environment} {seeds : List String}

/-- Why the first name on the list can not be taken: the class does not compile, or the artifact of the step is not stored. -/
inductive Refuses {σ : Type} (env : Environment) (store : Store σ) (name : String) (cause : Error) :
    List String × BuildState → σ → Prop where
  | compile {rest : List String} {state : BuildState} {storage : σ} (own : env.isBuiltin name = false)
      (failed : env.artifact (env.naming.physical name) (env.naming.strip name) = .error cause) :
      Refuses env store name cause (name :: rest, state) storage
  | store {rest : List String} {state : BuildState} {storage : σ} {artifact : Artifact} {next : List String × BuildState}
      (taken : env.Step (name :: rest, state) next) (made : next.2.artifacts = state.artifacts ++ [artifact])
      (refused : (store artifact storage).2 = .error cause) :
      Refuses env store name cause (name :: rest, state) storage

/-- A visit that fails is one to a class that is not built in and does not compile. -/
theorem failed_of_visit_error {name : String} {state after : BuildState} {cause : Error}
    (fresh : state.isClaimed name = false) (visited : env.visit name state = (after, .error cause)) :
    env.isBuiltin name = false ∧ env.artifact (env.naming.physical name) (env.naming.strip name) = .error cause := by
  rw [visit_of_fresh fresh] at visited
  split at visited
  · cases visited
  · rename_i own
    split at visited
    · cases visited
    · cases made : env.artifact (env.naming.physical name) (env.naming.strip name) with
      | error e =>
        simp only [made, Except.map] at visited
        cases visited
        exact ⟨by simpa using own, rfl⟩
      | ok artifact => simp [made, Except.map] at visited

end Environment

/-- A run that fails is a chain of steps, all of whose artifacts have been stored, to a list whose first name is refused. -/
theorem Run.steps_of_failed_work {σ : Type} {env : Environment} {store : Store σ} {queue : List String} {done : Nat}
    {run after : Run σ} {failure : Failure} (h : work env store queue done run = (after, .error failure)) :
    ∃ name cause reached storage added, failure = .compile name cause ∧
      Relation.ReflTransGen env.Step (queue, run.state) reached ∧ env.Refuses store name cause reached storage ∧
      reached.2.artifacts = run.state.artifacts ++ added ∧ store.all added run.storage = (storage, .ok ()) := by
  induction queue, done, run using work_induct env store with
  | finished =>
    rw [work_of_ended .finished] at h
    cases h
  | claimed already ih =>
    rw [work_of_goOn (.claimed already)] at h
    obtain ⟨refused, cause, reached, storage, added, named, steps, others⟩ := ih h
    exact ⟨refused, cause, reached, storage, added, named, .head (.skip already) steps, others⟩
  | @failed name rest done run state cause fresh visited =>
    rw [work_of_ended (.failed fresh visited)] at h
    cases h
    obtain ⟨own, failed⟩ := Environment.failed_of_visit_error fresh visited
    exact ⟨name, cause, _, run.storage, [], rfl, .refl, .compile own failed, (List.append_nil _).symm, rfl⟩
  | passed fresh visited ih =>
    rw [work_of_goOn (.passed fresh visited)] at h
    obtain ⟨refused, cause, reached, storage, added, named, steps, refuses, artifacts, stored⟩ := ih h
    refine ⟨refused, cause, reached, storage, added, named, .head (.of_visit_none fresh visited) steps, refuses, ?_, stored⟩
    rw [artifacts, Environment.artifacts_visit visited]
  | @refused name rest done run state artifact storage cause fresh visited kept =>
    rw [work_of_ended (.refused fresh visited kept)] at h
    cases h
    refine ⟨name, cause, _, run.storage, [], rfl, .refl,
      .store (.of_visit_some fresh visited) ?_ (by rw [kept]), (List.append_nil _).symm, rfl⟩
    rw [BuildState.artifacts_emit, Environment.artifacts_visit visited]
  | @stored name rest done run state artifact storage fresh visited kept ih =>
    rw [work_of_goOn (.stored fresh visited kept)] at h
    obtain ⟨refused, cause, reached, final, added, named, steps, refuses, artifacts, more⟩ := ih h
    refine ⟨refused, cause, reached, final, artifact :: added, named,
      .head (.of_visit_some fresh visited) steps, refuses, ?_, ?_⟩
    · rw [artifacts, BuildState.artifacts_emit, Environment.artifacts_visit visited, List.append_assoc]
      rfl
    · rw [Store.all, kept]
      exact more

/-! ## Compilations that fail -/

namespace Environment

variable {env : Environment} {seeds : List String}

/-- The artifact is that of a class which can be reached from the seeds and is not built in. -/
def Makes (env : Environment) (seeds : List String) (artifact : Artifact) : Prop :=
  ∃ name, env.Reachable seeds name ∧ env.isBuiltin name = false ∧
    env.artifact (env.naming.physical name) (env.naming.strip name) = .ok artifact

/-- No two artifacts are of one class: the physical name of each has been claimed. -/
structure Distinct (state : BuildState) : Prop where
  claimed : ∀ artifact ∈ state.artifacts, state.isClaimed artifact.physical = true
  nodup : (state.artifacts.map Artifact.physical).Nodup

namespace Distinct

/-- A step keeps the classes of the artifacts apart: a class is compiled under a physical name that has not been claimed. -/
theorem step {before after : List String × BuildState} (taken : env.Step before after) (distinct : Distinct before.2) :
    Distinct after.2 := by
  have kept : ∀ {state : BuildState} {name : String}, Distinct state → Distinct (state.claim name) := by
    intro state name distinct
    refine ⟨fun artifact mem => ?_, distinct.nodup⟩
    rw [BuildState.isClaimed_claim_eq_true]
    exact Or.inr (distinct.claimed artifact mem)
  cases taken with
  | skip => exact distinct
  | builtin => exact ⟨(kept distinct).claimed, distinct.nodup⟩
  | shared => exact kept distinct
  | @compile name rest state artifact fresh own free made =>
    obtain ⟨_, physical, _⟩ := artifact_eq_ok made
    have twice : Distinct ((state.claim name).claim (env.naming.physical name)) := kept (kept distinct)
    constructor
    · intro other mem
      rcases List.mem_append.mp mem with mem | mem
      · exact twice.claimed other mem
      · rw [List.mem_singleton] at mem
        simp [mem, physical]
    · rw [BuildState.artifacts_emit, List.map_append, List.nodup_append]
      refine ⟨distinct.nodup, List.nodup_singleton _, ?_⟩
      rintro _ mem _ (_ | ⟨_, ⟨⟩⟩) rfl
      obtain ⟨other, among, same⟩ := List.mem_map.mp mem
      rw [← physical, ← same, distinct.claimed other among] at free
      cases free

theorem steps {before after : List String × BuildState} (taken : Relation.ReflTransGen env.Step before after)
    (distinct : Distinct before.2) : Distinct after.2 := by
  induction taken with
  | refl => exact distinct
  | tail _ last ih => exact ih.step last

end Distinct

/-- At the end of a run every class that can be reached and is not built in compiles. -/
theorem Invariant.compiles {state : BuildState} {name : String} (inv : env.Invariant seeds [] state)
    (foreign : Naming.isPlatform env.naming.home = false) (reached : env.Reachable seeds name)
    (own : env.isBuiltin name = false) : env.Compiles name := by
  obtain ⟨artifact, mem, _, physical⟩ := inv.present name (inv.claimed_of_reachable foreign reached) own
  obtain ⟨other, _, _, made⟩ := inv.compiled artifact mem
  obtain ⟨unit, samePhysical, _⟩ := artifact_eq_ok made
  rw [← samePhysical, physical foreign] at unit
  exact compiles_iff.mpr ⟨artifact.unit, unit⟩

end Environment

namespace Run

variable {σ : Type} {env : Environment} {store : Store σ} {seeds : List String} {run : Run σ}

theorem snd_compile : (run.compile env store seeds).2 = (work env store seeds 0 (run.started env)).2 := by
  rcases worked : work env store seeds 0 (run.started env) with ⟨after, failure | _⟩
  · rw [compile_of_failed worked]
  · rw [compile_of_done worked]

/-- The storage has room for what a compilation makes: any artifacts of different classes that can be reached from the seeds
can be stored, in any order. -/
def HasRoom (env : Environment) (store : Store σ) (seeds : List String) (storage : σ) : Prop :=
  ∀ artifacts, (∀ artifact ∈ artifacts, env.Makes seeds artifact) → (artifacts.map Artifact.physical).Nodup →
    (store.all artifacts storage).2 = .ok ()

/-- Whatever a compilation has made after some of its steps can be stored in the order in which it was made. -/
def Stores (env : Environment) (store : Store σ) (seeds : List String) (run : Run σ) : Prop :=
  ∀ reached, Relation.ReflTransGen env.Step (seeds, (run.started env).state) reached →
    (store.all reached.2.artifacts run.storage).2 = .ok ()

theorem invariant_of_steps (untouched : run.state = {}) {reached : List String × BuildState}
    (steps : Relation.ReflTransGen env.Step (seeds, (run.started env).state) reached) :
    env.Invariant seeds reached.1 reached.2 := by
  refine Environment.Invariant.steps steps (.init ?_ ?_ ?_) <;> rw [started, untouched]
  · exact fun _ => rfl
  · exact fun _ => Std.TreeSet.not_mem_emptyc

/-- Where there is room, what a compilation makes can be stored: it makes no two artifacts of one class. -/
theorem HasRoom.stores (untouched : run.state = {}) (room : HasRoom env store seeds run.storage) :
    Stores env store seeds run := by
  intro reached steps
  have distinct : Environment.Distinct reached.2 := by
    refine .steps steps ⟨?_, ?_⟩ <;> rw [started, untouched]
    · exact fun _ mem => absurd mem List.not_mem_nil
    · exact List.nodup_nil
  exact room reached.2.artifacts (invariant_of_steps untouched steps).compiled distinct.nodup

/-- Where all that it makes can be stored, a compilation that fails has reached a class that does not compile. -/
theorem artifact_of_failed_stores (untouched : run.state = {}) (stores : Stores env store seeds run) {failure : Failure}
    (failed : (run.compile env store seeds).2 = .error failure) :
    ∃ name cause, failure = .compile name cause ∧ env.Reachable seeds name ∧ env.isBuiltin name = false ∧
      env.artifact (env.naming.physical name) (env.naming.strip name) = .error cause := by
  rw [snd_compile] at failed
  obtain ⟨name, cause, reached, storage, added, named, steps, refuses, artifacts, stored⟩ :=
    steps_of_failed_work (Prod.ext rfl failed)
  have inv := invariant_of_steps untouched steps
  cases refuses with
  | compile own failed => exact ⟨name, cause, named, inv.queued name List.mem_cons_self, own, failed⟩
  | @store rest state _ artifact next taken made refused =>
    -- The artifact that is refused would be one more of those that can be stored.
    rw [started, untouched] at artifacts
    have all : next.2.artifacts = added ++ [artifact] := made.trans (congrArg (· ++ [artifact]) artifacts)
    have kept : store.all added run.storage = (storage, .ok ()) := stored
    have ended := stores next (steps.tail taken)
    rw [all, Store.all_append store kept, Store.all] at ended
    cases last : store artifact storage with
    | mk final result =>
      rw [last] at refused ended
      cases refused
      cases ended

/-- A compilation from scratch that can store what it makes, with a home package that is no platform package, succeeds exactly
when every class that can be reached from the seeds and is not built in compiles: its class file is in the index under its
physical name, and its bytes parse and translate. When it fails, the outermost text of the failure names a class that can be
reached, is not built in and does not compile; and the cause is that a class is missing exactly when the class file of this one
is not in the index, under the physical name of this one. -/
theorem compile_succeeds_iff (untouched : run.state = {}) (foreign : Naming.isPlatform env.naming.home = false)
    (stores : Stores env store seeds run) :
    ((run.compile env store seeds).2 = .ok () ↔
        ∀ name, env.Reachable seeds name → env.isBuiltin name = false → env.Compiles name) ∧
      ∀ failure, (run.compile env store seeds).2 = .error failure →
        ∃ name cause, failure.chain = ("failed to compile " ++ name) :: cause.chain ∧ failure.error? = some cause ∧
          env.Reachable seeds name ∧ env.isBuiltin name = false ∧ ¬ env.Compiles name ∧
          ∀ missing, cause = .classNotFound missing ↔
            env.index.resolve (ClassIndex.classFilePath (env.naming.physical name)) = none ∧
              missing = env.naming.physical name := by
  have blamed : ∀ failure, (run.compile env store seeds).2 = .error failure →
      ∃ name cause, failure = .compile name cause ∧ env.Reachable seeds name ∧ env.isBuiltin name = false ∧
        ¬ env.Compiles name ∧ env.artifact (env.naming.physical name) (env.naming.strip name) = .error cause := by
    intro failure failed
    obtain ⟨name, cause, named, reached, own, refused⟩ := artifact_of_failed_stores untouched stores failed
    refine ⟨name, cause, named, reached, own, fun compiles => ?_, refused⟩
    obtain ⟨artifact, made⟩ := Environment.exists_artifact compiles (env.naming.strip name)
    rw [made] at refused
    cases refused
  refine ⟨⟨fun succeeded name reached own => ?_, fun compiles => ?_⟩, fun failure failed => ?_⟩
  · obtain ⟨_, state, inv, _⟩ := compile_eq_ok untouched (Prod.ext rfl succeeded)
    exact inv.compiles foreign reached own
  · cases ended : (run.compile env store seeds).2 with
    | ok => rfl
    | error failure =>
      obtain ⟨name, _, _, reached, own, broken, _⟩ := blamed failure ended
      exact absurd (compiles name reached own) broken
  · obtain ⟨name, cause, rfl, reached, own, broken, refused⟩ := blamed failure failed
    exact ⟨name, cause, rfl, rfl, reached, own, broken, Environment.artifact_eq_missing refused⟩

end Run

/-! ## Two classes, and one of them missing -/

namespace CyclicPair

/-- The two classes can be stored in any order. -/
theorem hasRoom {env : Environment} (made : ∀ artifact, env.Makes ["A"] artifact → artifact ∈ artifacts) :
    Run.HasRoom env (.onDisk ⟨"rt/"⟩ "o") ["A"] session.run.storage := by
  intro given all distinct
  have among : given ⊆ artifacts := fun artifact mem => made artifact (all artifact mem)
  have few := (List.subperm_of_subset distinct.of_map among).length_le
  have stored : ∀ one ∈ artifacts, ∀ other ∈ artifacts, ∀ some ∈ [[], [one], [one, other]],
      (some.map Artifact.physical).Nodup → ((Store.onDisk ⟨"rt/"⟩ "o").all some session.run.storage).2 = .ok () := by
    decide +kernel
  rcases given with _ | ⟨one, _ | ⟨other, _ | ⟨third, rest⟩⟩⟩
  · rfl
  · exact stored one (among (by simp)) one (among (by simp)) _ (by simp) distinct
  · exact stored one (among (by simp)) other (among (by simp)) _ (by simp) distinct
  · simp [artifacts] at few

/-- The class path without the class that `A` extends. -/
def incomplete : Environment :=
  { environment with index := { entries := (∅ : Std.TreeMap String IndexEntry).insert "A.class" ⟨"A", 0⟩ } }

theorem mem_of_reachable_incomplete {name : String} (reached : incomplete.Reachable ["A"] name) : name ∈ ["A", "java/B"] :=
  reached.mem_of_closed (by decide) (by decide +kernel)

/-- What can be made of the names that can be reached is one of the two artifacts. -/
theorem mem_of_makes {env : Environment} {names : List String} (known : ∀ name, env.Reachable ["A"] name → name ∈ names)
    (each : ∀ name ∈ names,
      (env.artifact (env.naming.physical name) (env.naming.strip name)).toOption.toList ⊆ artifacts)
    (artifact : Artifact) (makes : env.Makes ["A"] artifact) : artifact ∈ artifacts := by
  obtain ⟨name, reached, _, made⟩ := makes
  refine each name (known name reached) ?_
  simp [made, Except.toOption]

/-- With both classes the compilation from `A` succeeds; without the class that `A` extends it fails, and says so. -/
theorem compile_pair_or_missing :
    (session.run.compile environment (.onDisk ⟨"rt/"⟩ "o") ["A"]).2 = .ok () ∧
    ∃ failure, (session.run.compile incomplete (.onDisk ⟨"rt/"⟩ "o") ["A"]).2 = .error failure ∧
      failure.chain = ["failed to compile java/B", "no implementation found for class rt/java/B"] := by
  have plainUnit : environment.classUnit (environment.naming.physical "A") = .ok artifacts[0].unit := by decide +kernel
  have platformUnit : environment.classUnit (environment.naming.physical "java/B") = .ok artifacts[1].unit := by
    decide +kernel
  have loneUnit : incomplete.classUnit (incomplete.naming.physical "A") = .ok artifacts[0].unit := by decide +kernel
  have missing : incomplete.index.resolve (ClassIndex.classFilePath (incomplete.naming.physical "java/B")) = none := by
    decide +kernel
  have full := Run.compile_succeeds_iff (rfl : session.run.state = {}) (by decide)
    ((hasRoom (mem_of_makes (fun _ => mem_of_reachable) (by decide +kernel))).stores rfl)
  have lone := Run.compile_succeeds_iff (rfl : session.run.state = {}) (by decide)
    ((hasRoom (mem_of_makes (fun _ => mem_of_reachable_incomplete) (by decide +kernel))).stores rfl)
  refine ⟨full.1.mpr ?_, ?_⟩
  · intro name reached own
    have known := mem_of_reachable reached
    simp only [List.mem_cons, List.not_mem_nil, or_false] at known
    rcases known with rfl | rfl | rfl
    · exact Environment.compiles_iff.mpr ⟨_, plainUnit⟩
    · exact Environment.compiles_iff.mpr ⟨_, platformUnit⟩
    · exact absurd own (by decide +kernel)
  · have broken : ¬ incomplete.Compiles "java/B" := by
      rintro ⟨entry, _, _, _, found, _⟩
      rw [missing] at found
      cases found
    cases ended : (session.run.compile incomplete (.onDisk ⟨"rt/"⟩ "o") ["A"]).2 with
    | ok =>
      have reached : incomplete.Reachable ["A"] "java/B" :=
        .reference (.seed List.mem_cons_self) (by decide +kernel) loneUnit (by decide)
      exact absurd (lone.1.mp ended "java/B" reached (by decide +kernel)) broken
    | error failure =>
      obtain ⟨name, cause, chain, _, reached, own, fails, absent⟩ := lone.2 failure ended
      refine ⟨failure, rfl, ?_⟩
      have known := mem_of_reachable_incomplete reached
      simp only [List.mem_cons, List.not_mem_nil, or_false] at known
      rcases known with rfl | rfl
      · exact absurd (Environment.compiles_iff.mpr ⟨_, loneUnit⟩) fails
      · rw [chain, (absent _).mpr ⟨missing, rfl⟩]
        decide +kernel

end CyclicPair

end JvmUnits
