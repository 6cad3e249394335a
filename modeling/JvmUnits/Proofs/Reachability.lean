import JvmUnits.Proofs.Mention
import JvmUnits.Proofs.Naming
import JvmUnits.Proofs.WorkList

/-!
# The classes that a run reaches

`Environment.Reachable` is the closure of the seeds under the references of units. `Environment.Invariant` relates the list and
the state of a run to it: the invariant holds at the start, each step keeps it, and at the end of a run it says which classes
have been compiled.
-/

namespace JvmUnits

namespace Environment

variable {env : Environment} {seeds : List String}

/-- The class file that is looked up under a physical name. -/
def classFile (env : Environment) (physical : String) : Except Error ClassFile :=
  match env.index.resolve (ClassIndex.classFilePath physical) with
  | none => .error (.classNotFound physical)
  | some entry => do
    let data ← env.readFile entry.path
    ClassFile.parse data

/-- The unit of the class that is looked up under a physical name. -/
def classUnit (env : Environment) (physical : String) : Except Error ClassUnit := do
  let file ← env.classFile physical
  file.translate env.naming

/-- What goes into an artifact: the entry of the physical name, the bytes of the file that it leads to, the class that they
describe and the unit of that class, and beside the two names the file with the native methods. -/
theorem artifact_cases {physical runtimeName : String} {artifact : Artifact}
    (made : env.artifact physical runtimeName = .ok artifact) :
    ∃ entry data file unit, env.index.resolve (ClassIndex.classFilePath physical) = some entry ∧
      env.readFile entry.path = .ok data ∧ ClassFile.parse data = .ok file ∧ file.translate env.naming = .ok unit ∧
      artifact = ⟨physical, entry.root, runtimeName, unit,
        (env.index.resolve (physical ++ nativeEnding)).map IndexEntry.path⟩ := by
  cases found : env.index.resolve (ClassIndex.classFilePath physical) with
  | none =>
    rw [artifact_of_missing found] at made
    cases made
  | some entry =>
    rw [artifact_of_entry found, artifactAt, outcome_artifactAtIn] at made
    obtain ⟨data, read, made⟩ := bind_eq_ok.mp made
    obtain ⟨file, parsed, made⟩ := bind_eq_ok.mp made
    obtain ⟨unit, translated, made⟩ := bind_eq_ok.mp made
    cases made
    exact ⟨entry, data, file, unit, rfl, read, parsed, translated, rfl⟩

/-- An artifact has the unit of its class, and the names it was asked for. -/
theorem artifact_eq_ok {physical runtimeName : String} {artifact : Artifact}
    (h : env.artifact physical runtimeName = .ok artifact) :
    env.classUnit physical = .ok artifact.unit ∧ artifact.physical = physical ∧ artifact.runtimeName = runtimeName := by
  obtain ⟨entry, data, file, unit, found, read, parsed, translated, rfl⟩ := artifact_cases h
  have given : env.classFile physical = .ok file := by
    rw [classFile, found]
    exact bind_eq_ok.mpr ⟨data, read, parsed⟩
  exact ⟨bind_eq_ok.mpr ⟨file, given, translated⟩, rfl, rfl⟩

/-- A physical name is that of a built-in class exactly when the name is. -/
theorem isBuiltin_physical (name : String) : env.isBuiltin (env.naming.physical name) = env.isBuiltin name := by
  unfold isBuiltin
  rw [Naming.strip_physical]

/-- The names that can be reached from the seeds: the seeds, and with every reachable name of a class that is not built in the
references of the unit of that class. -/
inductive Reachable (env : Environment) (seeds : List String) : String → Prop where
  | seed {name : String} (mem : name ∈ seeds) : Reachable env seeds name
  | reference {name reference : String} {unit : ClassUnit} (reached : Reachable env seeds name)
      (own : env.isBuiltin name = false) (made : env.classUnit (env.naming.physical name) = .ok unit)
      (mem : reference ∈ unit.references) : Reachable env seeds reference

/-- How the list of a run and its state stand to the classes that can be reached from the seeds. -/
structure Invariant (env : Environment) (seeds queue : List String) (state : BuildState) : Prop where
  /-- Every name on the list can be reached. -/
  queued : ∀ name ∈ queue, env.Reachable seeds name
  /-- A seed is on the list until it is claimed. -/
  seeded : ∀ name ∈ seeds, state.isClaimed name = true ∨ name ∈ queue
  /-- A reference of an artifact is on the list until it is claimed. -/
  followed : ∀ artifact ∈ state.artifacts, ∀ reference ∈ artifact.unit.references,
    state.isClaimed reference = true ∨ reference ∈ queue
  /-- Every artifact is that of a reachable class that is not built in. -/
  compiled : ∀ artifact ∈ state.artifacts, ∃ name, env.Reachable seeds name ∧ env.isBuiltin name = false ∧
    env.artifact (env.naming.physical name) (env.naming.strip name) = .ok artifact
  /-- Every built-in class in use is a reachable one. -/
  used : ∀ runtimeName ∈ state.builtinsUsed, ∃ name, env.Reachable seeds name ∧ env.isBuiltin name = true ∧
    env.naming.strip name = runtimeName
  /-- A built-in class that is claimed is in use. -/
  noted : ∀ name, state.isClaimed name = true → env.isBuiltin name = true → env.naming.strip name ∈ state.builtinsUsed
  /-- Any other class that is claimed has an artifact, which comes from its physical name unless the home package lies among
  the platform packages. -/
  present : ∀ name, state.isClaimed name = true → env.isBuiltin name = false → ∃ artifact ∈ state.artifacts,
    artifact.runtimeName = env.naming.strip name ∧
      (Naming.isPlatform env.naming.home = false → artifact.physical = env.naming.physical name)

namespace Invariant

variable {name : String} {rest : List String} {state : BuildState}

/-- At the start the list holds the seeds and nothing is done. -/
theorem init {state : BuildState} (unclaimed : ∀ name, state.isClaimed name = false) (noArtifacts : state.artifacts = [])
    (noBuiltins : ∀ name, name ∉ state.builtinsUsed) : env.Invariant seeds seeds state where
  queued _ mem := .seed mem
  seeded _ mem := Or.inr mem
  followed artifact mem := by simp [noArtifacts] at mem
  compiled artifact mem := by simp [noArtifacts] at mem
  used runtimeName mem := absurd mem (noBuiltins runtimeName)
  noted name claimed := by simp [unclaimed name] at claimed
  present name claimed := by simp [unclaimed name] at claimed

/-- A name that is claimed already may leave the list. -/
theorem skip (inv : env.Invariant seeds (name :: rest) state) (claimed : state.isClaimed name = true) :
    env.Invariant seeds rest state := by
  have dropped : ∀ other, state.isClaimed other = true ∨ other ∈ name :: rest →
      state.isClaimed other = true ∨ other ∈ rest := by
    rintro other (h | h)
    · exact Or.inl h
    · rcases List.mem_cons.mp h with rfl | h
      · exact Or.inl claimed
      · exact Or.inr h
  exact
    { inv with
      queued := fun other mem => inv.queued other (List.mem_cons_of_mem _ mem)
      seeded := fun other mem => dropped other (inv.seeded other mem)
      followed := fun artifact mem reference refers => dropped reference (inv.followed artifact mem reference refers) }

/-- A name may be claimed when what the invariant asks of a claimed name is there. -/
theorem claim (inv : env.Invariant seeds rest state)
    (noted : env.isBuiltin name = true → env.naming.strip name ∈ state.builtinsUsed)
    (present : env.isBuiltin name = false → ∃ artifact ∈ state.artifacts, artifact.runtimeName = env.naming.strip name ∧
      (Naming.isPlatform env.naming.home = false → artifact.physical = env.naming.physical name)) :
    env.Invariant seeds rest (state.claim name) := by
  have kept : ∀ other, state.isClaimed other = true ∨ other ∈ rest →
      (state.claim name).isClaimed other = true ∨ other ∈ rest := by
    rintro other (h | h)
    · exact Or.inl (by simp [h])
    · exact Or.inr h
  refine ⟨inv.queued, fun other mem => kept other (inv.seeded other mem),
    fun artifact mem reference refers => kept reference (inv.followed artifact mem reference refers), inv.compiled,
    inv.used, ?_, ?_⟩
  · intro other claimed builtin
    rcases (BuildState.isClaimed_claim_eq_true state name other).mp claimed with rfl | claimed
    · exact noted builtin
    · exact inv.noted other claimed builtin
  · intro other claimed own
    rcases (BuildState.isClaimed_claim_eq_true state name other).mp claimed with rfl | claimed
    · exact present own
    · exact inv.present other claimed own

/-- The use of a reachable built-in class may be noted. -/
theorem useBuiltin (inv : env.Invariant seeds rest state) (reached : env.Reachable seeds name)
    (known : env.isBuiltin name = true) : env.Invariant seeds rest (state.useBuiltin (env.naming.strip name)) := by
  refine ⟨inv.queued, inv.seeded, inv.followed, inv.compiled, ?_, ?_, inv.present⟩
  · intro runtimeName mem
    rcases (BuildState.mem_builtinsUsed_useBuiltin state _ runtimeName).mp mem with rfl | mem
    · exact ⟨name, reached, known, rfl⟩
    · exact inv.used runtimeName mem
  · intro other claimed builtin
    exact (BuildState.mem_builtinsUsed_useBuiltin state _ _).mpr (Or.inr (inv.noted other claimed builtin))

/-- A class may be compiled: its artifact joins the others, its two names are claimed, and its references that are not claimed
join the list. -/
theorem compile {artifact : Artifact} (inv : env.Invariant seeds (name :: rest) state) (own : env.isBuiltin name = false)
    (made : env.artifact (env.naming.physical name) (env.naming.strip name) = .ok artifact) :
    env.Invariant seeds
      (rest ++ artifact.unit.references.filter
        (fun reference => !((state.claim name).claim (env.naming.physical name)).isClaimed reference))
      (((state.claim name).claim (env.naming.physical name)).emit artifact) := by
  obtain ⟨unit, physical, runtimeName⟩ := artifact_eq_ok made
  have reached := inv.queued name List.mem_cons_self
  have moved : ∀ (found : List String) (other : String), state.isClaimed other = true ∨ other ∈ name :: rest →
      ((state.claim name).claim (env.naming.physical name)).isClaimed other = true ∨ other ∈ rest ++ found := by
    rintro found other (h | h)
    · exact Or.inl (by simp [h])
    · rcases List.mem_cons.mp h with rfl | h
      · exact Or.inl (by simp)
      · exact Or.inr (List.mem_append_left _ h)
  refine ⟨?_, fun other mem => moved _ other (inv.seeded other mem), ?_, ?_, inv.used, ?_, ?_⟩
  · intro other mem
    rcases List.mem_append.mp mem with mem | mem
    · exact inv.queued other (List.mem_cons_of_mem _ mem)
    · exact .reference reached own unit (List.mem_filter.mp mem).1
  · intro other mem reference refers
    rcases List.mem_append.mp mem with mem | mem
    · exact moved _ reference (inv.followed other mem reference refers)
    · rw [List.mem_singleton] at mem
      subst mem
      cases claimed : ((state.claim name).claim (env.naming.physical name)).isClaimed reference with
      | true => exact Or.inl claimed
      | false => exact Or.inr (List.mem_append_right _ (List.mem_filter.mpr ⟨refers, by simp [claimed]⟩))
  · intro other mem
    rcases List.mem_append.mp mem with mem | mem
    · exact inv.compiled other mem
    · rw [List.mem_singleton] at mem
      subst mem
      exact ⟨name, reached, own, made⟩
  · intro other claimed builtin
    simp only [BuildState.isClaimed_emit, BuildState.isClaimed_claim_eq_true] at claimed
    rcases claimed with rfl | rfl | claimed
    · rw [isBuiltin_physical, own] at builtin
      cases builtin
    · rw [own] at builtin
      cases builtin
    · exact inv.noted other claimed builtin
  · intro other claimed notBuiltin
    simp only [BuildState.isClaimed_emit, BuildState.isClaimed_claim_eq_true] at claimed
    have last : artifact ∈ (((state.claim name).claim (env.naming.physical name)).emit artifact).artifacts := by simp
    rcases claimed with rfl | rfl | claimed
    · refine ⟨artifact, last, by rw [runtimeName, Naming.strip_physical], fun foreign => ?_⟩
      rw [physical, Naming.physical_physical foreign]
    · exact ⟨artifact, last, runtimeName, fun _ => physical⟩
    · obtain ⟨found, mem, same⟩ := inv.present other claimed notBuiltin
      exact ⟨found, List.mem_append_left _ mem, same⟩

/-- A step keeps the invariant. -/
theorem step {before after : List String × BuildState} (taken : env.Step before after)
    (inv : env.Invariant seeds before.1 before.2) : env.Invariant seeds after.1 after.2 := by
  cases taken with
  | skip claimed => exact inv.skip claimed
  | @builtin name rest state fresh known =>
    have noted := inv.useBuiltin (inv.queued name List.mem_cons_self) known
    have claimed : env.Invariant seeds (name :: rest) ((state.useBuiltin (env.naming.strip name)).claim name) :=
      noted.claim (fun _ => by simp) (fun own => by rw [known] at own; cases own)
    exact claimed.skip (by simp)
  | @shared name rest state fresh own taken =>
    have present := inv.present (env.naming.physical name) taken (by rw [isBuiltin_physical, own])
    obtain ⟨artifact, mem, runtimeName, physical⟩ := present
    have claimed : env.Invariant seeds (name :: rest) (state.claim name) := by
      refine inv.claim (fun builtin => by rw [own] at builtin; cases builtin) fun _ => ⟨artifact, mem, ?_, fun foreign => ?_⟩
      · rw [runtimeName, Naming.strip_physical]
      · rw [physical foreign, Naming.physical_physical foreign]
    exact claimed.skip (by simp)
  | compile fresh own free made => exact inv.compile own made

/-- A chain of steps keeps the invariant. -/
theorem steps {before after : List String × BuildState} (taken : Relation.ReflTransGen env.Step before after)
    (inv : env.Invariant seeds before.1 before.2) : env.Invariant seeds after.1 after.2 := by
  induction taken with
  | refl => exact inv
  | tail _ last ih => exact ih.step last

/-- At the end of a run every seed is claimed. -/
theorem claimed_of_seed (inv : env.Invariant seeds [] state) (mem : name ∈ seeds) : state.isClaimed name = true := by
  rcases inv.seeded name mem with claimed | queued
  · exact claimed
  · cases queued

/-- At the end of a run every reference of an artifact is claimed. -/
theorem claimed_of_reference (inv : env.Invariant seeds [] state) {artifact : Artifact} (mem : artifact ∈ state.artifacts)
    (refers : name ∈ artifact.unit.references) : state.isClaimed name = true := by
  rcases inv.followed artifact mem name refers with claimed | queued
  · exact claimed
  · cases queued

/-- At the end of a run everything that can be reached is claimed: the artifact of a claimed class has the unit that reaching
looks at. -/
theorem claimed_of_reachable (inv : env.Invariant seeds [] state) (foreign : Naming.isPlatform env.naming.home = false)
    (reached : env.Reachable seeds name) : state.isClaimed name = true := by
  induction reached with
  | seed mem => exact inv.claimed_of_seed mem
  | @reference name reference unit _ own made mem claimed =>
    obtain ⟨artifact, stored, _, physical⟩ := inv.present name claimed own
    obtain ⟨other, _, _, origin⟩ := inv.compiled artifact stored
    obtain ⟨sameUnit, samePhysical, _⟩ := artifact_eq_ok origin
    rw [← samePhysical, physical foreign, made, Except.ok.injEq] at sameUnit
    subst sameUnit
    exact inv.claimed_of_reference stored mem

end Invariant

end Environment

/-- At the end of a run that succeeds the invariant holds with nothing left on the list. -/
theorem Run.invariant_of_work {σ : Type} {env : Environment} {store : Store σ} {seeds : List String} {done : Nat}
    {run after : Run σ} (start : env.Invariant seeds seeds run.state)
    (h : work env store seeds done run = (after, .ok ())) : env.Invariant seeds [] after.state :=
  start.steps (steps_of_work h)

end JvmUnits
