import JvmUnits.Compiler.Artifact

/-!
# The state of a compilation

A compilation claims each name before it looks at the class, and claims the physical name of the class as well, so that no
class is compiled twice, whatever its spelling. Claims stay when the compilation of a class fails.

`Environment.visit` is the step of the compilation that concerns one name; with a record of the stages of class files it is
`Environment.visitIn`. Besides their definitions this module has what makes the work list end: a visit claims and never gives up
a claim (`visit_claimed_mono`), and a visit that yields an artifact leaves fewer classes unclaimed (`unclaimed_visit_lt`).
-/

namespace JvmUnits

/-- What a compilation has done so far: the names that it has claimed, the artifacts that have been stored, the built-in
classes that are used, the services, and the scripts to be loaded before any class. -/
structure BuildState where
  claimed : Std.TreeSet String := ∅
  artifacts : List Artifact := []
  builtinsUsed : Std.TreeSet String := ∅
  services : Std.TreeMap String (List String) := ∅
  fragments : List String := []

namespace BuildState

/-- The name has been claimed. -/
def isClaimed (state : BuildState) (name : String) : Bool := state.claimed.contains name

/-- Claims a name. -/
def claim (state : BuildState) (name : String) : BuildState := { state with claimed := state.claimed.insert name }

/-- Notes the use of a built-in class. -/
def useBuiltin (state : BuildState) (runtimeName : String) : BuildState :=
  { state with builtinsUsed := state.builtinsUsed.insert runtimeName }

/-- Notes an artifact that has been stored. -/
def emit (state : BuildState) (artifact : Artifact) : BuildState :=
  { state with artifacts := state.artifacts ++ [artifact] }

/-- The units that have been stored, by their paths inside the output folder. -/
def compiled (state : BuildState) : List String := state.artifacts.map Artifact.path

/-- The files with native methods that have been stored, by their paths inside the output folder. -/
def natives (state : BuildState) : List String := state.artifacts.filterMap Artifact.nativePath

/-- The runtime names that each compiled class refers to, by its runtime name. -/
def references (naming : Naming) (state : BuildState) : Std.TreeMap String (List String) :=
  state.artifacts.foldl (fun found artifact => found.insert artifact.runtimeName (artifact.unit.runtimeReferences naming)) ∅

/-- A name is claimed once it has been claimed; all other claims stay. -/
theorem isClaimed_claim (state : BuildState) (name other : String) :
    (state.claim name).isClaimed other = (name == other || state.isClaimed other) := by
  simp only [claim, isClaimed, Std.TreeSet.contains_insert]
  rw [Bool.eq_iff_iff]
  simp

@[simp] theorem isClaimed_useBuiltin (state : BuildState) (runtimeName other : String) :
    (state.useBuiltin runtimeName).isClaimed other = state.isClaimed other := rfl

@[simp] theorem isClaimed_emit (state : BuildState) (artifact : Artifact) (other : String) :
    (state.emit artifact).isClaimed other = state.isClaimed other := rfl

end BuildState

namespace Environment

/-- Takes care of one name, with a record: claims it, and compiles the class unless it is built in or was claimed before. -/
def visitIn (ω : Type) [Record ω] (env : Environment) (name : String) (state : BuildState) :
    BuildState × Recording ω Error (Option Artifact) :=
  if state.isClaimed name then (state, pure none)
  else
    let mine := state.claim name
    let runtimeName := env.naming.strip name
    let physical := env.naming.physical name
    if env.builtins.contains runtimeName then (mine.useBuiltin runtimeName, pure none)
    else if physical ≠ name ∧ mine.isClaimed physical then (mine, pure none)
    else (mine.claim physical, some <$> env.artifactIn ω physical runtimeName)

/-- Takes care of one name. -/
def visit (env : Environment) (name : String) (state : BuildState) : BuildState × Except Error (Option Artifact) :=
  Recording.plain (env.visitIn Unit name state)

/-- A visit without its record. -/
theorem visit_eq (env : Environment) (name : String) (state : BuildState) :
    env.visit name state =
      if state.isClaimed name then (state, .ok none)
      else if env.builtins.contains (env.naming.strip name) then
        ((state.claim name).useBuiltin (env.naming.strip name), .ok none)
      else if env.naming.physical name ≠ name ∧ (state.claim name).isClaimed (env.naming.physical name) then
        (state.claim name, .ok none)
      else ((state.claim name).claim (env.naming.physical name),
        (env.artifact (env.naming.physical name) (env.naming.strip name)).map some) := by
  unfold visit visitIn
  simp only [Recording.plain]
  split
  · rfl
  · split
    · rfl
    · split
      · rfl
      · rw [Recording.outcome_map, outcome_artifactIn]

/-- What is kept of the stages does not matter for the state and the artifact. -/
theorem plain_visitIn (ω : Type) [Record ω] (env : Environment) (name : String) (state : BuildState) :
    Recording.plain (env.visitIn ω name state) = env.visit name state := by
  unfold visit visitIn
  simp only [Recording.plain]
  split
  · rfl
  · split
    · rfl
    · split
      · rfl
      · rw [Recording.outcome_map, Recording.outcome_map, outcome_artifactIn, outcome_artifactIn]

/-- A visit with a record does what it does without one. -/
theorem visitIn_of_visit {ω : Type} [Record ω] {env : Environment} {name : String} {state after : BuildState}
    {outcome : Except Error (Option Artifact)} (visited : env.visit name state = (after, outcome)) :
    env.visitIn ω name state = (after, ⟨(env.visitIn ω name state).2.log, outcome⟩) := by
  rw [← env.plain_visitIn ω] at visited
  obtain ⟨rfl, rfl⟩ := Prod.mk.inj visited
  rfl

/-- The classes of the index that have not been claimed. -/
def unclaimed (env : Environment) (state : BuildState) : List String :=
  env.index.classNames.filter fun name => !state.isClaimed name

/-- A visit gives up no claim. -/
theorem visit_claimed_mono (env : Environment) (name : String) (state : BuildState) {other : String}
    (h : state.isClaimed other) : (env.visit name state).1.isClaimed other := by
  rw [visit_eq]
  split
  · exact h
  · split
    · simp [BuildState.isClaimed_claim, h]
    · split <;> simp [BuildState.isClaimed_claim, h]

/-- A filter that lets less pass leaves no more. -/
theorem length_filter_le_of_imp {p q : String → Bool} (imp : ∀ name, q name → p name) (names : List String) :
    (names.filter q).length ≤ (names.filter p).length := by
  simp only [← List.countP_eq_length_filter]
  exact List.countP_mono_left fun name _ => imp name

/-- A filter that lets less pass, and a certain name not, leaves less of a list with that name. -/
theorem length_filter_lt_of_imp {p q : String → Bool} (imp : ∀ name, q name → p name) {name : String}
    (passed : p name = true) (stopped : q name = false) {names : List String} (mem : name ∈ names) :
    (names.filter q).length < (names.filter p).length := by
  induction names with
  | nil => simp at mem
  | cons first rest ih =>
    have le := length_filter_le_of_imp imp rest
    rcases List.mem_cons.mp mem with rfl | mem
    · simp [passed, stopped]
      omega
    · have lt := ih mem
      cases hq : q first with
      | true => simpa [hq, imp first hq] using lt
      | false => cases hp : p first <;> simp [hq, hp] <;> omega

/-- Where nothing claimed is given up, a class that is not claimed afterwards was not claimed before. -/
theorem not_isClaimed_of_mono {state after : BuildState} (mono : ∀ name, state.isClaimed name → after.isClaimed name)
    (name : String) (h : !after.isClaimed name) : !state.isClaimed name := by
  cases claimed : state.isClaimed name with
  | false => rfl
  | true => simp [mono name claimed] at h

/-- With more claims there are no more unclaimed classes. -/
theorem unclaimed_le (env : Environment) {state after : BuildState}
    (mono : ∀ name, state.isClaimed name → after.isClaimed name) :
    (env.unclaimed after).length ≤ (env.unclaimed state).length :=
  length_filter_le_of_imp (not_isClaimed_of_mono mono) _

/-- With one more class claimed there are fewer unclaimed classes. -/
theorem unclaimed_lt (env : Environment) {state after : BuildState}
    (mono : ∀ name, state.isClaimed name → after.isClaimed name) {name : String} (known : name ∈ env.index.classNames)
    (before : state.isClaimed name = false) (now : after.isClaimed name = true) :
    (env.unclaimed after).length < (env.unclaimed state).length :=
  length_filter_lt_of_imp (not_isClaimed_of_mono mono) (by simp [before]) (by simp [now]) known

/-- A class that is compiled has its file in the index. -/
theorem mem_classNames_of_artifact {env : Environment} {physical runtimeName : String} {artifact : Artifact}
    (h : env.artifact physical runtimeName = .ok artifact) : physical ∈ env.index.classNames := by
  cases found : env.index.resolve (ClassIndex.classFilePath physical) with
  | none =>
    rw [artifact_of_missing found] at h
    cases h
  | some entry =>
    refine List.mem_filterMap.mpr ⟨ClassIndex.classFilePath physical, ?_, ClassIndex.className?_classFilePath physical⟩
    rw [Std.TreeMap.mem_keys, Std.TreeMap.mem_iff_isSome_getElem?]
    exact Option.isSome_of_eq_some found

/-- A visit leaves no more classes unclaimed. -/
theorem unclaimed_visit_le {env : Environment} {name : String} {state after : BuildState}
    {result : Except Error (Option Artifact)} (h : env.visit name state = (after, result)) :
    (env.unclaimed after).length ≤ (env.unclaimed state).length := by
  refine unclaimed_le env fun other claimed => ?_
  have := visit_claimed_mono env name state claimed
  rwa [h] at this

/-- A visit that yields an artifact leaves fewer classes unclaimed. -/
theorem unclaimed_visit_lt {env : Environment} {name : String} {state after : BuildState} {artifact : Artifact}
    (h : env.visit name state = (after, .ok (some artifact))) :
    (env.unclaimed after).length < (env.unclaimed state).length := by
  have mono : ∀ other, state.isClaimed other → after.isClaimed other := by
    intro other claimed
    have := visit_claimed_mono env name state claimed
    rwa [h] at this
  rw [visit_eq] at h
  split at h
  · simp at h
  · rename_i fresh
    split at h
    · simp at h
    · split at h
      · simp at h
      · rename_i notShared
        obtain ⟨rfl, made⟩ := Prod.mk.inj h
        cases result : env.artifact (env.naming.physical name) (env.naming.strip name) with
        | error e => simp [result, Except.map] at made
        | ok found =>
          refine unclaimed_lt env mono (mem_classNames_of_artifact result) ?_ ?_
          · by_cases same : env.naming.physical name = name
            · rw [same]
              simpa using fresh
            · cases hc : state.isClaimed (env.naming.physical name) with
              | false => rfl
              | true => exact absurd ⟨same, by simp [BuildState.isClaimed_claim, hc]⟩ notShared
          · simp [BuildState.isClaimed_claim]

end Environment

end JvmUnits
