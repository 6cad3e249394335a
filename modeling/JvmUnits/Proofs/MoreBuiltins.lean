import JvmUnits.Proofs.Failures

/-!
# More built-in classes

A class that the runtime implements is neither compiled nor asked for its references. So with more built-in classes no more
classes can be reached (`Environment.Reachable.of_more_builtins`), although the work list meets them in another order and under
other spellings; and a compilation that succeeds still succeeds and compiles no other classes (`Run.compile_more_builtins`).
-/

namespace JvmUnits

/-! ## What can be reached -/

namespace Environment

variable {env : Environment} {more : Builtins} {seeds : List String} {name : String}

/-- The environment with other built-in classes. -/
def withBuiltins (env : Environment) (more : Builtins) : Environment := { env with builtins := more }

@[simp] theorem naming_withBuiltins : (env.withBuiltins more).naming = env.naming := rfl

/-- Class files are read and translated whatever is built in. -/
@[simp] theorem artifact_withBuiltins (physical runtimeName : String) :
    (env.withBuiltins more).artifact physical runtimeName = env.artifact physical runtimeName := rfl

/-- A class that is not built in among more is not built in among fewer. -/
theorem isBuiltin_of_more (known : ∀ name, name ∈ env.builtins → name ∈ more)
    (own : (env.withBuiltins more).isBuiltin name = false) : env.isBuiltin name = false := by
  cases builtin : env.isBuiltin name with
  | false => rfl
  | true =>
    have mem : env.naming.strip name ∈ more := known _ (Std.TreeSet.mem_iff_contains.mpr builtin)
    have still : (env.withBuiltins more).isBuiltin name = true := Std.TreeSet.mem_iff_contains.mp mem
    rw [own] at still
    cases still

/-- With more built-in classes no more classes can be reached. -/
theorem Reachable.of_more_builtins (known : ∀ name, name ∈ env.builtins → name ∈ more)
    (reached : (env.withBuiltins more).Reachable seeds name) : env.Reachable seeds name := by
  induction reached with
  | seed mem => exact .seed mem
  | reference _ own made mem ih => exact .reference ih (isBuiltin_of_more known own) made mem

/-- At the end of a run every class that can be reached and is not built in has been compiled, and to the artifact that any
spelling of its name gives. -/
theorem Invariant.mem_artifacts {state : BuildState} (inv : env.Invariant seeds [] state)
    (foreign : Naming.isPlatform env.naming.home = false) (reached : env.Reachable seeds name)
    (own : env.isBuiltin name = false) {artifact : Artifact}
    (made : env.artifact (env.naming.physical name) (env.naming.strip name) = .ok artifact) : artifact ∈ state.artifacts := by
  obtain ⟨found, mem, runtimeName, physical⟩ := inv.present name (inv.claimed_of_reachable foreign reached) own
  obtain ⟨other, _, _, origin⟩ := inv.compiled found mem
  obtain ⟨_, samePhysical, sameName⟩ := artifact_eq_ok origin
  rw [← samePhysical, ← sameName, physical foreign, runtimeName, made, Except.ok.injEq] at origin
  rwa [origin]

end Environment

/-! ## Compilations -/

namespace Run

variable {σ τ : Type} {env : Environment} {more : Builtins} {seeds : List String}

/-- If a compilation from scratch succeeds, and the home package is no platform package, then with more built-in classes it
succeeds as well, wherever its artifacts can be stored. The artifacts that it makes then are among those that it made with
fewer built-in classes; so is every class for which it records references. -/
theorem compile_more_builtins {store : Store σ} {other : Store τ} {run : Run σ} {again : Run τ}
    (known : ∀ name, name ∈ env.builtins → name ∈ more) (foreign : Naming.isPlatform env.naming.home = false)
    (untouched : run.state = {}) (untouchedAgain : again.state = {})
    (succeeded : (run.compile env store seeds).2 = .ok ())
    (stores : Stores (env.withBuiltins more) other seeds again) :
    (again.compile (env.withBuiltins more) other seeds).2 = .ok () ∧
      (∀ artifact ∈ (again.compile (env.withBuiltins more) other seeds).1.state.artifacts,
        artifact ∈ (run.compile env store seeds).1.state.artifacts) ∧
      ∀ name, name ∈ (again.compile (env.withBuiltins more) other seeds).1.state.references env.naming →
        name ∈ (run.compile env store seeds).1.state.references env.naming := by
  obtain ⟨_, state, inv, artifacts, _⟩ := compile_eq_ok untouched (Prod.ext rfl succeeded)
  have ended : (again.compile (env.withBuiltins more) other seeds).2 = .ok () := by
    cases result : (again.compile (env.withBuiltins more) other seeds).2 with
    | ok => rfl
    | error failure =>
      -- The class at fault would have been reached with fewer built-in classes as well.
      obtain ⟨name, cause, _, reached, own, failed⟩ := artifact_of_failed_stores untouchedAgain stores result
      have compiles := inv.compiles foreign (reached.of_more_builtins known) (Environment.isBuiltin_of_more known own)
      obtain ⟨artifact, made⟩ := Environment.exists_artifact compiles (env.naming.strip name)
      simp only [Environment.artifact_withBuiltins, Environment.naming_withBuiltins, made] at failed
      cases failed
  have fewer : ∀ artifact ∈ (again.compile (env.withBuiltins more) other seeds).1.state.artifacts,
      artifact ∈ (run.compile env store seeds).1.state.artifacts := by
    intro artifact mem
    obtain ⟨_, stateAgain, invAgain, artifactsAgain, _⟩ := compile_eq_ok untouchedAgain (Prod.ext rfl ended)
    rw [artifactsAgain] at mem
    rw [artifacts]
    obtain ⟨name, reached, own, made⟩ := invAgain.compiled artifact mem
    exact inv.mem_artifacts foreign (reached.of_more_builtins known) (Environment.isBuiltin_of_more known own) made
  refine ⟨ended, fewer, fun name mem => ?_⟩
  rw [BuildState.mem_references] at mem ⊢
  obtain ⟨artifact, made, named⟩ := mem
  exact ⟨artifact, fewer artifact made, named⟩

end Run

/-! ## Two classes, and one of them built in -/

namespace CyclicPair

/-- The class that `A` extends is built in, and so is its superclass. -/
def moreBuiltins : Builtins := environment.builtins.insert "java/B"

theorem mem_of_reachable_more {name : String} (reached : (environment.withBuiltins moreBuiltins).Reachable ["A"] name) :
    name ∈ ["A", "java/B"] :=
  reached.mem_of_closed (by decide) (by decide +kernel)

/-- With `java/B` built in the compilation from `A` still succeeds, and compiles no class that it did not compile before. -/
theorem compile_fewer :
    (session.run.compile environment (.onDisk ⟨"rt/"⟩ "o") ["A"]).2 = .ok () ∧
      (session.run.compile (environment.withBuiltins moreBuiltins) (.onDisk ⟨"rt/"⟩ "o") ["A"]).2 = .ok () ∧
      ∀ name, name ∈ (session.run.compile (environment.withBuiltins moreBuiltins) (.onDisk ⟨"rt/"⟩ "o")
          ["A"]).1.state.references ⟨"rt/"⟩ →
        name ∈ (session.run.compile environment (.onDisk ⟨"rt/"⟩ "o") ["A"]).1.state.references ⟨"rt/"⟩ := by
  have seeds : session.seeds = ["A"] := by decide +kernel
  obtain ⟨after, compiled, _⟩ := compile_session
  have ended := Session.compilation_of_compile compiled
  unfold Session.compilation at ended
  rw [seeds] at ended
  have succeeded : (session.run.compile environment (.onDisk ⟨"rt/"⟩ "o") ["A"]).2 = .ok () := congrArg Prod.snd ended
  have room : Run.HasRoom (environment.withBuiltins moreBuiltins) (.onDisk ⟨"rt/"⟩ "o") ["A"] session.run.storage :=
    hasRoom (mem_of_makes (fun _ => mem_of_reachable_more) (by decide +kernel))
  have known : ∀ name, name ∈ environment.builtins → name ∈ moreBuiltins :=
    fun name mem => Std.TreeSet.mem_insert.mpr (Or.inr mem)
  obtain ⟨again, _, fewer⟩ :=
    Run.compile_more_builtins known (by decide) rfl rfl succeeded (room.stores rfl)
  exact ⟨succeeded, again, fewer⟩

end CyclicPair

end JvmUnits
