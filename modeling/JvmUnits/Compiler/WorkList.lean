import JvmUnits.Compiler.Failure
import JvmUnits.Compiler.Progress
import JvmUnits.Compiler.State

/-!
# The work list

Starting from the seed classes, a run compiles every class that is referred to, directly or through others, and stores each
artifact as soon as it is made. The list ends: only a class that has not been claimed before adds to it, and there are
finitely many.

The loop over the list is written turn by turn, with a record of the stages of class files (`Loop.turnIn`); `Loop.Turned` says
all that a turn can do. A run takes turns until the loop ends (`Loop.workIn`). The loop and the run as they are without a record
are `Loop.turn`, `Run.work` and `Run.compile`.

How an artifact is stored is left open: storing takes the storage to the storage, and may fail.
-/

namespace JvmUnits

/-- A run under way: what has been compiled, the storage with the artifacts, and the news so far. -/
structure Run (σ : Type) where
  state : BuildState
  storage : σ
  news : Array Progress

/-- How an artifact is stored. -/
abbrev Store (σ : Type) := Artifact → σ → σ × Except Error Unit

namespace Run

/-- Tells what comes next: how much is done of the work known so far, and the class that is compiled. -/
def announce {σ : Type} (run : Run σ) (done total : Nat) (name : String) : Run σ :=
  { run with news := (run.news.push (.fraction done total)).push (.message name) }

/-- The run with the services and scripts of the class path. -/
def started {σ : Type} (env : Environment) (run : Run σ) : Run σ :=
  { run with state := { run.state with services := env.index.services, fragments := env.index.fragments } }

/-- The run with the built-in classes that are always needed. -/
def concluded {σ : Type} (run : Run σ) : Run σ :=
  { run with
    state := Builtins.required.foldl BuildState.useBuiltin run.state
    news := run.news.push (.fraction 1 1) }

end Run

/-! ## The loop -/

/-- The loop between two turns: the names on the list, the number of classes done, and the run. -/
structure Loop (σ : Type) where
  queue : List String
  done : Nat
  run : Run σ

/-- What a turn comes to. -/
inductive Turn (σ : Type) where
  | goOn (loop : Loop σ)
  | ended (run : Run σ) (outcome : Except Failure Unit)

namespace Loop

variable {σ ω : Type} [Record ω]

/-- One turn of the loop, with a record: it ends when the list is empty, when a class does not compile or when an artifact is
not stored. -/
def turnIn (ω : Type) [Record ω] (env : Environment) (store : Store σ) (loop : Loop σ) : ω × Turn σ :=
  match loop.queue with
  | [] => (Record.nothing, .ended loop.run (.ok ()))
  | name :: rest =>
    if loop.run.state.isClaimed name then (Record.nothing, .goOn { loop with queue := rest })
    else
      let told := loop.run.announce loop.done (loop.done + rest.length + 1) name
      match env.visitIn ω name loop.run.state with
      | (state, ⟨log, .error cause⟩) => (log, .ended { told with state } (.error (.compile name cause)))
      | (state, ⟨log, .ok none⟩) => (log, .goOn ⟨rest, loop.done + 1, { told with state }⟩)
      | (state, ⟨log, .ok (some artifact)⟩) =>
        match store artifact loop.run.storage with
        | (storage, .error cause) => (log, .ended { told with state, storage } (.error (.compile name cause)))
        | (storage, .ok ()) =>
          let found := artifact.unit.references.filter fun reference => !state.isClaimed reference
          (log, .goOn ⟨rest ++ found, loop.done + 1, { told with state := state.emit artifact, storage }⟩)

/-- One turn of the loop. -/
def turn (env : Environment) (store : Store σ) (loop : Loop σ) : Turn σ := (loop.turnIn Unit env store).2

/-- All that a turn can do: the list is empty; the first name has been claimed; its class does not compile, needs no artifact, has
an artifact that is not stored, or has one that is stored. -/
inductive Turned (ω : Type) [Record ω] (env : Environment) (store : Store σ) : Loop σ → ω → Turn σ → Prop where
  | finished {done : Nat} {run : Run σ} : Turned ω env store ⟨[], done, run⟩ Record.nothing (.ended run (.ok ()))
  | claimed {name : String} {rest : List String} {done : Nat} {run : Run σ} (taken : run.state.isClaimed name = true) :
      Turned ω env store ⟨name :: rest, done, run⟩ Record.nothing (.goOn ⟨rest, done, run⟩)
  | failed {name : String} {rest : List String} {done : Nat} {run : Run σ} {state : BuildState} {cause : Error}
      (fresh : run.state.isClaimed name = false) (visited : env.visit name run.state = (state, .error cause)) :
      Turned ω env store ⟨name :: rest, done, run⟩ (env.visitIn ω name run.state).2.log
        (.ended { run.announce done (done + rest.length + 1) name with state } (.error (.compile name cause)))
  | passed {name : String} {rest : List String} {done : Nat} {run : Run σ} {state : BuildState}
      (fresh : run.state.isClaimed name = false) (visited : env.visit name run.state = (state, .ok none)) :
      Turned ω env store ⟨name :: rest, done, run⟩ (env.visitIn ω name run.state).2.log
        (.goOn ⟨rest, done + 1, { run.announce done (done + rest.length + 1) name with state }⟩)
  | refused {name : String} {rest : List String} {done : Nat} {run : Run σ} {state : BuildState} {artifact : Artifact}
      {storage : σ} {cause : Error} (fresh : run.state.isClaimed name = false)
      (visited : env.visit name run.state = (state, .ok (some artifact)))
      (refused : store artifact run.storage = (storage, .error cause)) :
      Turned ω env store ⟨name :: rest, done, run⟩ (env.visitIn ω name run.state).2.log
        (.ended { run.announce done (done + rest.length + 1) name with state, storage } (.error (.compile name cause)))
  | stored {name : String} {rest : List String} {done : Nat} {run : Run σ} {state : BuildState} {artifact : Artifact}
      {storage : σ} (fresh : run.state.isClaimed name = false)
      (visited : env.visit name run.state = (state, .ok (some artifact)))
      (stored : store artifact run.storage = (storage, .ok ())) :
      Turned ω env store ⟨name :: rest, done, run⟩ (env.visitIn ω name run.state).2.log
        (.goOn ⟨rest ++ artifact.unit.references.filter fun reference => !state.isClaimed reference, done + 1,
          { run.announce done (done + rest.length + 1) name with state := state.emit artifact, storage }⟩)

variable {env : Environment} {store : Store σ} {loop : Loop σ} {log : ω} {result : Turn σ}

/-- Every turn is of one of the six kinds. -/
theorem exists_turned (ω : Type) [Record ω] (env : Environment) (store : Store σ) (loop : Loop σ) :
    ∃ log result, Turned ω env store loop log result := by
  obtain ⟨_ | ⟨name, rest⟩, done, run⟩ := loop
  · exact ⟨_, _, .finished⟩
  · cases claimed : run.state.isClaimed name with
    | true => exact ⟨_, _, .claimed claimed⟩
    | false =>
      rcases visited : env.visit name run.state with ⟨state, cause | _ | artifact⟩
      · exact ⟨_, _, .failed claimed visited⟩
      · exact ⟨_, _, .passed claimed visited⟩
      · rcases kept : store artifact run.storage with ⟨storage, cause | _⟩
        · exact ⟨_, _, .refused claimed visited kept⟩
        · exact ⟨_, _, .stored claimed visited kept⟩

/-- A turn of a kind has the record and the result of this kind. -/
theorem turnIn_of_turned (turned : Turned ω env store loop log result) : loop.turnIn ω env store = (log, result) := by
  cases turned with
  | finished => rfl
  | claimed taken => simp only [turnIn, taken, if_true]
  | failed fresh visited =>
    simp only [turnIn, fresh, Bool.false_eq_true, if_false]
    rw [Environment.visitIn_of_visit visited]
  | passed fresh visited =>
    simp only [turnIn, fresh, Bool.false_eq_true, if_false]
    rw [Environment.visitIn_of_visit visited]
  | refused fresh visited kept =>
    simp only [turnIn, fresh, Bool.false_eq_true, if_false]
    rw [Environment.visitIn_of_visit visited]
    simp only [kept]
  | stored fresh visited kept =>
    simp only [turnIn, fresh, Bool.false_eq_true, if_false]
    rw [Environment.visitIn_of_visit visited]
    simp only [kept]

/-- What a turn comes to is one of these things. -/
theorem turned_of_turnIn (taken : loop.turnIn ω env store = (log, result)) : Turned ω env store loop log result := by
  obtain ⟨_, _, turned⟩ := exists_turned ω env store loop
  rw [turnIn_of_turned turned] at taken
  cases taken
  exact turned

/-- Where the loop goes on, there are fewer unclaimed classes, or as many and a shorter list. -/
theorem Turned.lt {next : Loop σ} (turned : Turned ω env store loop log (.goOn next)) :
    Prod.Lex (· < ·) (· < ·) ((env.unclaimed next.run.state).length, next.queue.length)
      ((env.unclaimed loop.run.state).length, loop.queue.length) := by
  cases turned with
  | claimed => exact Prod.Lex.right _ (Nat.lt_succ_self _)
  | passed fresh visited =>
    rcases Nat.lt_or_eq_of_le (Environment.unclaimed_visit_le visited) with lt | eq
    · exact Prod.Lex.left _ _ lt
    · exact eq ▸ Prod.Lex.right _ (Nat.lt_succ_self _)
  | stored fresh visited =>
    have fewer := Environment.unclaimed_visit_lt visited
    exact Prod.Lex.left _ _ fewer

/-- Turns until the loop ends, with a record that goes on from another one. -/
def workIn (ω : Type) [Record ω] (env : Environment) (store : Store σ) (record : ω) (loop : Loop σ) :
    Run σ × Recording ω Failure Unit :=
  match _taken : loop.turnIn ω env store with
  | (log, .ended run outcome) => (run, ⟨Record.join record log, outcome⟩)
  | (log, .goOn next) => workIn ω env store (Record.join record log) next
termination_by ((env.unclaimed loop.run.state).length, loop.queue.length)
decreasing_by exact (turned_of_turnIn _taken).lt

end Loop

/-! ## Compilations -/

namespace Run

variable {σ : Type}

/-- Compiles the classes on a list, and those that they refer to; the number counts the classes done. -/
def work (env : Environment) (store : Store σ) (queue : List String) (done : Nat) (run : Run σ) :
    Run σ × Except Failure Unit :=
  Recording.plain (Loop.workIn Unit env store Record.nothing ⟨queue, done, run⟩)

/-- A whole compilation, with a record: notes the services and scripts of the class path, works off the seed classes, and notes
the built-in classes that are always needed. -/
def compileIn (ω : Type) [Record ω] (env : Environment) (store : Store σ) (seeds : List String) (run : Run σ) :
    Run σ × Recording ω Failure Unit :=
  match Loop.workIn ω env store Record.nothing ⟨seeds, 0, run.started env⟩ with
  | (after, ⟨log, .error failure⟩) => (after, ⟨log, .error failure⟩)
  | (after, ⟨log, .ok ()⟩) => (after.concluded, ⟨log, .ok ()⟩)

/-- A whole compilation. -/
def compile (env : Environment) (store : Store σ) (seeds : List String) (run : Run σ) : Run σ × Except Failure Unit :=
  Recording.plain (run.compileIn Unit env store seeds)

end Run

end JvmUnits
