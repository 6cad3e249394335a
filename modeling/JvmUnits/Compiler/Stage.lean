import JvmUnits.ClassPath.Index

/-!
# Stages of class files

A class file is read, parsed and translated, each stage only after the one before it. A compilation is written once, for
whatever is kept of the stages that it begins (`Record`): nothing where only its result counts, or the list of the stages where
it matters which they were. The result does not depend on it.
-/

namespace JvmUnits

/-- What is done with a class file. -/
inductive Stage where
  | read | parse | translate
  deriving DecidableEq, Repr

/-- A stage of the class file at a path inside the roots. -/
structure Handling where
  entry : String
  stage : Stage
  deriving DecidableEq, Repr

/-- The stages of the class file that is looked up under a physical name. -/
def Handling.ofClass (physical : String) (stage : Stage) : Handling := ⟨ClassIndex.classFilePath physical, stage⟩

/-- What is kept of stages. -/
class Record (ω : Type) where
  /-- No stage. -/
  nothing : ω
  /-- Some stages and then others. -/
  join : ω → ω → ω
  /-- A single stage. -/
  note : Handling → ω

instance : Record Unit where
  nothing := ()
  join _ _ := ()
  note _ := ()

instance : Record (List Handling) where
  nothing := []
  join earlier later := earlier ++ later
  note handling := [handling]

/-- Work with the record of the stages that it began, and how the work ended. -/
structure Recording (ω ε α : Type) where
  log : ω
  outcome : Except ε α

namespace Recording

variable {ω ε α β : Type}

/-- What has been changed by work, and how the work ended, without the record. -/
def plain {τ : Type} (result : τ × Recording ω ε α) : τ × Except ε α := (result.1, result.2.outcome)

variable [Record ω]

/-- A stage is recorded, however it ends. -/
def stage (handling : Handling) (outcome : Except ε α) : Recording ω ε α := ⟨Record.note handling, outcome⟩

/-- Gives up. -/
def fail (e : ε) : Recording ω ε α := ⟨Record.nothing, .error e⟩

/-- Work followed by more work that depends on its result. -/
def andThen (first : Recording ω ε α) (next : α → Recording ω ε β) : Recording ω ε β :=
  match first.outcome with
  | .error e => ⟨first.log, .error e⟩
  | .ok a =>
    let later := next a
    ⟨Record.join first.log later.log, later.outcome⟩

instance : Monad (Recording ω ε) where
  pure a := ⟨Record.nothing, .ok a⟩
  bind := andThen

/-- The outcome of two steps is that of the steps without their records. -/
theorem outcome_bind (first : Recording ω ε α) (next : α → Recording ω ε β) :
    (first >>= next).outcome = first.outcome >>= fun a => (next a).outcome := by
  obtain ⟨log, e | a⟩ := first <;> rfl

/-- Going on with a result changes the outcome and not the record. -/
theorem outcome_map (work : Recording ω ε α) (f : α → β) : (f <$> work).outcome = work.outcome.map f := by
  obtain ⟨log, e | a⟩ := work <;> rfl

end Recording

end JvmUnits
