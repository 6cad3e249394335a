import JvmUnits.Proofs.LinearDecoding
import JvmUnits.Proofs.ReadValues

/-!
# Where branches lead

The label at a distance lies inside the code array, so all places that a decoded instruction may go on at do
(`Instruction.Linear.targets_inside`).
-/

namespace JvmUnits

namespace Operands

/-- A target that is found lies in the code. -/
theorem gives_target (length base : Nat) (distance : Int) :
    Gives (target length base distance : Operands Label) fun label => label.offset < length := by
  intro cursor label after read
  rw [target_eq] at read
  split at read
  · cases read
  · rename_i inside
    cases read
    simp only [Bool.or_eq_true, decide_eq_true_eq] at inside ⊢
    omega

theorem gives_wideTarget (length base : Nat) :
    Gives (wideTarget length base : Operands Label) fun label => label.offset < length :=
  .after fun distance => gives_target length base distance

/-- The instruction goes on at places inside a code array of the given length. -/
def StaysInside (length : Nat) (instruction : Instruction) : Prop := ∀ target ∈ instruction.targets, target.offset < length

/-- What holds of every entry that is read holds of the entries of a table. -/
theorem gives_entries {α : Type} {property : α → Prop} {entry : Operands α} (each : Gives entry property)
    (kind : SwitchKind) (length count width : Nat) :
    Gives (entries kind length count width entry) fun values => ∀ value ∈ values, property value :=
  .after fun _ => .after fun _ => each.times count

/-- The targets of a table switch lie in the code. -/
theorem gives_tableSwitch (length base : Nat) :
    Gives (tableSwitch length base : Operands Instruction) (StaysInside length) := by
  refine .after fun _ => (gives_wideTarget length base).bind fun default reached => .after fun low => .after fun high =>
    .after fun count => .ite (.error _) ((gives_entries (gives_wideTarget length base) _ _ _ _).bind fun targets inside =>
      .pure ?_)
  intro target mem
  rcases List.mem_append.mp mem with mem | mem
  · exact inside target mem
  · rwa [List.mem_singleton.mp mem]

theorem gives_keyedTarget (length base : Nat) :
    Gives (keyedTarget length base : Operands (Int × Label)) fun row => row.2.offset < length :=
  .after fun _ => (gives_wideTarget length base).bind fun _ reached => .pure reached

/-- The targets of a lookup switch lie in the code. -/
theorem gives_lookupSwitch (length base : Nat) :
    Gives (lookupSwitch length base : Operands Instruction) (StaysInside length) := by
  refine .after fun _ => (gives_wideTarget length base).bind fun default reached => .after fun count =>
    .ite (.error _) ((gives_entries (gives_keyedTarget length base) _ _ _ _).bind fun rows inside => .pure ?_)
  intro target mem
  rcases List.mem_append.mp mem with mem | mem
  · obtain ⟨found, among, rfl⟩ := List.mem_map.mp mem
    exact inside found among
  · rwa [List.mem_singleton.mp mem]

/-- Only jumps and switches go on at other places than the next instruction. -/
theorem gives_instruction (pool : Pool) (length base : Nat) (opcode : UInt8) :
    Gives (instruction pool length base opcode : Operands Instruction) (StaysInside length) := by
  have nowhere {i : Instruction} (none : i.targets = []) : StaysInside length i := by simp [StaysInside, none]
  have once {opcode : UInt8} {label : Label} (inside : label.offset < length) : StaysInside length (.jump opcode label) := by
    simpa [StaysInside, Instruction.targets] using inside
  unfold instruction
  cases Opcode.format opcode with
  | branch => exact .after fun distance => (gives_target length base distance).map fun label => once
  | wideBranch => exact (gives_wideTarget length base).map fun label => once
  | tableSwitch => exact gives_tableSwitch length base
  | lookupSwitch => exact gives_lookupSwitch length base
  | plain | impliedSlot => exact .pure (nowhere rfl)
  | byte | short | unsignedByte | slot => exact .after fun _ => .pure (nowhere rfl)
  | constant | wideConstant | increment | field | method | type => exact .after fun _ => .after fun _ => .pure (nowhere rfl)
  | interfaceMethod | multiArray => exact .after fun _ => .after fun _ => .after fun _ => .pure (nowhere rfl)
  | wide =>
    exact .after fun _ => .after fun _ => .ite (.after fun _ => .pure (nowhere rfl)) (.ite (.pure (nowhere rfl)) (.error _))
  | dynamic | reserved => exact .error _

end Operands

namespace Instruction.Linear

variable {pool : Pool} {code : Bytes} {offset : Nat} {placed : List (Nat × Instruction)}

/-- What holds of every instruction whose operands are read holds of the instructions of a code array. -/
theorem forall_of_gives {property : Instruction → Prop}
    (gives : ∀ offset opcode, Gives (Operands.instruction pool code.length offset opcode : Operands Instruction) property)
    (linear : Linear pool code offset placed) : ∀ entry ∈ placed, property entry.2 := by
  induction linear with
  | finished => simp
  | @next offset opcode _ _ _ _ _ decoded _ ih =>
    exact List.forall_mem_cons.mpr ⟨gives offset opcode _ _ _ (operands_of_decode decoded), ih⟩

/-- The places that the instructions of a code array go on at lie inside it. -/
theorem targets_inside (linear : Linear pool code offset placed) :
    ∀ entry ∈ placed, ∀ target ∈ entry.2.targets, target.offset < code.length :=
  linear.forall_of_gives (Operands.gives_instruction pool code.length)

end Instruction.Linear

end JvmUnits
