import JvmUnits.Code.Decode

/-!
# Linear decoding

`Instruction.Linear` says, of the code array alone, which instructions stand in it when it is read from an offset to its end:
each is what decoding gives at its own offset, and the next one stands where it ends. Decoding a whole code array gives exactly
these (`Instruction.decodeAll_eq_ok_iff`), so their offsets ascend inside the code array.
-/

namespace JvmUnits

namespace Instruction

/-- The instructions of a code array from an offset to its end, each with its offset. -/
inductive Linear (pool : Pool) (code : Bytes) : Nat → List (Nat × Instruction) → Prop where
  | finished : Linear pool code code.length []
  | next {offset : Nat} {opcode : UInt8} {operands : Bytes} {instruction : Instruction} {after : Cursor}
      {rest : List (Nat × Instruction)} (here : code.drop offset = opcode :: operands)
      (decoded : decode pool code.length offset opcode operands = .ok (instruction, after))
      (later : Linear pool code after.offset rest) : Linear pool code offset ((offset, instruction) :: rest)

variable {pool : Pool} {code : Bytes} {offset : Nat} {placed : List (Nat × Instruction)}

/-- The operands of an instruction that is decoded are read from the byte after its opcode on. -/
theorem operands_of_decode {length : Nat} {opcode : UInt8} {operands : Bytes} {instruction : Instruction}
    {after : Cursor} (decoded : decode pool length offset opcode operands = .ok (instruction, after)) :
    (Operands.instruction pool length offset opcode : Operands Instruction) ⟨offset + 1, operands⟩ =
      .ok (instruction, after) := by
  unfold decode at decoded
  split at decoded
  · cases decoded
  · rename_i found place read
    split at decoded
    · cases decoded
    · cases decoded
      exact read

/-- The bytes behind an instruction are those of the code array from the place after it. -/
theorem rest_of_decode {opcode : UInt8} {operands : Bytes} {instruction : Instruction} {after : Cursor}
    (here : code.drop offset = opcode :: operands)
    (decoded : decode pool code.length offset opcode operands = .ok (instruction, after)) :
    after.rest = code.drop after.offset := by
  obtain ⟨_, count, rfl⟩ := decode_advances decoded
  have behind : code.drop (offset + 1) = operands := by rw [← List.drop_drop, here, List.drop_one, List.tail_cons]
  rw [← List.drop_drop, behind]

/-- What a sweep finds is decoded in a row, each instruction where the one before it ends. -/
theorem linear_of_sweep {bytes : Bytes} (inside : offset ≤ code.length) (here : bytes = code.drop offset)
    (swept : sweep pool code.length offset bytes = .ok placed) : Linear pool code offset placed := by
  fun_induction sweep pool code.length offset bytes generalizing placed with
  | case1 offset =>
    cases swept
    have past : code.length ≤ offset := List.drop_eq_nil_iff.mp here.symm
    rw [Nat.le_antisymm inside past]
    exact .finished
  | case2 offset opcode operands e failed => cases swept
  | case3 offset opcode operands instruction after decoded shorter ih =>
    cases later : sweep pool code.length after.offset after.rest with
    | error e =>
      rw [later] at swept
      cases swept
    | ok rest =>
      rw [later] at swept
      cases swept
      exact .next here.symm decoded (ih (decode_advances decoded).1 (rest_of_decode here.symm decoded) later)

/-- Instructions that are decoded in a row are found by a sweep. -/
theorem sweep_of_linear (h : Linear pool code offset placed) :
    sweep pool code.length offset (code.drop offset) = .ok placed := by
  induction h with
  | finished => rw [List.drop_length, sweep]
  | next here decoded _ ih =>
    rw [← rest_of_decode here decoded] at ih
    rw [here, sweep]
    split
    · rename_i e failed
      rw [decoded] at failed
      cases failed
    · rename_i found place again
      rw [decoded] at again
      cases again
      rw [ih]
      rfl

/-- Decoding a whole code array gives its instructions from the first to the last. -/
theorem decodeAll_eq_ok_iff : decodeAll pool code = .ok placed ↔ Linear pool code 0 placed :=
  ⟨linear_of_sweep (Nat.zero_le _) rfl, sweep_of_linear⟩

namespace Linear

/-- The instructions from an offset on stand between this offset and the end of the code array. -/
theorem bounds (h : Linear pool code offset placed) :
    ∀ place ∈ placed.map Prod.fst, offset ≤ place ∧ place < code.length := by
  induction h with
  | finished => simp
  | @next offset opcode operands instruction after rest here decoded _ ih =>
    have inside : offset < code.length := by
      have nonempty : 0 < (code.drop offset).length := by simp [here]
      rw [List.length_drop] at nonempty
      omega
    have behind : offset < after.offset := by
      obtain ⟨_, count, rfl⟩ := decode_advances decoded
      simp only
      omega
    intro place mem
    rcases List.mem_cons.mp mem with rfl | mem
    · exact ⟨Nat.le_refl _, inside⟩
    · have := ih place mem
      omega

/-- Instructions that are decoded in a row stand in ascending order. -/
theorem ascending (h : Linear pool code offset placed) : (placed.map Prod.fst).Pairwise (· < ·) := by
  induction h with
  | finished => exact List.Pairwise.nil
  | @next offset _ _ _ after rest _ decoded later ih =>
    refine List.Pairwise.cons (fun place mem => ?_) ih
    obtain ⟨_, count, rfl⟩ := decode_advances decoded
    have := (later.bounds place mem).1
    simp only at this
    omega

end Linear

end Instruction

end JvmUnits
