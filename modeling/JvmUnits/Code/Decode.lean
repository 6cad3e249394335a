import JvmUnits.Bytes
import JvmUnits.Code.Instruction

/-!
# Decoding a code array

A code array is decoded from its start to its end, one instruction after the other. The operands of an instruction are read on
a machine (`OperandMachine`), whatever it is. The decoder runs on a cursor, which holds the offset that has been reached and the
bytes from there on. Decoding an instruction takes at least its opcode, so the sweep over a code array ends.
-/

namespace JvmUnits

/-- A machine that reads operands. It hands out the bytes of a code array one after the other, computes numbers and labels,
and makes room for the tables of switches. -/
class OperandMachine (m : Type → Type) extends Monad m where
  /-- Gives up. -/
  fail {α : Type} (error : Error) : m α
  /-- Reads a byte. -/
  byte : m UInt8
  /-- Passes over bytes without looking at them. -/
  pass (count : Nat) : m Unit
  /-- Computes the number of entries from a low key to a high one. -/
  entryCount (low high : Int) : m Int
  /-- Computes the place at a distance from an instruction. -/
  placeAt (base : Nat) (distance : Int) : m Int
  /-- The label of a place in the code array. -/
  labelAt (place : Int) : m Label
  /-- Checks that a table of entries of a given width is there, in a code array of a given length. -/
  expectEntries (kind : SwitchKind) (length count width : Nat) : m Unit
  /-- Makes room for the entries of a table. -/
  makeRoom (kind : SwitchKind) (count : Nat) : m Unit

namespace Operands

export OperandMachine (fail byte pass entryCount placeAt labelAt expectEntries makeRoom)

/-! ## Readers

They are written for any machine. -/

section

variable {m : Type → Type} [OperandMachine m]

/-- Gives up on a malformed code array. -/
def malformed {α : Type} (fault : ClassFault) : m α := fail (.malformedClassFile fault)

/-- What does not depend on the code array: a lookup in the constant pool. -/
def lookUp {α : Type} : Except Error α → m α
  | .error e => fail e
  | .ok value => pure value

/-- Reads an unsigned number of two bytes. -/
def word : m UInt16 := do
  let high ← byte
  let low ← byte
  pure (UInt16.ofNat (bigEndian [high, low]))

/-- Reads a signed number of one byte. -/
def signedByte : m Int := do
  let b ← byte
  pure (signed 8 b.toNat)

/-- Reads a signed number of two bytes. -/
def signedWord : m Int := do
  let w ← word
  pure (signed 16 w.toNat)

/-- Reads a signed number of four bytes. -/
def signedDouble : m Int := do
  let high ← word
  let low ← word
  pure (signed 32 (high.toNat * 65536 + low.toNat))

/-- The label at a distance from an instruction, in a code array of a given length. -/
def target (length base : Nat) (distance : Int) : m Label := do
  let place ← placeAt base distance
  if place < 0 || (length : Int) ≤ place then malformed (.branchOutside base place)
  else labelAt place

/-- Reads the distance to a label in four bytes. -/
def wideTarget (length base : Nat) : m Label := do
  let distance ← signedDouble
  target length base distance

/-- Reads a key with its label. -/
def keyedTarget (length base : Nat) : m (Int × Label) := do
  let key ← signedDouble
  let label ← wideTarget length base
  pure (key, label)

/-- Reads the entries of a table: they are checked to be there, then there is made room, then each is read. -/
def entries {α : Type} (kind : SwitchKind) (length count width : Nat) (entry : m α) : m (List α) := do
  expectEntries kind length count width
  makeRoom kind count
  times entry count

/-- The number of bytes after the opcode of a switch up to the next offset that four divides. -/
def padding (offset : Nat) : Nat := (4 - (offset + 1) % 4) % 4

/-- Reads a switch over a range of keys. -/
def tableSwitch (length base : Nat) : m Instruction := do
  pass (padding base)
  let default ← wideTarget length base
  let low ← signedDouble
  let high ← signedDouble
  let count ← entryCount low high
  if count < 0 then malformed .switchRange
  else do
    let targets ← entries .table length count.toNat 4 (wideTarget length base)
    pure (.tableSwitch low high default targets)

/-- Reads a switch over listed keys. -/
def lookupSwitch (length base : Nat) : m Instruction := do
  pass (padding base)
  let default ← wideTarget length base
  let count ← signedDouble
  if count < 0 then malformed .switchPairs
  else do
    let pairs ← entries .lookup length count.toNat 8 (keyedTarget length base)
    pure (.lookupSwitch default (pairs.map Prod.fst) (pairs.map Prod.snd))

/-- Reads an instruction with wide operands. -/
def wide : m Instruction := do
  let opcode ← byte
  let slot ← word
  if opcode = Opcode.iinc then do
    let amount ← signedWord
    pure (.increment slot amount)
  else if Opcode.namesVariable opcode then pure (.var opcode slot)
  else malformed (.wideOpcode opcode)

/-- Reads the operands of the instruction at an offset of a code array of a given length. -/
def instruction (pool : Pool) (length base : Nat) (opcode : UInt8) : m Instruction :=
  match Opcode.format opcode with
  | .plain => pure (.plain opcode)
  | .byte => .int opcode <$> signedByte
  | .short => .int opcode <$> signedWord
  | .unsignedByte => do
    let b ← byte
    pure (.int opcode b.toNat)
  | .constant => do
    let b ← byte
    let constant ← lookUp (pool.loadable b.toUInt16)
    pure (.load b.toUInt16 constant)
  | .wideConstant => do
    let index ← word
    let constant ← lookUp (pool.loadable index)
    pure (.load index constant)
  | .slot => do
    let slot ← byte
    pure (.var opcode slot.toUInt16)
  | .impliedSlot canonical slot => pure (.var canonical slot)
  | .increment => do
    let slot ← byte
    let amount ← signedByte
    pure (.increment slot.toUInt16 amount)
  | .branch => do
    let distance ← signedWord
    .jump opcode <$> target length base distance
  | .wideBranch canonical => .jump canonical <$> wideTarget length base
  | .tableSwitch => tableSwitch length base
  | .lookupSwitch => lookupSwitch length base
  | .field => do
    let index ← word
    let ref ← lookUp (pool.memberRef index)
    pure (.field opcode ref.owner ref.name ref.descriptor)
  | .method => do
    let index ← word
    let ref ← lookUp (pool.memberRef index)
    pure (.method opcode ref.owner ref.name ref.descriptor ref.inInterface)
  | .interfaceMethod => do
    let index ← word
    let ref ← lookUp (pool.memberRef index)
    pass 2
    pure (.method opcode ref.owner ref.name ref.descriptor ref.inInterface)
  | .dynamic => fail (.unsupportedConstruct .invokeDynamic)
  | .type => do
    let index ← word
    .type opcode <$> lookUp (pool.className index)
  | .multiArray => do
    let index ← word
    let descriptor ← lookUp (pool.className index)
    let dimensions ← byte
    pure (.multiArray descriptor dimensions)
  | .wide => wide
  | .reserved => fail (.unsupportedConstruct (.opcodeAt opcode base))

end

end Operands

/-! ## The machine with a cursor -/

/-- A place in a code array, with the bytes from there on. -/
structure Cursor where
  offset : Nat
  rest : Bytes
  deriving DecidableEq, Repr

/-- Reads the operands of an instruction with a cursor. Past the end of the code there is nothing left to read; passing over
bytes there is possible. -/
abbrev Operands := StateT Cursor (Except Error)

namespace Operands

/-- Reads the byte at the cursor. -/
def byteAtCursor : Operands UInt8
  | ⟨offset, b :: rest⟩ => .ok (b, ⟨offset + 1, rest⟩)
  | ⟨_, []⟩ => .error (.malformedClassFile .operandPastEnd)

/-- Numbers and labels are computed exactly. -/
instance : OperandMachine Operands where
  fail e := fun _ => .error e
  byte := byteAtCursor
  pass count := fun cursor => .ok ((), ⟨cursor.offset + count, cursor.rest.drop count⟩)
  entryCount low high := pure (high - low + 1)
  placeAt base distance := pure (base + distance)
  labelAt place := pure ⟨place.toNat⟩
  expectEntries kind length count width := fun cursor =>
    if length - cursor.offset < count * width then .error (.malformedClassFile (.switchEntries kind count))
    else .ok ((), cursor)
  makeRoom _ _ := pure ()

theorem pass_apply (count : Nat) (cursor : Cursor) :
    (pass count : Operands Unit) cursor = .ok ((), ⟨cursor.offset + count, cursor.rest.drop count⟩) :=
  rfl

theorem expectEntries_apply (kind : SwitchKind) (length count width : Nat) (cursor : Cursor) :
    (expectEntries kind length count width : Operands Unit) cursor =
      if length - cursor.offset < count * width then .error (.malformedClassFile (.switchEntries kind count))
      else .ok ((), cursor) :=
  rfl

/-- With a cursor, a label is a place that is computed and then checked. -/
theorem target_eq (length base : Nat) (distance : Int) :
    (target length base distance : Operands Label) =
      if (base : Int) + distance < 0 || (length : Int) ≤ base + distance then
        malformed (.branchOutside base (base + distance))
      else pure ⟨((base : Int) + distance).toNat⟩ :=
  rfl

/-- With a cursor, the number of entries is computed exactly. -/
theorem entryCount_bind {α : Type} (low high : Int) (next : Int → Operands α) :
    (entryCount low high >>= next) = next (high - low + 1) :=
  rfl

/-- With a cursor, making room for a table has no effect. -/
theorem entries_eq {α : Type} (kind : SwitchKind) (length count width : Nat) (entry : Operands α) :
    entries kind length count width entry = (expectEntries kind length count width >>= fun _ => times entry count) :=
  rfl

/-! ## The cursor moves forward -/

/-- Reading moves the cursor forward, over bytes that it takes from the rest. -/
def Advances {α : Type} (read : Operands α) : Prop :=
  ∀ cursor value after, read cursor = .ok (value, after) →
    ∃ count, after = ⟨cursor.offset + count, cursor.rest.drop count⟩

theorem Advances.pure {α : Type} (value : α) : Advances (pure value : Operands α) := by
  intro cursor v after h
  cases h
  exact ⟨0, rfl⟩

/-- Two readings in a row move on if both do. -/
theorem Advances.bind {α β : Type} {read : Operands α} {next : α → Operands β} (hr : Advances read)
    (hn : ∀ a, Advances (next a)) : Advances (read >>= next) := by
  intro cursor value after h
  change (read cursor).bind (fun p => next p.1 p.2) = _ at h
  cases hc : read cursor with
  | error e => rw [hc] at h; cases h
  | ok p =>
    rw [hc] at h
    obtain ⟨first, passed⟩ := hr cursor p.1 p.2 hc
    obtain ⟨second, rfl⟩ := hn p.1 p.2 value after h
    exact ⟨first + second, by rw [passed, List.drop_drop, Nat.add_assoc]⟩

theorem Advances.map {α β : Type} {read : Operands α} (f : α → β) (hr : Advances read) : Advances (f <$> read) :=
  Advances.bind hr fun a => Advances.pure (f a)

/-- A choice moves on if both ways do. -/
theorem Advances.ite {α : Type} {c : Prop} [Decidable c] {yes no : Operands α} (hy : Advances yes) (hn : Advances no) :
    Advances (if c then yes else no) := by
  split
  · exact hy
  · exact hn

theorem Advances.error {α : Type} (e : Error) : Advances (fun _ => .error e : Operands α) := by
  intro cursor value after h
  cases h

/-- A look into the pool stays where it is. -/
theorem advances_lookUp {α : Type} (found : Except Error α) : Advances (lookUp found) := by
  intro cursor value after h
  cases found with
  | error e => cases h
  | ok a => cases h; exact ⟨0, rfl⟩

/-- A byte moves on by one. -/
theorem advances_byte : Advances byte := by
  intro cursor value after h
  cases cursor with
  | mk offset rest =>
    cases rest with
    | nil => cases h
    | cons b rest => cases h; exact ⟨1, rfl⟩

theorem advances_pass (count : Nat) : Advances (pass count) := by
  intro cursor value after h
  cases h
  exact ⟨count, rfl⟩

theorem advances_word : Advances word :=
  Advances.bind advances_byte fun _ => Advances.bind advances_byte fun _ => Advances.pure _

theorem advances_signedByte : Advances signedByte := Advances.bind advances_byte fun _ => Advances.pure _

theorem advances_signedWord : Advances signedWord := Advances.bind advances_word fun _ => Advances.pure _

theorem advances_signedDouble : Advances signedDouble :=
  Advances.bind advances_word fun _ => Advances.bind advances_word fun _ => Advances.pure _

theorem advances_target (length base : Nat) (distance : Int) : Advances (target length base distance) :=
  Advances.bind (Advances.pure _) fun _ => Advances.ite (Advances.error _) (Advances.pure _)

theorem advances_wideTarget (length base : Nat) : Advances (wideTarget length base) :=
  Advances.bind advances_signedDouble fun _ => advances_target _ _ _

theorem advances_keyedTarget (length base : Nat) : Advances (keyedTarget length base) :=
  Advances.bind advances_signedDouble fun _ => Advances.bind (advances_wideTarget _ _) fun _ => Advances.pure _

theorem advances_expectEntries (kind : SwitchKind) (length count width : Nat) :
    Advances (expectEntries kind length count width) := by
  intro cursor value after h
  rw [expectEntries_apply] at h
  split at h
  · cases h
  · cases h; exact ⟨0, rfl⟩

/-- Readings of one kind in a row move on. -/
theorem advances_times {α : Type} {read : Operands α} (hr : Advances read) (count : Nat) :
    Advances (times read count) := by
  induction count with
  | zero => exact Advances.pure _
  | succ n ih => exact Advances.bind hr fun _ => Advances.bind ih fun _ => Advances.pure _

/-- The entries of a table move on. -/
theorem advances_entries {α : Type} (kind : SwitchKind) (length count width : Nat) {entry : Operands α}
    (each : Advances entry) : Advances (entries kind length count width entry) :=
  Advances.bind (advances_expectEntries _ _ _ _) fun _ => Advances.bind (Advances.pure _) fun _ => advances_times each count

theorem advances_tableSwitch (length base : Nat) : Advances (tableSwitch length base) :=
  Advances.bind (advances_pass _) fun _ => Advances.bind (advances_wideTarget _ _) fun _ =>
    Advances.bind advances_signedDouble fun _ => Advances.bind advances_signedDouble fun _ =>
      Advances.bind (Advances.pure _) fun _ => Advances.ite (Advances.error _)
        (Advances.bind (advances_entries _ _ _ _ (advances_wideTarget _ _)) fun _ => Advances.pure _)

theorem advances_lookupSwitch (length base : Nat) : Advances (lookupSwitch length base) :=
  Advances.bind (advances_pass _) fun _ => Advances.bind (advances_wideTarget _ _) fun _ =>
    Advances.bind advances_signedDouble fun _ => Advances.ite (Advances.error _)
      (Advances.bind (advances_entries _ _ _ _ (advances_keyedTarget _ _)) fun _ => Advances.pure _)

theorem advances_wide : Advances wide :=
  Advances.bind advances_byte fun _ => Advances.bind advances_word fun _ =>
    Advances.ite (Advances.bind advances_signedWord fun _ => Advances.pure _)
      (Advances.ite (Advances.pure _) (Advances.error _))

/-- Reading the operands of an instruction moves the cursor forward. -/
theorem advances_instruction (pool : Pool) (length base : Nat) (opcode : UInt8) :
    Advances (instruction pool length base opcode) := by
  unfold instruction
  cases Opcode.format opcode with
  | plain => exact Advances.pure _
  | byte => exact Advances.map _ advances_signedByte
  | short => exact Advances.map _ advances_signedWord
  | unsignedByte => exact Advances.bind advances_byte fun _ => Advances.pure _
  | constant =>
    exact Advances.bind advances_byte fun _ => Advances.bind (advances_lookUp _) fun _ => Advances.pure _
  | wideConstant =>
    exact Advances.bind advances_word fun _ => Advances.bind (advances_lookUp _) fun _ => Advances.pure _
  | slot => exact Advances.bind advances_byte fun _ => Advances.pure _
  | impliedSlot => exact Advances.pure _
  | increment => exact Advances.bind advances_byte fun _ => Advances.bind advances_signedByte fun _ => Advances.pure _
  | branch => exact Advances.bind advances_signedWord fun _ => Advances.map _ (advances_target _ _ _)
  | wideBranch => exact Advances.map _ (advances_wideTarget _ _)
  | tableSwitch => exact advances_tableSwitch _ _
  | lookupSwitch => exact advances_lookupSwitch _ _
  | field => exact Advances.bind advances_word fun _ => Advances.bind (advances_lookUp _) fun _ => Advances.pure _
  | method => exact Advances.bind advances_word fun _ => Advances.bind (advances_lookUp _) fun _ => Advances.pure _
  | interfaceMethod =>
    exact Advances.bind advances_word fun _ => Advances.bind (advances_lookUp _) fun _ =>
      Advances.bind (advances_pass _) fun _ => Advances.pure _
  | dynamic => exact Advances.error _
  | type => exact Advances.bind advances_word fun _ => Advances.map _ (advances_lookUp _)
  | multiArray =>
    exact Advances.bind advances_word fun _ => Advances.bind (advances_lookUp _) fun _ =>
      Advances.bind advances_byte fun _ => Advances.pure _
  | wide => exact advances_wide
  | reserved => exact Advances.error _

end Operands

namespace Instruction

/-- Decodes the instruction with a given opcode at an offset of a code array of a given length; the bytes are those after the
opcode. Gives the instruction and the place after it. -/
def decode (pool : Pool) (length offset : Nat) (opcode : UInt8) (bytes : Bytes) :
    Except Error (Instruction × Cursor) :=
  match (Operands.instruction pool length offset opcode : Operands Instruction) ⟨offset + 1, bytes⟩ with
  | .error e => .error e
  | .ok (instruction, after) =>
    if length < after.offset then .error (.malformedClassFile .instructionPastEnd) else .ok (instruction, after)

/-- The place after an instruction lies behind its opcode and not past the end. -/
theorem decode_advances {pool : Pool} {length offset : Nat} {opcode : UInt8} {bytes : Bytes} {instruction : Instruction}
    {after : Cursor} (h : decode pool length offset opcode bytes = .ok (instruction, after)) :
    after.offset ≤ length ∧ ∃ count, after = ⟨offset + 1 + count, bytes.drop count⟩ := by
  unfold decode at h
  split at h
  · cases h
  · rename_i i a hi
    split at h
    · cases h
    · rename_i inside
      cases h
      exact ⟨Nat.le_of_not_lt inside, Operands.advances_instruction pool length offset opcode _ _ _ hi⟩

/-- What is left after an instruction is no longer than what followed its opcode. -/
theorem decode_length {pool : Pool} {length offset : Nat} {opcode : UInt8} {bytes : Bytes} {instruction : Instruction}
    {after : Cursor} (h : decode pool length offset opcode bytes = .ok (instruction, after)) :
    after.rest.length ≤ bytes.length := by
  obtain ⟨_, count, rfl⟩ := decode_advances h
  exact (List.drop_sublist count bytes).length_le

/-- Decodes the instructions of a code array of a given length, from an offset on, each with its offset. -/
def sweep (pool : Pool) (length offset : Nat) (bytes : Bytes) : Except Error (List (Nat × Instruction)) :=
  match bytes with
  | [] => .ok []
  | opcode :: operands =>
    match h : decode pool length offset opcode operands with
    | .error e => .error e
    | .ok (instruction, after) =>
      have : after.rest.length < operands.length + 1 := Nat.lt_succ_of_le (decode_length h)
      (sweep pool length after.offset after.rest).map ((offset, instruction) :: ·)
termination_by bytes.length

/-- Decodes a whole code array. -/
def decodeAll (pool : Pool) (code : Bytes) : Except Error (List (Nat × Instruction)) :=
  sweep pool code.length 0 code

end Instruction

end JvmUnits
