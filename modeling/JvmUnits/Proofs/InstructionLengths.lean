import JvmUnits.Proofs.LinearDecoding

/-!
# Where instructions start

How many bytes an instruction takes can be seen from its bytes alone (`Instruction.operandLength`), without looking up what its
operands stand for. So the places where instructions start are known of every code array, also of one that can not be decoded
(`Instruction.Starts`). Decoding an instruction moves on by just this many bytes, and where a whole code array is decoded, it is
decoded from each of these places on (`Instruction.linear_of_starts`).
-/

namespace JvmUnits

/-- The signed number that the first four bytes write. -/
def leadingNumber (bytes : Bytes) : Int := signed 32 (bigEndian (bytes.take 4))

namespace Instruction

/-- The number of bytes that the operands of the instruction at an offset take; the bytes are those after its opcode. Only a
switch and the wide form of another instruction have lengths that these bytes tell. -/
def operandLength (offset : Nat) (opcode : UInt8) (operands : Bytes) : Nat :=
  match Opcode.format opcode with
  | .plain | .impliedSlot _ _ | .reserved => 0
  | .byte | .unsignedByte | .constant | .slot => 1
  | .short | .wideConstant | .increment | .branch | .field | .method | .type => 2
  | .multiArray => 3
  | .wideBranch _ | .interfaceMethod | .dynamic => 4
  | .wide => if operands.head? = some Opcode.iinc then 5 else 3
  | .tableSwitch =>
    let front := Operands.padding offset
    let entries := leadingNumber (operands.drop (front + 8)) - leadingNumber (operands.drop (front + 4)) + 1
    front + 12 + 4 * entries.toNat
  | .lookupSwitch =>
    let front := Operands.padding offset
    front + 8 + 8 * (leadingNumber (operands.drop (front + 4))).toNat

/-- The places of a code array where an instruction starts, or would start: its beginning, and behind each instruction. -/
inductive Starts (code : Bytes) : Nat → Prop where
  | first : Starts code 0
  | next {offset : Nat} {opcode : UInt8} {operands : Bytes} (start : Starts code offset)
      (here : code.drop offset = opcode :: operands) : Starts code (offset + 1 + operandLength offset opcode operands)

end Instruction

namespace Operands

variable {α β : Type}

/-- A reading in two steps succeeds when both steps do, one from where the other has stopped. -/
theorem bind_eq_ok {read : Operands α} {next : α → Operands β} {cursor after : Cursor} {value : β} :
    (read >>= next) cursor = .ok (value, after) ↔
      ∃ found middle, read cursor = .ok (found, middle) ∧ next found middle = .ok (value, after) := by
  change (read cursor).bind (fun p => next p.1 p.2) = _ ↔ _
  cases read cursor with
  | error e => simp [Except.bind]
  | ok p =>
    constructor
    · intro rest
      exact ⟨p.1, p.2, rfl, rest⟩
    · rintro ⟨found, middle, same, rest⟩
      cases same
      exact rest

/-- What the reader gives, it gives after it has moved on by a number of bytes. -/
def Moves (read : Operands α) (count : Nat) : Prop :=
  ∀ cursor value after, read cursor = .ok (value, after) → after = ⟨cursor.offset + count, cursor.rest.drop count⟩

namespace Moves

theorem pure (value : α) : Moves (pure value) 0 := by
  intro cursor found after read
  cases read
  rfl

theorem error (e : Error) (count : Nat) : Moves (fun _ => .error e : Operands α) count := by
  intro cursor found after read
  cases read

/-- Two readings in a row move as far as both together. -/
theorem bind {read : Operands α} {next : α → Operands β} {first second : Nat} (head : Moves read first)
    (tail : ∀ a, Moves (next a) second) : Moves (read >>= next) (first + second) := by
  intro cursor value after found
  obtain ⟨a, middle, read, rest⟩ := bind_eq_ok.mp found
  obtain rfl := head cursor a middle read
  rw [tail a _ value after rest, List.drop_drop, Nat.add_assoc]

theorem map {read : Operands α} {count : Nat} (f : α → β) (head : Moves read count) : Moves (f <$> read) count :=
  head.bind fun a => pure (f a)

/-- Readings of one size move by that size each time. -/
theorem times {read : Operands α} {size : Nat} (item : Moves read size) (count : Nat) :
    Moves (JvmUnits.times read count) (size * count) := by
  induction count with
  | zero => exact pure []
  | succ count ih =>
    have total : size * (count + 1) = size + (size * count + 0) := by rw [Nat.mul_succ, Nat.add_comm, Nat.add_zero]
    rw [total]
    exact item.bind fun first => ih.bind fun rest => pure (first :: rest)

end Moves

/-- A byte moves by one. -/
theorem moves_byte : Moves byte 1 := by
  rintro ⟨offset, _ | ⟨b, rest⟩⟩ value after read
  · cases read
  · cases read
    rfl

theorem moves_pass (count : Nat) : Moves (pass count) count := by
  intro cursor value after read
  cases read
  rfl

/-- A look into the pool moves nowhere. -/
theorem moves_lookUp (found : Except Error α) : Moves (lookUp found) 0 := by
  intro cursor value after read
  cases found with
  | error e => cases read
  | ok a =>
    cases read
    rfl

/-- A word moves by two, and so on for the other operands of fixed size. -/
theorem moves_word : Moves word 2 := moves_byte.bind fun _ => moves_byte.bind fun _ => .pure _

theorem moves_signedByte : Moves signedByte 1 := moves_byte.bind fun _ => .pure _

theorem moves_signedWord : Moves signedWord 2 := moves_word.bind fun _ => .pure _

theorem moves_signedDouble : Moves signedDouble 4 := moves_word.bind fun _ => moves_word.bind fun _ => .pure _

/-- A target is found without reading. -/
theorem moves_target (length base : Nat) (distance : Int) : Moves (target length base distance) 0 := by
  rw [target_eq]
  split
  · exact .error _ _
  · exact .pure _

theorem moves_wideTarget (length base : Nat) : Moves (wideTarget length base) 4 :=
  moves_signedDouble.bind fun distance => moves_target length base distance

/-- The length of a table is checked without reading. -/
theorem moves_expectEntries (kind : SwitchKind) (length count width : Nat) :
    Moves (expectEntries kind length count width) 0 := by
  intro cursor value after read
  rw [expectEntries_apply] at read
  split at read
  · cases read
  · cases read
    rfl

/-- The entries of a table move by their size each. -/
theorem moves_entries {entry : Operands α} {size : Nat} (each : Moves entry size) (kind : SwitchKind)
    (length count width : Nat) : Moves (entries kind length count width entry) (size * count) := by
  have behind := (moves_expectEntries kind length count width).bind fun _ => each.times count
  rwa [Nat.zero_add] at behind

/-- The number that is read is the one that the next four bytes write. -/
theorem value_of_signedDouble {cursor after : Cursor} {value : Int}
    (read : (signedDouble : Operands Int) cursor = .ok (value, after)) : value = leadingNumber cursor.rest := by
  rcases cursor with ⟨offset, _ | ⟨a, _ | ⟨b, _ | ⟨c, _ | ⟨d, rest⟩⟩⟩⟩⟩
  case cons.cons.cons.cons =>
    have same : signed 32 ((UInt16.ofNat (bigEndian [a, b])).toNat * 65536 + (UInt16.ofNat (bigEndian [c, d])).toNat) = value :=
      congrArg Prod.fst (Except.ok.inj read)
    have high : (UInt16.ofNat (bigEndian [a, b])).toNat = a.toNat * 256 + b.toNat := by
      have first := a.toNat_lt
      have second := b.toNat_lt
      simp only [bigEndian, List.foldl_cons, List.foldl_nil, UInt16.toNat_ofNat']
      omega
    have low : (UInt16.ofNat (bigEndian [c, d])).toNat = c.toNat * 256 + d.toNat := by
      have first := c.toNat_lt
      have second := d.toNat_lt
      simp only [bigEndian, List.foldl_cons, List.foldl_nil, UInt16.toNat_ofNat']
      omega
    have whole : bigEndian [a, b, c, d] = (a.toNat * 256 + b.toNat) * 65536 + (c.toNat * 256 + d.toNat) := by
      simp only [bigEndian, List.foldl_cons, List.foldl_nil]
      omega
    rw [← same, high, low, ← whole]
    rfl
  all_goals cases read

/-- The bounds of the keys tell how many entries of a switch follow. -/
theorem offset_of_tableSwitch {length base : Nat} {cursor after : Cursor} {instruction : Instruction}
    (read : (tableSwitch length base : Operands Instruction) cursor = .ok (instruction, after)) :
    after.offset = cursor.offset + (padding base + 12 + 4 * (leadingNumber (cursor.rest.drop (padding base + 8)) -
      leadingNumber (cursor.rest.drop (padding base + 4)) + 1).toNat) := by
  obtain ⟨_, start, passed, read⟩ := bind_eq_ok.mp read
  obtain rfl := moves_pass _ _ _ _ passed
  obtain ⟨default, second, aimed, read⟩ := bind_eq_ok.mp read
  obtain rfl := moves_wideTarget _ _ _ _ _ aimed
  obtain ⟨low, third, lowRead, read⟩ := bind_eq_ok.mp read
  obtain rfl := value_of_signedDouble lowRead
  obtain rfl := moves_signedDouble _ _ _ lowRead
  obtain ⟨high, entries, highRead, read⟩ := bind_eq_ok.mp read
  obtain rfl := value_of_signedDouble highRead
  obtain rfl := moves_signedDouble _ _ _ highRead
  rw [entryCount_bind] at read
  split at read
  · cases read
  · have table := (moves_entries (moves_wideTarget length base) _ _ _ _).bind (fun _ => .pure _) _ _ _ read
    rw [table]
    simp only [List.drop_drop, Nat.add_assoc, Nat.reduceAdd]
    omega

/-- The number of the keys that are listed tells how many entries of a switch follow. -/
theorem offset_of_lookupSwitch {length base : Nat} {cursor after : Cursor} {instruction : Instruction}
    (read : (lookupSwitch length base : Operands Instruction) cursor = .ok (instruction, after)) :
    after.offset =
      cursor.offset + (padding base + 8 + 8 * (leadingNumber (cursor.rest.drop (padding base + 4))).toNat) := by
  obtain ⟨_, start, passed, read⟩ := bind_eq_ok.mp read
  obtain rfl := moves_pass _ _ _ _ passed
  obtain ⟨default, second, aimed, read⟩ := bind_eq_ok.mp read
  obtain rfl := moves_wideTarget _ _ _ _ _ aimed
  obtain ⟨count, entries, counted, read⟩ := bind_eq_ok.mp read
  obtain rfl := value_of_signedDouble counted
  obtain rfl := moves_signedDouble _ _ _ counted
  split at read
  · cases read
  · have row : Moves (keyedTarget length base) 8 :=
      moves_signedDouble.bind fun _ => (moves_wideTarget length base).bind fun _ => .pure _
    have table := (moves_entries row _ _ _ _).bind (fun _ => .pure _) _ _ _ read
    rw [table]
    simp only [List.drop_drop, Nat.add_assoc, Nat.reduceAdd]
    omega

/-- The wide form takes the opcode of the other instruction and two bytes for each of its operands. -/
theorem offset_of_wide {cursor after : Cursor} {instruction : Instruction}
    (read : (wide : Operands Instruction) cursor = .ok (instruction, after)) :
    after.offset = cursor.offset + if cursor.rest.head? = some Opcode.iinc then 5 else 3 := by
  obtain ⟨opcode, start, first, read⟩ := bind_eq_ok.mp read
  have head : cursor.rest.head? = some opcode := by
    rcases cursor with ⟨offset, _ | ⟨b, rest⟩⟩
    · cases first
    · cases first
      rfl
  obtain rfl := moves_byte _ _ _ first
  obtain ⟨slot, second, slotRead, read⟩ := bind_eq_ok.mp read
  obtain rfl := moves_word _ _ _ slotRead
  split at read
  · rename_i increments
    obtain rfl := (moves_signedWord.bind fun _ => .pure _) _ _ _ read
    rw [head, if_pos (congrArg some increments)]
  · rename_i other
    rw [head, if_neg (by simpa using other)]
    split at read
    · cases read
      rfl
    · cases read

/-- Where its operands are read, an instruction takes as many bytes as its bytes tell. -/
theorem offset_of_instruction {pool : Pool} {length base : Nat} {opcode : UInt8} {cursor after : Cursor}
    {found : Instruction} (read : (instruction pool length base opcode : Operands Instruction) cursor = .ok (found, after)) :
    after.offset = cursor.offset + Instruction.operandLength base opcode cursor.rest := by
  have fixed {reader : Operands Instruction} {count : Nat} (moves : Moves reader count)
      (read : reader cursor = .ok (found, after)) : after.offset = cursor.offset + count := by rw [moves _ _ _ read]
  revert read
  unfold instruction Instruction.operandLength
  cases Opcode.format opcode with
  | plain | impliedSlot => exact fixed (.pure _)
  | byte => exact fixed (moves_signedByte.map _)
  | short => exact fixed (moves_signedWord.map _)
  | unsignedByte | slot => exact fixed (moves_byte.bind fun _ => .pure _)
  | constant => exact fixed (moves_byte.bind fun _ => (moves_lookUp _).bind fun _ => .pure _)
  | wideConstant | field | method => exact fixed (moves_word.bind fun _ => (moves_lookUp _).bind fun _ => .pure _)
  | increment => exact fixed (moves_byte.bind fun _ => moves_signedByte.bind fun _ => .pure _)
  | branch => exact fixed (moves_signedWord.bind fun _ => (moves_target _ _ _).map _)
  | wideBranch => exact fixed ((moves_wideTarget _ _).map _)
  | tableSwitch => exact offset_of_tableSwitch
  | lookupSwitch => exact offset_of_lookupSwitch
  | interfaceMethod =>
    exact fixed (moves_word.bind fun _ => (moves_lookUp _).bind fun _ => (moves_pass 2).bind fun _ => .pure _)
  | type => exact fixed (moves_word.bind fun _ => (moves_lookUp _).map _)
  | multiArray => exact fixed (moves_word.bind fun _ => (moves_lookUp _).bind fun _ => moves_byte.bind fun _ => .pure _)
  | wide => exact offset_of_wide
  | dynamic | reserved => exact fixed (.error _ _)

end Operands

namespace Instruction

variable {pool : Pool} {code : Bytes} {offset : Nat} {opcode : UInt8} {operands : Bytes}

/-- A code array that is decoded from an offset on has an instruction there, or ends there. -/
theorem decode_of_linear {placed : List (Nat × Instruction)} (linear : Linear pool code offset placed)
    (here : code.drop offset = opcode :: operands) :
    ∃ instruction after rest, decode pool code.length offset opcode operands = .ok (instruction, after) ∧
      Linear pool code after.offset rest := by
  cases linear with
  | finished =>
    rw [List.drop_length] at here
    cases here
  | next there decoded later =>
    rw [here] at there
    cases there
    exact ⟨_, _, _, decoded, later⟩

/-- A code array that is decoded from its beginning on is decoded from each place on where an instruction starts. -/
theorem linear_of_starts {placed : List (Nat × Instruction)} (linear : Linear pool code 0 placed) (start : Starts code offset) :
    ∃ rest, Linear pool code offset rest := by
  induction start with
  | first => exact ⟨placed, linear⟩
  | next _ here ih =>
    obtain ⟨_, before⟩ := ih
    obtain ⟨_, after, rest, decoded, later⟩ := decode_of_linear before here
    have moved := Operands.offset_of_instruction (operands_of_decode decoded)
    exact ⟨rest, moved ▸ later⟩

end Instruction

end JvmUnits
