import JvmUnits.Proofs.LinearDecoding
import Mathlib.Data.List.Forall2

/-!
# Encodings of instructions

`Instruction.Encodes` says which bytes write an instruction at an offset of a code array: one instruction has a short form, a
wide form or a long form beside the plain one, numbers are written with the most significant byte first, labels by their
distance, and the tables of switches at offsets that four divides. Decoding gives back what was written, whatever the forms
(`Instruction.decodeAll_codeOf`).

The proof follows the readers of operands. `Operands.Reads` says that a reader takes exactly the given bytes, wherever they
stand and whatever follows; it holds of each reader for the bytes that write its value, and is kept when readers are put
together.
-/

namespace JvmUnits

/-! ## Numbers in bytes -/

/-- A word of two bytes, the most significant first. -/
def wordBytes (word : UInt16) : Bytes := [UInt8.ofNat (word.toNat / 256), UInt8.ofNat word.toNat]

/-- A word of four bytes, the most significant first. -/
def doubleBytes (word : UInt32) : Bytes :=
  wordBytes (UInt16.ofNat (word.toNat / 65536)) ++ wordBytes (UInt16.ofNat word.toNat)

@[simp] theorem length_wordBytes (word : UInt16) : (wordBytes word).length = 2 := rfl

@[simp] theorem length_doubleBytes (word : UInt32) : (doubleBytes word).length = 4 := rfl

/-- A word is the number that its bytes are. -/
theorem bigEndian_wordBytes (word : UInt16) : bigEndian (wordBytes word) = word.toNat := by
  have bound := word.toNat_lt
  simp only [bigEndian, wordBytes, List.foldl_cons, List.foldl_nil, UInt8.toNat_ofNat']
  omega

/-- A word stands for the signed number with its bits. -/
theorem signed_toNat (less : Nat) (word : BitVec (less + 1)) : signed (less + 1) word.toNat = word.toInt := by
  have double : 2 ^ (less + 1) = 2 * 2 ^ less := by rw [Nat.pow_succ, Nat.mul_comm]
  rw [BitVec.toInt_eq_toNat_cond, signed, Nat.one_shiftLeft, Nat.one_shiftLeft, Nat.add_sub_cancel]
  split <;> split <;> omega

/-! ## Reading what was written -/

namespace Operands

variable {α β : Type} {length : Nat}

/-- In a code array of a given length, reading these bytes gives the value and takes no more than the bytes. -/
def Reads (length : Nat) (read : Operands α) (bytes : Bytes) (value : α) : Prop :=
  ∀ offset rest, offset + (bytes ++ rest).length = length →
    read ⟨offset, bytes ++ rest⟩ = .ok (value, ⟨offset + bytes.length, rest⟩)

theorem Reads.pure (value : α) : Reads length (pure value) [] value := fun _ _ _ => rfl

/-- Bytes side by side are read by readers in a row. -/
theorem Reads.bind {read : Operands α} {next : α → Operands β} {first second : Bytes} {a : α} {b : β}
    (one : Reads length read first a) (two : Reads length (next a) second b) :
    Reads length (read >>= next) (first ++ second) b := by
  intro offset rest inside
  rw [List.append_assoc] at inside ⊢
  have behind : offset + first.length + (second ++ rest).length = length := by
    simp only [List.length_append] at inside ⊢
    omega
  change (read ⟨offset, first ++ (second ++ rest)⟩).bind (fun found => next found.1 found.2) = _
  rw [one offset (second ++ rest) inside]
  change next a ⟨offset + first.length, second ++ rest⟩ = _
  rw [two (offset + first.length) rest behind, List.length_append, Nat.add_assoc]

theorem Reads.bind_pure {read : Operands α} {bytes : Bytes} {a : α} (f : α → β) (h : Reads length read bytes a) :
    Reads length (read >>= fun a => Pure.pure (f a)) bytes (f a) := by
  have mapped : Reads length (read >>= fun a => Pure.pure (f a)) (bytes ++ []) (f a) := h.bind (Reads.pure (f a))
  rwa [List.append_nil] at mapped

theorem Reads.map {read : Operands α} {bytes : Bytes} {a : α} (f : α → β) (h : Reads length read bytes a) :
    Reads length (f <$> read) bytes (f a) := h.bind_pure f

theorem reads_byte (b : UInt8) : Reads length byte [b] b := fun _ _ _ => rfl

/-- A constant that is found takes no bytes. -/
theorem reads_lookUp {found : Except Error α} {value : α} (h : found = .ok value) : Reads length (lookUp found) [] value := by
  subst h
  exact fun _ _ _ => rfl

/-- Bytes that are passed over. -/
theorem reads_pass (bytes : Bytes) : Reads length (pass bytes.length) bytes () := by
  intro offset rest _
  rw [pass_apply, List.drop_left]

/-- A word that is written is read back. -/
theorem reads_word (w : UInt16) : Reads length word (wordBytes w) w := by
  have read : Reads length word (wordBytes w) (UInt16.ofNat (bigEndian (wordBytes w))) :=
    (reads_byte _).bind ((reads_byte _).bind_pure _)
  rwa [bigEndian_wordBytes, UInt16.ofNat_toNat] at read

/-- A signed number that is written is read back, whatever its size. -/
theorem reads_signedByte (value : Int8) : Reads length signedByte [value.toUInt8] value.toInt := by
  have read : Reads length signedByte [value.toUInt8] (signed 8 value.toUInt8.toNat) := (reads_byte _).bind_pure _
  rwa [show signed 8 value.toUInt8.toNat = value.toInt from signed_toNat 7 value.toBitVec] at read

theorem reads_signedWord (value : Int16) : Reads length signedWord (wordBytes value.toUInt16) value.toInt := by
  have read : Reads length signedWord (wordBytes value.toUInt16) (signed 16 value.toUInt16.toNat) :=
    (reads_word _).bind_pure _
  rwa [show signed 16 value.toUInt16.toNat = value.toInt from signed_toNat 15 value.toBitVec] at read

theorem reads_signedDouble (value : Int32) : Reads length signedDouble (doubleBytes value.toUInt32) value.toInt := by
  have bound := value.toUInt32.toNat_lt
  have read : Reads length signedDouble (doubleBytes value.toUInt32)
      (signed 32 ((UInt16.ofNat (value.toUInt32.toNat / 65536)).toNat * 65536 + (UInt16.ofNat value.toUInt32.toNat).toNat)) :=
    (reads_word _).bind ((reads_word _).bind_pure _)
  have number : (UInt16.ofNat (value.toUInt32.toNat / 65536)).toNat * 65536 + (UInt16.ofNat value.toUInt32.toNat).toNat =
      value.toUInt32.toNat := by
    simp only [UInt16.toNat_ofNat']
    omega
  rwa [number, show signed 32 value.toUInt32.toNat = value.toInt from signed_toNat 31 value.toBitVec] at read

/-- A list of items is read item by item. -/
theorem reads_times {read : Operands β} {write : α → Bytes} {items : List α} {values : List β}
    (each : List.Forall₂ (fun item value => Reads length read (write item) value) items values) :
    Reads length (times read values.length) (items.flatMap write) values := by
  induction each with
  | nil => exact Reads.pure []
  | cons first _ ih => exact first.bind (ih.bind_pure _)

/-- The label at a distance from an offset lies inside the code array. -/
structure Leads (length base : Nat) (distance : Int) (label : Label) : Prop where
  reached : (label.offset : Int) = base + distance
  inside : label.offset < length

/-- A target takes no bytes once its distance is known. -/
theorem reads_target {base : Nat} {distance : Int} {label : Label} (leads : Leads length base distance label) :
    Reads length (target length base distance) [] label := by
  obtain ⟨reached, inside⟩ := leads
  have valid : ¬ ((base : Int) + distance < 0 || (length : Int) ≤ base + distance) = true := by
    simp only [Bool.or_eq_true, decide_eq_true_eq]
    omega
  have place : (⟨((base : Int) + distance).toNat⟩ : Label) = label := by rw [← reached, Int.toNat_natCast]
  intro offset rest _
  rw [target_eq, if_neg valid, place]
  rfl

theorem reads_wideTarget {base : Nat} {distance : Int32} {label : Label} (leads : Leads length base distance.toInt label) :
    Reads length (wideTarget length base) (doubleBytes distance.toUInt32) label :=
  (reads_signedDouble distance).bind (reads_target leads)

/-- A table that is there may be read. -/
theorem Reads.entries {kind : SwitchKind} {count width : Nat} {entry : Operands α} {bytes : Bytes} {values : List α}
    (fits : count * width ≤ bytes.length) (h : Reads length (times entry count) bytes values) :
    Reads length (entries kind length count width entry) bytes values := by
  intro offset rest inside
  have there : ¬ length - offset < count * width := by
    rw [List.length_append] at inside
    omega
  have checked : (expectEntries kind length count width : Operands Unit) ⟨offset, bytes ++ rest⟩ =
      .ok ((), ⟨offset, bytes ++ rest⟩) := if_neg there
  rw [entries_eq]
  change ((expectEntries kind length count width : Operands Unit) ⟨offset, bytes ++ rest⟩).bind
    (fun found => times entry count found.2) = _
  rw [checked]
  exact h offset rest inside

end Operands

/-! ## The instruction set -/

/-- The types of local variables, in the order of their opcodes. -/
inductive VariableType where
  | int | long | float | double | reference
  deriving DecidableEq, Repr

/-- The place of a type in the order. -/
def VariableType.index : VariableType → UInt8
  | int => 0
  | long => 1
  | float => 2
  | double => 3
  | reference => 4

/-- What an instruction does with a local variable. -/
inductive VariableUse where
  | load (type : VariableType)
  | store (type : VariableType)
  | ret
  deriving DecidableEq, Repr

namespace VariableUse

/-- The opcode of the form that names the variable. -/
def opcode : VariableUse → UInt8
  | load type => 0x15 + type.index
  | store type => 0x36 + type.index
  | ret => 0xa9

/-- The opcode of the form for one of the first four variables, if there is one. -/
def shortOpcode? : VariableUse → Fin 4 → Option UInt8
  | load type, slot => some (0x1a + 4 * type.index + UInt8.ofNat slot)
  | store type, slot => some (0x3b + 4 * type.index + UInt8.ofNat slot)
  | ret, _ => none

end VariableUse

namespace Opcode

/-- The instruction has no operands: constants, loads from and stores to arrays, work on the stack, arithmetic, conversions and
comparisons, returns, the length of an array, throwing, and monitors. -/
def isOperandless (opcode : UInt8) : Bool :=
  opcode ≤ 0x0f || (0x2e ≤ opcode && opcode ≤ 0x35) || (0x4f ≤ opcode && opcode ≤ 0x83) ||
    (0x85 ≤ opcode && opcode ≤ 0x98) || (0xac ≤ opcode && opcode ≤ 0xb1) || opcode == 0xbe || opcode == 0xbf ||
    opcode == 0xc2 || opcode == 0xc3

/-- The instruction goes to a label that is given by two bytes. -/
def isBranch (opcode : UInt8) : Bool := (0x99 ≤ opcode && opcode ≤ 0xa8) || opcode == 0xc6 || opcode == 0xc7

/-- The instruction names a field. -/
def isFieldAccess (opcode : UInt8) : Bool := 0xb2 ≤ opcode && opcode ≤ 0xb5

/-- The instruction names a method, and calls it through no interface. -/
def isCall (opcode : UInt8) : Bool := 0xb6 ≤ opcode && opcode ≤ 0xb8

/-- The instruction names a class. -/
def isOnType (opcode : UInt8) : Bool := opcode == 0xbb || opcode == 0xbd || opcode == 0xc0 || opcode == 0xc1

/-- What holds of the numbers up to 255 holds of all opcodes. -/
theorem forall_of_fin {p : UInt8 → Prop} (h : ∀ n : Fin 256, p (UInt8.ofFin n)) (opcode : UInt8) : p opcode := h opcode.toFin

/-- An opcode without operands has the plain format; so each family of opcodes has its format. -/
theorem format_of_isOperandless : ∀ {opcode : UInt8}, isOperandless opcode = true → format opcode = .plain :=
  @(forall_of_fin (by decide +kernel))

theorem format_of_isBranch : ∀ {opcode : UInt8}, isBranch opcode = true → format opcode = .branch :=
  @(forall_of_fin (by decide +kernel))

theorem format_of_isFieldAccess : ∀ {opcode : UInt8}, isFieldAccess opcode = true → format opcode = .field :=
  @(forall_of_fin (by decide +kernel))

theorem format_of_isCall : ∀ {opcode : UInt8}, isCall opcode = true → format opcode = .method :=
  @(forall_of_fin (by decide +kernel))

theorem format_of_isOnType : ∀ {opcode : UInt8}, isOnType opcode = true → format opcode = .type :=
  @(forall_of_fin (by decide +kernel))

theorem format_variable (use : VariableUse) : format use.opcode = .slot := by
  rcases use with (_ | _ | _ | _ | _) | (_ | _ | _ | _ | _) | _ <;> rfl

theorem namesVariable_variable (use : VariableUse) : namesVariable use.opcode = true := by
  rcases use with (_ | _ | _ | _ | _) | (_ | _ | _ | _ | _) | _ <;> rfl

/-- The opcode of a short form has its slot in itself. -/
theorem format_shortVariable : ∀ {use : VariableUse} {slot : Fin 4} {opcode : UInt8}, use.shortOpcode? slot = some opcode →
    format opcode = .impliedSlot use.opcode (UInt16.ofNat slot) := by
  intro use slot opcode short
  cases use with
  | ret => cases short
  | load type =>
    cases short
    revert slot
    cases type <;> decide +kernel
  | store type =>
    cases short
    revert slot
    cases type <;> decide +kernel

end Opcode

/-! ## Encodings -/

namespace Instruction

open Operands

/-- At an offset of a code array of a given length the bytes write the instruction. One instruction has an encoding for each
of its forms: with the variable in the opcode, in one byte or behind the wide prefix, with a constant or a label in few bytes
or in many. -/
inductive Encodes (pool : Pool) (length offset : Nat) : Instruction → Bytes → Prop where
  | plain {opcode : UInt8} (kind : Opcode.isOperandless opcode = true) : Encodes pool length offset (.plain opcode) [opcode]
  | byte (value : Int8) : Encodes pool length offset (.int 0x10 value.toInt) [0x10, value.toUInt8]
  | short (value : Int16) : Encodes pool length offset (.int 0x11 value.toInt) (0x11 :: wordBytes value.toUInt16)
  | newArray (element : UInt8) : Encodes pool length offset (.int 0xbc element.toNat) [0xbc, element]
  | load {index : UInt8} {constant : Loadable} (found : pool.loadable index.toUInt16 = .ok constant) :
      Encodes pool length offset (.load index.toUInt16 constant) [0x12, index]
  | wideLoad {opcode : UInt8} {index : UInt16} {constant : Loadable} (form : opcode = 0x13 ∨ opcode = 0x14)
      (found : pool.loadable index = .ok constant) :
      Encodes pool length offset (.load index constant) (opcode :: wordBytes index)
  | var (use : VariableUse) (slot : UInt8) :
      Encodes pool length offset (.var use.opcode slot.toUInt16) [use.opcode, slot]
  | shortVar {use : VariableUse} {slot : Fin 4} {opcode : UInt8} (form : use.shortOpcode? slot = some opcode) :
      Encodes pool length offset (.var use.opcode (UInt16.ofNat slot)) [opcode]
  | wideVar (use : VariableUse) (slot : UInt16) :
      Encodes pool length offset (.var use.opcode slot) (0xc4 :: use.opcode :: wordBytes slot)
  | increment (slot : UInt8) (amount : Int8) :
      Encodes pool length offset (.increment slot.toUInt16 amount.toInt) [0x84, slot, amount.toUInt8]
  | wideIncrement (slot : UInt16) (amount : Int16) :
      Encodes pool length offset (.increment slot amount.toInt) (0xc4 :: 0x84 :: (wordBytes slot ++ wordBytes amount.toUInt16))
  | branch {opcode : UInt8} {distance : Int16} {target : Label} (kind : Opcode.isBranch opcode = true)
      (leads : Leads length offset distance.toInt target) :
      Encodes pool length offset (.jump opcode target) (opcode :: wordBytes distance.toUInt16)
  | wideBranch {opcode canonical : UInt8} {distance : Int32} {target : Label}
      (form : opcode = 0xc8 ∧ canonical = 0xa7 ∨ opcode = 0xc9 ∧ canonical = 0xa8)
      (leads : Leads length offset distance.toInt target) :
      Encodes pool length offset (.jump canonical target) (opcode :: doubleBytes distance.toUInt32)
  | tableSwitch {fill : Bytes} {low high distance : Int32} {distances : List Int32} {default : Label} {targets : List Label}
      (short : fill.length < 4) (aligned : 4 ∣ offset + 1 + fill.length)
      (leads : Leads length offset distance.toInt default)
      (each : List.Forall₂ (fun distance target => Leads length offset distance.toInt target) distances targets)
      (count : (targets.length : Int) = high.toInt - low.toInt + 1) :
      Encodes pool length offset (.tableSwitch low.toInt high.toInt default targets)
        (0xaa :: (fill ++ (doubleBytes distance.toUInt32 ++ (doubleBytes low.toUInt32 ++ (doubleBytes high.toUInt32 ++
          distances.flatMap fun distance => doubleBytes distance.toUInt32)))))
  | lookupSwitch {fill : Bytes} {count distance : Int32} {pairs : List (Int32 × Int32)} {default : Label} {targets : List Label}
      (short : fill.length < 4) (aligned : 4 ∣ offset + 1 + fill.length)
      (leads : Leads length offset distance.toInt default)
      (each : List.Forall₂ (fun pair target => Leads length offset pair.2.toInt target) pairs targets)
      (counted : count.toInt = pairs.length) :
      Encodes pool length offset (.lookupSwitch default (pairs.map fun pair => pair.1.toInt) targets)
        (0xab :: (fill ++ (doubleBytes distance.toUInt32 ++ (doubleBytes count.toUInt32 ++
          pairs.flatMap fun pair => doubleBytes pair.1.toUInt32 ++ doubleBytes pair.2.toUInt32))))
  | field {opcode : UInt8} {index : UInt16} {ref : MemberRef} (kind : Opcode.isFieldAccess opcode = true)
      (found : pool.memberRef index = .ok ref) :
      Encodes pool length offset (.field opcode ref.owner ref.name ref.descriptor) (opcode :: wordBytes index)
  | method {opcode : UInt8} {index : UInt16} {ref : MemberRef} (kind : Opcode.isCall opcode = true)
      (found : pool.memberRef index = .ok ref) :
      Encodes pool length offset (.method opcode ref.owner ref.name ref.descriptor ref.inInterface) (opcode :: wordBytes index)
  | interfaceMethod {index : UInt16} {ref : MemberRef} (count reserved : UInt8) (found : pool.memberRef index = .ok ref) :
      Encodes pool length offset (.method 0xb9 ref.owner ref.name ref.descriptor ref.inInterface)
        (0xb9 :: (wordBytes index ++ [count, reserved]))
  | type {opcode : UInt8} {index : UInt16} {name : String} (kind : Opcode.isOnType opcode = true)
      (found : pool.className index = .ok name) : Encodes pool length offset (.type opcode name) (opcode :: wordBytes index)
  | multiArray {index : UInt16} {name : String} (dimensions : UInt8) (found : pool.className index = .ok name) :
      Encodes pool length offset (.multiArray name dimensions) (0xc5 :: (wordBytes index ++ [dimensions]))

variable {pool : Pool} {length offset : Nat} {instruction : Instruction} {bytes : Bytes}

/-- Padding that ends at a multiple of four is that of the switch. -/
theorem padding_eq {fill : Bytes} (short : fill.length < 4) (aligned : 4 ∣ offset + 1 + fill.length) :
    padding offset = fill.length := by
  unfold padding
  omega

/-- A table switch that is written is read back, whatever its padding holds. -/
theorem reads_tableSwitch {fill : Bytes} {low high distance : Int32} {distances : List Int32} {default : Label}
    {targets : List Label} (short : fill.length < 4) (aligned : 4 ∣ offset + 1 + fill.length)
    (leads : Leads length offset distance.toInt default)
    (each : List.Forall₂ (fun distance target => Leads length offset distance.toInt target) distances targets)
    (count : (targets.length : Int) = high.toInt - low.toInt + 1) :
    Reads length (Operands.tableSwitch length offset)
      (fill ++ (doubleBytes distance.toUInt32 ++ (doubleBytes low.toUInt32 ++ (doubleBytes high.toUInt32 ++
        distances.flatMap fun distance => doubleBytes distance.toUInt32))))
      (.tableSwitch low.toInt high.toInt default targets) := by
  have table := reads_times (each.imp fun _ _ => reads_wideTarget)
  have size : targets.length * 4 ≤ (distances.flatMap fun distance => doubleBytes distance.toUInt32).length := by
    simp [List.length_flatMap, each.length_eq]
  unfold Operands.tableSwitch
  rw [padding_eq short aligned]
  refine (reads_pass fill).bind ((reads_wideTarget leads).bind ((reads_signedDouble low).bind
    ((reads_signedDouble high).bind ?_)))
  rw [entryCount_bind, ← count, if_neg (by omega), Int.toNat_natCast]
  exact (table.entries size).bind_pure (Instruction.tableSwitch low.toInt high.toInt default)

/-- A lookup switch that is written is read back, whatever its padding holds. -/
theorem reads_lookupSwitch {fill : Bytes} {count distance : Int32} {pairs : List (Int32 × Int32)} {default : Label}
    {targets : List Label} (short : fill.length < 4) (aligned : 4 ∣ offset + 1 + fill.length)
    (leads : Leads length offset distance.toInt default)
    (each : List.Forall₂ (fun pair target => Leads length offset pair.2.toInt target) pairs targets)
    (counted : count.toInt = pairs.length) :
    Reads length (Operands.lookupSwitch length offset)
      (fill ++ (doubleBytes distance.toUInt32 ++ (doubleBytes count.toUInt32 ++
        pairs.flatMap fun pair => doubleBytes pair.1.toUInt32 ++ doubleBytes pair.2.toUInt32)))
      (.lookupSwitch default (pairs.map fun pair => pair.1.toInt) targets) := by
  have rows : List.Forall₂ (fun pair row => Reads length (keyedTarget length offset)
      (doubleBytes pair.1.toUInt32 ++ doubleBytes pair.2.toUInt32) row) pairs
      ((pairs.map fun pair => pair.1.toInt).zip targets) := by
    clear counted
    induction each with
    | nil => exact .nil
    | cons first _ ih =>
      exact .cons ((reads_signedDouble _).bind ((reads_wideTarget first).bind_pure (Prod.mk _))) ih
  have same := each.length_eq
  have table := reads_times rows
  have size : pairs.length * 8 ≤
      (pairs.flatMap fun pair => doubleBytes pair.1.toUInt32 ++ doubleBytes pair.2.toUInt32).length := by
    simp [List.length_flatMap]
  rw [List.length_zip, List.length_map, ← same, Nat.min_self] at table
  unfold Operands.lookupSwitch
  rw [padding_eq short aligned]
  refine (reads_pass fill).bind ((reads_wideTarget leads).bind ((reads_signedDouble count).bind ?_))
  rw [counted, if_neg (by omega), Int.toNat_natCast]
  have listed : Reads length (entries .lookup length pairs.length 8 (keyedTarget length offset)) _ _ := table.entries size
  have whole := listed.bind_pure fun rows => Instruction.lookupSwitch default (rows.map Prod.fst) (rows.map Prod.snd)
  rwa [List.map_fst_zip (by simp [same]), List.map_snd_zip (by simp [same])] at whole

/-- A wide variable instruction that is written is read back. -/
theorem reads_wideVar (use : VariableUse) (slot : UInt16) :
    Reads length wide (use.opcode :: wordBytes slot) (.var use.opcode slot) := by
  have other : use.opcode ≠ Opcode.iinc := by
    rcases use with (_ | _ | _ | _ | _) | (_ | _ | _ | _ | _) | _ <;> decide
  have last : Reads length (if use.opcode = Opcode.iinc then do
        let amount ← signedWord
        pure (.increment slot amount)
      else if Opcode.namesVariable use.opcode then pure (.var use.opcode slot)
      else malformed (.wideOpcode use.opcode)) [] (Instruction.var use.opcode slot) := by
    rw [if_neg other, if_pos (Opcode.namesVariable_variable use)]
    exact Reads.pure _
  exact (reads_byte use.opcode).bind ((reads_word slot).bind last)

/-- A wide increment that is written is read back. -/
theorem reads_wideIncrement (slot : UInt16) (amount : Int16) :
    Reads length wide (0x84 :: (wordBytes slot ++ wordBytes amount.toUInt16)) (.increment slot amount.toInt) := by
  refine (reads_byte 0x84).bind ((reads_word slot).bind ?_)
  rw [if_pos (by rfl)]
  exact (reads_signedWord amount).bind_pure (Instruction.increment slot)

/-- The operands of an encoding are read back. -/
theorem Encodes.reads (h : Encodes pool length offset instruction bytes) :
    ∃ opcode operands, bytes = opcode :: operands ∧
      Reads length (Operands.instruction pool length offset opcode) operands instruction := by
  cases h with
  | @plain opcode kind =>
    refine ⟨opcode, [], rfl, ?_⟩
    rw [Operands.instruction, Opcode.format_of_isOperandless kind]
    exact Reads.pure _
  | byte value => exact ⟨0x10, _, rfl, (reads_signedByte value).map (Instruction.int 0x10)⟩
  | short value => exact ⟨0x11, _, rfl, (reads_signedWord value).map (Instruction.int 0x11)⟩
  | newArray element =>
    exact ⟨0xbc, _, rfl, (reads_byte element).bind_pure fun element => Instruction.int 0xbc element.toNat⟩
  | @load index constant found =>
    exact ⟨0x12, _, rfl, (reads_byte index).bind ((reads_lookUp found).bind_pure (Instruction.load index.toUInt16))⟩
  | @wideLoad opcode index constant form found =>
    rcases form with rfl | rfl
    · exact ⟨0x13, _, rfl, (reads_word index).bind ((reads_lookUp found).bind_pure (Instruction.load index))⟩
    · exact ⟨0x14, _, rfl, (reads_word index).bind ((reads_lookUp found).bind_pure (Instruction.load index))⟩
  | var use slot =>
    refine ⟨use.opcode, [slot], rfl, ?_⟩
    rw [Operands.instruction, Opcode.format_variable]
    exact (reads_byte slot).bind_pure fun slot => Instruction.var use.opcode slot.toUInt16
  | @shortVar use slot opcode form =>
    refine ⟨opcode, [], rfl, ?_⟩
    rw [Operands.instruction, Opcode.format_shortVariable form]
    exact Reads.pure _
  | wideVar use slot => exact ⟨0xc4, _, rfl, reads_wideVar use slot⟩
  | increment slot amount =>
    exact ⟨0x84, _, rfl, (reads_byte slot).bind ((reads_signedByte amount).bind_pure (Instruction.increment slot.toUInt16))⟩
  | wideIncrement slot amount => exact ⟨0xc4, _, rfl, reads_wideIncrement slot amount⟩
  | @branch opcode distance target kind leads =>
    refine ⟨opcode, _, rfl, ?_⟩
    rw [Operands.instruction, Opcode.format_of_isBranch kind]
    exact (reads_signedWord distance).bind ((reads_target leads).map (Instruction.jump opcode))
  | wideBranch form leads =>
    rcases form with ⟨rfl, rfl⟩ | ⟨rfl, rfl⟩
    · exact ⟨0xc8, _, rfl, (reads_wideTarget leads).map (Instruction.jump 0xa7)⟩
    · exact ⟨0xc9, _, rfl, (reads_wideTarget leads).map (Instruction.jump 0xa8)⟩
  | tableSwitch short aligned leads each count => exact ⟨0xaa, _, rfl, reads_tableSwitch short aligned leads each count⟩
  | lookupSwitch short aligned leads each counted =>
    exact ⟨0xab, _, rfl, reads_lookupSwitch short aligned leads each counted⟩
  | @field opcode index ref kind found =>
    refine ⟨opcode, _, rfl, ?_⟩
    rw [Operands.instruction, Opcode.format_of_isFieldAccess kind]
    exact (reads_word index).bind
      ((reads_lookUp found).bind_pure fun ref => Instruction.field opcode ref.owner ref.name ref.descriptor)
  | @method opcode index ref kind found =>
    refine ⟨opcode, _, rfl, ?_⟩
    rw [Operands.instruction, Opcode.format_of_isCall kind]
    exact (reads_word index).bind
      ((reads_lookUp found).bind_pure fun ref => Instruction.method opcode ref.owner ref.name ref.descriptor ref.inInterface)
  | @interfaceMethod index ref count reserved found =>
    exact ⟨0xb9, _, rfl, (reads_word index).bind ((reads_lookUp found).bind ((reads_pass [count, reserved]).bind_pure
      fun _ => Instruction.method 0xb9 ref.owner ref.name ref.descriptor ref.inInterface))⟩
  | @type opcode index name kind found =>
    refine ⟨opcode, _, rfl, ?_⟩
    rw [Operands.instruction, Opcode.format_of_isOnType kind]
    exact (reads_word index).bind ((reads_lookUp found).map (Instruction.type opcode))
  | @multiArray index name dimensions found =>
    exact ⟨0xc5, _, rfl, (reads_word index).bind ((reads_lookUp found).bind ((reads_byte dimensions).bind_pure
      (Instruction.multiArray name)))⟩

/-- Decoding gives the instruction of an encoding, and the place where its bytes end. -/
theorem Encodes.decode {rest : Bytes} (h : Encodes pool length offset instruction bytes)
    (inside : offset + (bytes ++ rest).length = length) :
    ∃ opcode operands, bytes = opcode :: operands ∧
      decode pool length offset opcode (operands ++ rest) = .ok (instruction, ⟨offset + bytes.length, rest⟩) := by
  obtain ⟨opcode, operands, rfl, reads⟩ := h.reads
  have behind : offset + 1 + (operands ++ rest).length = length := by
    simp only [List.cons_append, List.length_cons] at inside
    omega
  have ended : offset + 1 + operands.length = offset + (opcode :: operands).length := by
    rw [List.length_cons]
    omega
  have fits : ¬ length < offset + (opcode :: operands).length := by
    rw [List.length_append] at inside
    omega
  refine ⟨opcode, operands, rfl, ?_⟩
  unfold Instruction.decode
  rw [reads (offset + 1) rest behind, ended]
  exact if_neg fits

/-! ## Whole code arrays -/

/-- The code array of instructions with their bytes, laid end to end. -/
def codeOf (program : List (Instruction × Bytes)) : Bytes := program.flatMap Prod.snd

/-- The instructions that stand end to end from an offset on, each with its offset. -/
def placedFrom : Nat → List (Instruction × Bytes) → List (Nat × Instruction)
  | _, [] => []
  | offset, (instruction, bytes) :: rest => (offset, instruction) :: placedFrom (offset + bytes.length) rest

/-- From an offset of a code array on, the bytes of each instruction write it at the offset where they stand. -/
def Laid (pool : Pool) (length : Nat) : Nat → List (Instruction × Bytes) → Prop
  | _, [] => True
  | offset, (instruction, bytes) :: rest =>
    Encodes pool length offset instruction bytes ∧ Laid pool length (offset + bytes.length) rest

variable {code : Bytes} {program : List (Instruction × Bytes)}

theorem codeOf_append (front back : List (Instruction × Bytes)) : codeOf (front ++ back) = codeOf front ++ codeOf back :=
  List.flatMap_append

/-- Of instructions that are laid end to end, those behind some others are laid where the others end. -/
theorem Laid.behind {front back : List (Instruction × Bytes)} (h : Laid pool length offset (front ++ back)) :
    Laid pool length (offset + (codeOf front).length) back := by
  induction front generalizing offset with
  | nil => exact h
  | cons first front ih =>
    have later := ih h.2
    rwa [Nat.add_assoc, ← List.length_append] at later

/-- Instructions that are laid to the end of a code array are its instructions. -/
theorem Laid.linear (h : Laid pool code.length offset program) (inside : offset ≤ code.length)
    (here : code.drop offset = codeOf program) : Linear pool code offset (placedFrom offset program) := by
  induction program generalizing offset with
  | nil =>
    have past : code.length ≤ offset := List.drop_eq_nil_iff.mp here
    rw [Nat.le_antisymm inside past]
    exact .finished
  | cons first rest ih =>
    obtain ⟨instruction, bytes⟩ := first
    obtain ⟨encodes, later⟩ := h
    have here : code.drop offset = bytes ++ codeOf rest := here
    have whole : offset + (bytes ++ codeOf rest).length = code.length := by
      rw [← here, List.length_drop]
      omega
    obtain ⟨opcode, operands, rfl, decoded⟩ := encodes.decode whole
    have behind : code.drop (offset + (opcode :: operands).length) = codeOf rest := by
      rw [← List.drop_drop, here, List.drop_left]
    have still : offset + (opcode :: operands).length ≤ code.length := by
      rw [List.length_append] at whole
      omega
    exact .next here decoded (ih later still behind)

/-- Decoding inverts encoding: of a code array made of instructions in any of their encodings, decoding gives these
instructions in order, each at its own offset, and decoding at this offset ends where the bytes of the instruction end. -/
theorem decodeAll_codeOf (legal : Laid pool (codeOf program).length 0 program) :
    decodeAll pool (codeOf program) = .ok (placedFrom 0 program) ∧
      ∀ front instruction bytes back, program = front ++ (instruction, bytes) :: back →
        ∃ opcode operands, bytes = opcode :: operands ∧
          decode pool (codeOf program).length (codeOf front).length opcode (operands ++ codeOf back) =
            .ok (instruction, ⟨(codeOf front).length + bytes.length, codeOf back⟩) := by
  refine ⟨decodeAll_eq_ok_iff.mpr (legal.linear (Nat.zero_le _) rfl), ?_⟩
  rintro front instruction bytes back rfl
  have here := legal.behind
  rw [Nat.zero_add] at here
  refine here.1.decode ?_
  rw [codeOf_append]
  exact List.length_append.symm

end Instruction

/-! ## A loop in mixed encodings -/

namespace MixedEncodings

open Instruction

/-- The pool has one number. -/
def pool : Pool := ⟨#[.unused, .integer 7]⟩

/-- A short form, a wide increment, a switch that needs no padding, a load and a long jump back. -/
def program : List (Instruction × Bytes) :=
  [(.var 0x15 2, [0x1c]),
    (.increment 300 (-2), [0xc4, 0x84, 0x01, 0x2c, 0xff, 0xfe]),
    (.tableSwitch (-1) 0 ⟨0⟩ [⟨28⟩, ⟨35⟩],
      [0xaa, 0xff, 0xff, 0xff, 0xf9, 0xff, 0xff, 0xff, 0xff, 0, 0, 0, 0, 0, 0, 0, 21, 0, 0, 0, 28]),
    (.load 1 (.integer 7), [0x12, 1]),
    (.jump 0xa7 ⟨1⟩, [0xc8, 0xff, 0xff, 0xff, 0xe3]),
    (.plain 0xb1, [0xb1])]

/-- The program is laid out in its code. -/
theorem laid : Laid pool (codeOf program).length 0 program :=
  ⟨@Encodes.shortVar _ _ _ (.load .int) 2 _ rfl,
    .wideIncrement 300 (-2),
    @Encodes.tableSwitch _ _ _ [] (-1) 0 (-7) [21, 28] _ _ (by decide) (by decide) ⟨by decide, by decide⟩
      (.cons ⟨by decide, by decide⟩ (.cons ⟨by decide, by decide⟩ .nil)) (by decide),
    @Encodes.load _ _ _ 1 _ rfl,
    @Encodes.wideBranch _ _ _ _ _ (-29) _ (.inl ⟨rfl, rfl⟩) ⟨by decide, by decide⟩,
    .plain (by decide),
    trivial⟩

/-- The instructions of the loop are read back, and the switch ends where the load starts. -/
theorem decode_program :
    decodeAll pool (codeOf program) =
        .ok [(0, .var 0x15 2), (1, .increment 300 (-2)), (7, .tableSwitch (-1) 0 ⟨0⟩ [⟨28⟩, ⟨35⟩]), (28, .load 1 (.integer 7)),
          (30, .jump 0xa7 ⟨1⟩), (35, .plain 0xb1)] ∧
      ∃ opcode operands, program[2].2 = opcode :: operands ∧
        decode pool 36 7 opcode (operands ++ codeOf (program.drop 3)) =
          .ok (program[2].1, ⟨28, codeOf (program.drop 3)⟩) := by
  obtain ⟨all, each⟩ := decodeAll_codeOf laid
  exact ⟨all, each (program.take 2) program[2].1 program[2].2 (program.drop 3) rfl⟩

end MixedEncodings

end JvmUnits
