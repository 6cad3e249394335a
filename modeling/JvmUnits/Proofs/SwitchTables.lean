import JvmUnits.Proofs.BranchTargets
import JvmUnits.Proofs.Encoding
import JvmUnits.Proofs.InstructionLengths
import Mathlib.Algebra.Order.Ring.Int

/-!
# The tables of switches

What a switch is, said of the numbers of a code array: from the first place behind its opcode that four divides, the distance to
the label for any other key, then either the bounds of a range of keys and a distance for each of its keys
(`Switch.HasRange`), or a number of keys and each key with its distance (`Switch.HasPairs`). Decoding gives a switch exactly where
one stands, with as many labels as are declared, each from its own entry, and ends behind the last entry
(`Instruction.decode_switches`).

The readers of operands are taken apart by `Operands.Scans`: a reader gives just what stands in the bytes that it takes.

A range of keys may be empty. Its bounds are then one apart in the wrong order, so the upper bound of a switch can be below the
lower one (`EmptyRange.bounds_inverted`); this happens in no switch with an entry.
-/

namespace JvmUnits

namespace Operands

variable {α β : Type} {length base : Nat}

/-- The reader needs some number of bytes, takes just these, and gives the values that stand in them. -/
def Scans (read : Operands α) (size : Nat) (stands : Bytes → α → Prop) : Prop :=
  ∀ cursor value after, read cursor = .ok (value, after) ↔
    size ≤ cursor.rest.length ∧ stands cursor.rest value ∧ after = ⟨cursor.offset + size, cursor.rest.drop size⟩

theorem pure_eq_ok_iff {value found : α} {cursor after : Cursor} :
    (pure value : Operands α) cursor = .ok (found, after) ↔ value = found ∧ cursor = after := by
  change Except.ok (value, cursor) = _ ↔ _
  rw [Except.ok.injEq, Prod.mk.injEq]

/-- A target is found exactly where the distance leads to a place in the code, and nothing is read for it. -/
theorem target_eq_ok_iff {distance : Int} {label : Label} {cursor after : Cursor} :
    (target length base distance : Operands Label) cursor = .ok (label, after) ↔
      Leads length base distance label ∧ after = cursor := by
  rw [target_eq]
  split
  · rename_i outside
    simp only [Bool.or_eq_true, decide_eq_true_eq] at outside
    constructor
    · intro read
      cases read
    · rintro ⟨⟨reached, inside⟩, rfl⟩
      omega
  · rename_i inside
    simp only [Bool.or_eq_true, decide_eq_true_eq, not_or, Int.not_lt, Int.not_le] at inside
    rw [pure_eq_ok_iff]
    constructor
    · rintro ⟨rfl, rfl⟩
      exact ⟨⟨Int.toNat_of_nonneg inside.1, by simp only; omega⟩, rfl⟩
    · rintro ⟨⟨reached, _⟩, rfl⟩
      rw [← reached, Int.toNat_natCast]
      exact ⟨rfl, rfl⟩

/-- Four bytes are a signed number. -/
theorem scans_signedDouble : Scans signedDouble 4 fun bytes value => value = leadingNumber bytes := by
  intro cursor value after
  constructor
  · intro read
    refine ⟨?_, value_of_signedDouble read, moves_signedDouble _ _ _ read⟩
    rcases cursor with ⟨offset, _ | ⟨a, _ | ⟨b, _ | ⟨c, _ | ⟨d, rest⟩⟩⟩⟩⟩
    case cons.cons.cons.cons => simp
    all_goals cases read
  · rintro ⟨enough, rfl, rfl⟩
    have readable : ∃ value after, (signedDouble : Operands Int) cursor = .ok (value, after) := by
      rcases cursor with ⟨offset, _ | ⟨a, _ | ⟨b, _ | ⟨c, _ | ⟨d, rest⟩⟩⟩⟩⟩
      case cons.cons.cons.cons => exact ⟨_, _, rfl⟩
      all_goals simp at enough
    obtain ⟨value, after, read⟩ := readable
    rw [read, value_of_signedDouble read, moves_signedDouble _ _ _ read]

/-- A target of four bytes is a distance from the instruction. -/
theorem scans_wideTarget (length base : Nat) :
    Scans (wideTarget length base) 4 fun bytes label => Leads length base (leadingNumber bytes) label := by
  intro cursor label after
  rw [wideTarget, bind_eq_ok]
  constructor
  · rintro ⟨distance, middle, read, aimed⟩
    obtain ⟨enough, rfl, rfl⟩ := (scans_signedDouble _ _ _).mp read
    obtain ⟨leads, rfl⟩ := target_eq_ok_iff.mp aimed
    exact ⟨enough, leads, rfl⟩
  · rintro ⟨enough, leads, rfl⟩
    exact ⟨_, _, (scans_signedDouble _ _ _).mpr ⟨enough, rfl, rfl⟩, target_eq_ok_iff.mpr ⟨leads, rfl⟩⟩

/-- A key with its label. -/
theorem scans_row (length base : Nat) :
    Scans (keyedTarget length base) 8
      fun bytes row => row.1 = leadingNumber bytes ∧ Leads length base (leadingNumber (bytes.drop 4)) row.2 := by
  rintro cursor ⟨key, label⟩ after
  simp only [keyedTarget, bind_eq_ok, pure_eq_ok_iff]
  constructor
  · rintro ⟨number, middle, read, target, last, aimed, same, rfl⟩
    cases same
    obtain ⟨_, rfl, rfl⟩ := (scans_signedDouble _ _ _).mp read
    obtain ⟨enough, leads, rfl⟩ := (scans_wideTarget _ _ _ _ _).mp aimed
    rw [List.length_drop] at enough
    exact ⟨by omega, ⟨rfl, leads⟩, by rw [List.drop_drop, Nat.add_assoc]⟩
  · rintro ⟨enough, ⟨rfl, leads⟩, rfl⟩
    refine ⟨_, _, (scans_signedDouble _ _ _).mpr ⟨by omega, rfl, rfl⟩, label, _,
      (scans_wideTarget _ _ _ _ _).mpr ⟨?_, leads, rfl⟩, rfl, ?_⟩
    · rw [List.length_drop]
      omega
    · rw [List.drop_drop, Nat.add_assoc]

/-- Items that take the same number of bytes are read one behind the other. -/
theorem Scans.times {read : Operands α} {size : Nat} {stands : Bytes → α → Prop} (item : Scans read size stands)
    (count : Nat) :
    Scans (JvmUnits.times read count) (size * count) fun bytes values =>
      values.length = count ∧ ∀ i (inside : i < values.length), stands (bytes.drop (size * i)) values[i] := by
  induction count with
  | zero =>
    intro cursor values after
    rw [JvmUnits.times, pure_eq_ok_iff]
    constructor
    · rintro ⟨rfl, rfl⟩
      simp
    · rintro ⟨_, ⟨none, _⟩, rfl⟩
      simp [List.length_eq_zero_iff.mp none]
  | succ count ih =>
    intro cursor values after
    simp only [JvmUnits.times, bind_eq_ok, pure_eq_ok_iff]
    have total : size * (count + 1) = size + size * count := by rw [Nat.mul_succ, Nat.add_comm]
    constructor
    · rintro ⟨first, middle, here, rest, last, later, rfl, rfl⟩
      obtain ⟨_, holds, rfl⟩ := (item _ _ _).mp here
      obtain ⟨enough, ⟨rfl, each⟩, rfl⟩ := (ih _ _ _).mp later
      rw [List.length_drop] at enough
      refine ⟨by omega, ⟨rfl, ?_⟩, by rw [List.drop_drop, total, Nat.add_assoc]⟩
      rintro (_ | i) inside
      · exact holds
      · have there := each i (by simpa using inside)
        rwa [List.drop_drop, Nat.add_comm, ← Nat.mul_succ] at there
    · rintro ⟨enough, ⟨counted, each⟩, rfl⟩
      obtain ⟨first, rest, rfl⟩ := List.exists_cons_of_length_eq_add_one counted
      refine ⟨first, _, (item _ _ _).mpr ⟨by omega, each 0 (by simp), rfl⟩, rest, _,
        (ih _ _ _).mpr ⟨?_, ⟨by simpa using counted, fun i inside => ?_⟩, rfl⟩, rfl, ?_⟩
      · rw [List.length_drop]
        omega
      · have there := each (i + 1) (by simpa using inside)
        rwa [List.drop_drop, Nat.add_comm, ← Nat.mul_succ]
      · rw [List.drop_drop, total, Nat.add_assoc]

end Operands

/-! ## Switches in a code array -/

/-- How the operands of a switch are written. -/
def Instruction.switchFormat? : Instruction → Option OperandFormat
  | tableSwitch .. => some .tableSwitch
  | lookupSwitch .. => some .lookupSwitch
  | _ => none

namespace Switch

open Operands

/-- The signed number of four bytes at a place of a code array. -/
def numberAt (code : Bytes) (place : Nat) : Int := leadingNumber (code.drop place)

/-- Where the numbers of the switch at an offset start: the first place behind its opcode that four divides. -/
def start (offset : Nat) : Nat := 4 * (offset / 4 + 1)

/-- At an offset of a code array stands a switch over a range of keys: the label for any other key, the bounds of the range,
and a label for each of its keys, in this order. -/
structure HasRange (code : Bytes) (offset : Nat) (low high : Int) (default : Label) (targets : List Label) : Prop where
  fits : start offset + 12 + 4 * targets.length ≤ code.length
  other : Leads code.length offset (numberAt code (start offset)) default
  lower : low = numberAt code (start offset + 4)
  upper : high = numberAt code (start offset + 8)
  count : (targets.length : Int) = high - low + 1
  each : ∀ i (inside : i < targets.length),
    Leads code.length offset (numberAt code (start offset + 12 + 4 * i)) targets[i]

/-- At an offset of a code array stands a switch over listed keys: the label for any other key, the number of keys, and each
key followed by its label. -/
structure HasPairs (code : Bytes) (offset : Nat) (default : Label) (keys : List Int) (targets : List Label) : Prop where
  fits : start offset + 8 + 8 * targets.length ≤ code.length
  other : Leads code.length offset (numberAt code (start offset)) default
  count : (targets.length : Int) = numberAt code (start offset + 4)
  paired : keys.length = targets.length
  listed : ∀ i (inside : i < keys.length), keys[i] = numberAt code (start offset + 8 + 8 * i)
  each : ∀ i (inside : i < targets.length),
    Leads code.length offset (numberAt code (start offset + 8 + 8 * i + 4)) targets[i]

/-- The operands of a switch start behind its opcode and the padding. -/
theorem start_eq (offset : Nat) : start offset = offset + 1 + padding offset := by
  unfold start padding
  omega

end Switch

namespace Operands

open Switch

/-- The cursor at a place of a code array. -/
def cursorAt (code : Bytes) (place : Nat) : Cursor := ⟨place, code.drop place⟩

section

variable {α : Type} {code : Bytes} {offset place : Nat} {after : Cursor}

/-- Behind the opcode of a switch, the bytes before its numbers are passed over. -/
theorem pass_padding_at :
    (pass (padding offset) : Operands Unit) (cursorAt code (offset + 1)) = .ok ((), cursorAt code (start offset)) := by
  rw [pass_apply, start_eq, cursorAt, cursorAt, List.drop_drop]

/-- What scans bytes of a fixed number finds, at a place in the code, what stands there. -/
theorem scan_at_eq_ok_iff {read : Operands α} {size : Nat} {stands : Bytes → α → Prop} (scans : Scans read size stands)
    {value : α} :
    read (cursorAt code place) = .ok (value, after) ↔
      size ≤ code.length - place ∧ stands (code.drop place) value ∧ after = cursorAt code (place + size) := by
  rw [scans, cursorAt, cursorAt, List.length_drop, List.drop_drop]

/-- A table of entries of a given width is read exactly where the bytes for it are there; the check for them changes nothing
else. -/
theorem entries_at_eq_ok_iff {entry : Operands α} {width : Nat} {stands : Bytes → α → Prop} (scans : Scans entry width stands)
    {kind : SwitchKind} {count : Nat} {values : List α} :
    entries kind code.length count width entry (cursorAt code place) = .ok (values, after) ↔
      width * count ≤ code.length - place ∧
        (values.length = count ∧ ∀ i (inside : i < values.length), stands ((code.drop place).drop (width * i)) values[i]) ∧
          after = cursorAt code (place + width * count) := by
  rw [← scan_at_eq_ok_iff (scans.times count), entries_eq, bind_eq_ok]
  simp only [expectEntries_apply]
  by_cases short : code.length - place < count * width
  · have failed : ¬ width * count ≤ code.length - place := by
      rw [Nat.mul_comm]
      omega
    simp [cursorAt, short, scans.times count _ _ _, failed]
  · simp [cursorAt, short]

/-- A table switch is read exactly where there is a range with its targets. -/
theorem tableSwitch_eq_ok_iff {found : Instruction} :
    (tableSwitch code.length offset : Operands Instruction) (cursorAt code (offset + 1)) = .ok (found, after) ↔
      ∃ low high default targets, found = .tableSwitch low high default targets ∧
        HasRange code offset low high default targets ∧ after = cursorAt code (start offset + 12 + 4 * targets.length) := by
  constructor
  · intro read
    obtain ⟨_, _, passed, read⟩ := bind_eq_ok.mp read
    rw [pass_padding_at] at passed
    cases passed
    obtain ⟨default, _, aimed, read⟩ := bind_eq_ok.mp read
    obtain ⟨_, leads, rfl⟩ := (scan_at_eq_ok_iff (scans_wideTarget _ _)).mp aimed
    obtain ⟨low, _, lowRead, read⟩ := bind_eq_ok.mp read
    obtain ⟨_, lowEq, rfl⟩ := (scan_at_eq_ok_iff scans_signedDouble).mp lowRead
    obtain ⟨high, _, highRead, read⟩ := bind_eq_ok.mp read
    obtain ⟨room, highEq, rfl⟩ := (scan_at_eq_ok_iff scans_signedDouble).mp highRead
    rw [entryCount_bind] at read
    by_cases negative : high - low + 1 < 0
    · rw [if_pos negative] at read
      cases read
    · rw [if_neg negative] at read
      obtain ⟨targets, _, listed, read⟩ := bind_eq_ok.mp read
      obtain ⟨enough, ⟨count, each⟩, rfl⟩ := (entries_at_eq_ok_iff (scans_wideTarget _ _)).mp listed
      obtain ⟨rfl, rfl⟩ := pure_eq_ok_iff.mp read
      -- From here on the number of entries is the length of the list, which is what the layout speaks of.
      rw [← count] at enough ⊢
      refine ⟨low, high, default, targets, rfl, ⟨by omega, leads, lowEq, highEq, by omega, ?_⟩, rfl⟩
      intro i inside
      have there := each i inside
      rwa [List.drop_drop] at there
  · rintro ⟨low, high, default, targets, rfl, ⟨fits, leads, lowEq, highEq, count, each⟩, rfl⟩
    refine bind_eq_ok.mpr ⟨(), _, pass_padding_at, ?_⟩
    refine bind_eq_ok.mpr ⟨default, _, (scan_at_eq_ok_iff (scans_wideTarget _ _)).mpr ⟨by omega, leads, rfl⟩, ?_⟩
    refine bind_eq_ok.mpr ⟨low, _, (scan_at_eq_ok_iff scans_signedDouble).mpr ⟨by omega, lowEq, rfl⟩, ?_⟩
    refine bind_eq_ok.mpr ⟨high, _, (scan_at_eq_ok_iff scans_signedDouble).mpr ⟨by omega, highEq, rfl⟩, ?_⟩
    rw [entryCount_bind, ← count, if_neg (by omega), Int.toNat_natCast]
    refine bind_eq_ok.mpr ⟨targets, _, (entries_at_eq_ok_iff (scans_wideTarget _ _)).mpr ⟨by omega, ⟨rfl, ?_⟩, rfl⟩,
      pure_eq_ok_iff.mpr ⟨rfl, rfl⟩⟩
    intro i inside
    rw [List.drop_drop]
    exact each i inside

/-- A lookup switch is read exactly where there are pairs. -/
theorem lookupSwitch_eq_ok_iff {found : Instruction} :
    (lookupSwitch code.length offset : Operands Instruction) (cursorAt code (offset + 1)) = .ok (found, after) ↔
      ∃ default keys targets, found = .lookupSwitch default keys targets ∧ HasPairs code offset default keys targets ∧
        after = cursorAt code (start offset + 8 + 8 * targets.length) := by
  constructor
  · intro read
    obtain ⟨_, _, passed, read⟩ := bind_eq_ok.mp read
    rw [pass_padding_at] at passed
    cases passed
    obtain ⟨default, _, aimed, read⟩ := bind_eq_ok.mp read
    obtain ⟨_, leads, rfl⟩ := (scan_at_eq_ok_iff (scans_wideTarget _ _)).mp aimed
    obtain ⟨count, _, counted, read⟩ := bind_eq_ok.mp read
    obtain ⟨room, countEq, rfl⟩ := (scan_at_eq_ok_iff scans_signedDouble).mp counted
    by_cases negative : count < 0
    · rw [if_pos negative] at read
      cases read
    · rw [if_neg negative] at read
      obtain ⟨rows, _, listed, read⟩ := bind_eq_ok.mp read
      obtain ⟨enough, ⟨length, each⟩, rfl⟩ := (entries_at_eq_ok_iff (scans_row _ _)).mp listed
      obtain ⟨rfl, rfl⟩ := pure_eq_ok_iff.mp read
      have all : (rows.map Prod.snd).length = count.toNat := by rw [List.length_map, length]
      rw [← all] at enough ⊢
      refine ⟨default, _, _, rfl, ⟨by omega, leads, ?_, by simp, ?_, ?_⟩, rfl⟩
      · rw [all, Int.toNat_of_nonneg (by omega)]
        exact countEq
      · intro i inside
        have there := (each i (by simpa using inside)).1
        rw [List.drop_drop] at there
        rw [List.getElem_map]
        exact there
      · intro i inside
        have there := (each i (by simpa using inside)).2
        rw [List.drop_drop, List.drop_drop] at there
        rw [List.getElem_map]
        exact there
  · rintro ⟨default, keys, targets, rfl, ⟨fits, leads, count, paired, listed, each⟩, rfl⟩
    -- The instruction has keys and labels apart, the reader gives them row by row.
    have pairs : (keys.zip targets).length = targets.length := by simp [paired]
    refine bind_eq_ok.mpr ⟨(), _, pass_padding_at, ?_⟩
    refine bind_eq_ok.mpr ⟨default, _, (scan_at_eq_ok_iff (scans_wideTarget _ _)).mpr ⟨by omega, leads, rfl⟩, ?_⟩
    refine bind_eq_ok.mpr ⟨_, _, (scan_at_eq_ok_iff scans_signedDouble).mpr ⟨by omega, count, rfl⟩, ?_⟩
    rw [if_neg (by omega), Int.toNat_natCast]
    refine bind_eq_ok.mpr ⟨keys.zip targets, _,
      (entries_at_eq_ok_iff (scans_row _ _)).mpr ⟨by omega, ⟨pairs, ?_⟩, rfl⟩, pure_eq_ok_iff.mpr ⟨?_, rfl⟩⟩
    · intro i inside
      rw [List.drop_drop, List.drop_drop, List.getElem_zip]
      exact ⟨listed i (by omega), each i (by omega)⟩
    · rw [List.map_fst_zip (by omega), List.map_snd_zip (by omega)]

end

/-- Only the two opcodes of switches are read as switches. -/
theorem gives_switchFormat (pool : Pool) (length base : Nat) (opcode : UInt8) :
    Gives (instruction pool length base opcode : Operands Instruction) fun found =>
      ∀ format, found.switchFormat? = some format → Opcode.format opcode = format := by
  have other {found : Instruction} {format : OperandFormat} (none : found.switchFormat? = none) :
      ∀ own, found.switchFormat? = some own → format = own := by
    intro own same
    rw [none] at same
    cases same
  have own {found : Instruction} {format : OperandFormat} (here : found.switchFormat? = some format) :
      ∀ own, found.switchFormat? = some own → format = own := by
    intro own same
    exact Option.some.inj (here.symm.trans same)
  unfold instruction
  cases Opcode.format opcode with
  | tableSwitch =>
    exact .after fun _ => .after fun _ => .after fun _ => .after fun _ => .after fun _ =>
      .ite (.error _) (.after fun _ => .pure (own rfl))
  | lookupSwitch =>
    exact .after fun _ => .after fun _ => .after fun _ => .ite (.error _) (.after fun _ => .pure (own rfl))
  | plain | impliedSlot => exact .pure (other rfl)
  | byte | short | unsignedByte | slot => exact .after fun _ => .pure (other rfl)
  | constant | wideConstant | increment | branch | field | method | type =>
    exact .after fun _ => .after fun _ => .pure (other rfl)
  | wideBranch => exact .after fun _ => .pure (other rfl)
  | interfaceMethod | multiArray => exact .after fun _ => .after fun _ => .after fun _ => .pure (other rfl)
  | wide =>
    exact .after fun _ => .after fun _ => .ite (.after fun _ => .pure (other rfl)) (.ite (.pure (other rfl)) (.error _))
  | dynamic | reserved => exact .error _

end Operands

namespace Opcode

theorem format_eq_tableSwitch_iff : ∀ {opcode : UInt8}, format opcode = .tableSwitch ↔ opcode = 0xaa :=
  @(forall_of_fin (by decide +kernel))

theorem format_eq_lookupSwitch_iff : ∀ {opcode : UInt8}, format opcode = .lookupSwitch ↔ opcode = 0xab :=
  @(forall_of_fin (by decide +kernel))

end Opcode

namespace Instruction

open Operands Switch

/-- An instruction is decoded when its operands are read and end inside the code. -/
theorem decode_eq_ok_iff {pool : Pool} {length offset : Nat} {opcode : UInt8} {operands : Bytes} {instruction : Instruction}
    {after : Cursor} :
    decode pool length offset opcode operands = .ok (instruction, after) ↔
      (Operands.instruction pool length offset opcode : Operands Instruction) ⟨offset + 1, operands⟩ =
        .ok (instruction, after) ∧
        after.offset ≤ length := by
  constructor
  · intro decoded
    exact ⟨operands_of_decode decoded, (decode_advances decoded).1⟩
  · rintro ⟨read, inside⟩
    rw [decode, read]
    exact if_neg (Nat.not_lt.mpr inside)

section

variable {pool : Pool} {code : Bytes} {offset : Nat} {opcode : UInt8} {operands : Bytes} {after : Cursor}
  (here : code.drop offset = opcode :: operands)

include here

/-- The cursor of the operands is the one behind the opcode. -/
theorem cursor_behind : (⟨offset + 1, operands⟩ : Cursor) = cursorAt code (offset + 1) := by
  rw [cursorAt, ← List.drop_drop, here]
  rfl

/-- A table switch is decoded exactly where its opcode and a range with its targets stand. -/
theorem decode_tableSwitch_iff {low high : Int} {default : Label} {targets : List Label} :
    decode pool code.length offset opcode operands = .ok (.tableSwitch low high default targets, after) ↔
      opcode = 0xaa ∧ HasRange code offset low high default targets ∧
        after = cursorAt code (start offset + 12 + 4 * targets.length) := by
  rw [decode_eq_ok_iff, cursor_behind here]
  constructor
  · rintro ⟨read, _⟩
    have format := gives_switchFormat _ _ _ _ _ _ _ read _ rfl
    rw [Operands.instruction, format] at read
    obtain ⟨_, _, _, _, same, has, rfl⟩ := tableSwitch_eq_ok_iff.mp read
    cases same
    exact ⟨Opcode.format_eq_tableSwitch_iff.mp format, has, rfl⟩
  · rintro ⟨own, has, rfl⟩
    rw [Operands.instruction, Opcode.format_eq_tableSwitch_iff.mpr own]
    exact ⟨tableSwitch_eq_ok_iff.mpr ⟨_, _, _, _, rfl, has, rfl⟩, has.fits⟩

/-- A lookup switch is decoded exactly where its opcode and its pairs stand. -/
theorem decode_lookupSwitch_iff {default : Label} {keys : List Int} {targets : List Label} :
    decode pool code.length offset opcode operands = .ok (.lookupSwitch default keys targets, after) ↔
      opcode = 0xab ∧ HasPairs code offset default keys targets ∧
        after = cursorAt code (start offset + 8 + 8 * targets.length) := by
  rw [decode_eq_ok_iff, cursor_behind here]
  constructor
  · rintro ⟨read, _⟩
    have format := gives_switchFormat _ _ _ _ _ _ _ read _ rfl
    rw [Operands.instruction, format] at read
    obtain ⟨_, _, _, same, has, rfl⟩ := lookupSwitch_eq_ok_iff.mp read
    cases same
    exact ⟨Opcode.format_eq_lookupSwitch_iff.mp format, has, rfl⟩
  · rintro ⟨own, has, rfl⟩
    rw [Operands.instruction, Opcode.format_eq_lookupSwitch_iff.mpr own]
    exact ⟨lookupSwitch_eq_ok_iff.mpr ⟨_, _, _, rfl, has, rfl⟩, has.fits⟩

/-- Decoding gives a switch exactly where one stands in the code array, and ends behind its last entry. All labels of what is
decoded lie inside the code array, and the keys of a range are in order exactly if it has a key. -/
theorem decode_switches (pool : Pool) :
    (∀ low high default targets after,
      decode pool code.length offset opcode operands = .ok (.tableSwitch low high default targets, after) ↔
        opcode = 0xaa ∧ HasRange code offset low high default targets ∧
          after = cursorAt code (start offset + 12 + 4 * targets.length)) ∧
      (∀ default keys targets after,
        decode pool code.length offset opcode operands = .ok (.lookupSwitch default keys targets, after) ↔
          opcode = 0xab ∧ HasPairs code offset default keys targets ∧
            after = cursorAt code (start offset + 8 + 8 * targets.length)) ∧
      (∀ instruction after, decode pool code.length offset opcode operands = .ok (instruction, after) →
        ∀ label ∈ instruction.targets, label.offset < code.length) ∧
      ∀ low high default targets after,
        decode pool code.length offset opcode operands = .ok (.tableSwitch low high default targets, after) →
          low ≤ high + 1 ∧ (low ≤ high ↔ targets ≠ []) := by
  refine ⟨fun _ _ _ _ _ => decode_tableSwitch_iff here, fun _ _ _ _ => decode_lookupSwitch_iff here, ?_, ?_⟩
  · intro instruction after decoded
    exact gives_instruction pool code.length offset opcode _ _ _ (operands_of_decode decoded)
  · intro low high default targets after decoded
    have count := ((decode_tableSwitch_iff here).mp decoded).2.1.count
    rw [← List.length_pos_iff]
    omega

end

end Instruction

/-! ## Two switches -/

namespace PaddedSwitches

open Instruction Operands Switch

/-- A constant, a switch over the keys 1 and 2, a switch over the key -1, and a return to which all labels lead. -/
def code : Bytes :=
  [0x04, 0xaa, 0, 0, 0, 0, 0, 43, 0, 0, 0, 1, 0, 0, 0, 2, 0, 0, 0, 43, 0, 0, 0, 43,
    0xab, 0, 0, 0, 0, 0, 0, 20, 0, 0, 0, 1, 255, 255, 255, 255, 0, 0, 0, 20, 0xb1]

theorem switches_padded :
    code.drop 1 = 0xaa :: code.drop 2 ∧ HasRange code 1 1 2 ⟨44⟩ [⟨44⟩, ⟨44⟩] ∧
      code.drop 24 = 0xab :: code.drop 25 ∧ HasPairs code 24 ⟨44⟩ [-1] [⟨44⟩] := by
  have table : decode .empty code.length 1 0xaa (code.drop 2) =
      .ok (.tableSwitch 1 2 ⟨44⟩ [⟨44⟩, ⟨44⟩], cursorAt code 24) := by decide +kernel
  have listed : decode .empty code.length 24 0xab (code.drop 25) =
      .ok (.lookupSwitch ⟨44⟩ [-1] [⟨44⟩], cursorAt code 44) := by decide +kernel
  refine ⟨rfl, ?_, rfl, ?_⟩
  · exact (((decode_switches rfl .empty).1 _ _ _ _ _).mp table).2.1
  · exact (((decode_switches rfl .empty).2.1 _ _ _ _).mp listed).2.1

end PaddedSwitches

/-! ## A range without keys -/

namespace EmptyRange

open Instruction Operands

/-- A switch from 5 to 4, and a return. -/
def code : Bytes := [0xaa, 0, 0, 0, 0, 0, 0, 0, 0, 0, 0, 5, 0, 0, 0, 4, 0xb1]

theorem bounds_inverted :
    code.drop 0 = 0xaa :: code.drop 1 ∧
      decode .empty code.length 0 0xaa (code.drop 1) = .ok (.tableSwitch 5 4 ⟨0⟩ [], cursorAt code 16) ∧ ¬ (5 : Int) ≤ 4 := by
  decide +kernel

end EmptyRange

end JvmUnits
