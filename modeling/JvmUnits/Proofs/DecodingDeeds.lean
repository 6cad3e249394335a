import JvmUnits.Proofs.LinearDecoding
import Mathlib.Algebra.Order.Ring.Int

/-!
# What decoding does to a code array

A reader of operands says what it answers and not how. Here it runs on a machine that looks bytes up by their index, computes
with words of a fixed number of bits, wrapping around, and keeps the place of a label in 32 bits (`WordMachine`). Whatever the
machine does is a deed.

On words that are wide enough for the code array, every reader answers as it does with a cursor, and every deed is safe: bytes
are looked at from the opcode on and inside the array, no number wraps around, no label is cut down, and no table is built that
the bytes left could not fill (`WordMachine.Performs`). An instruction takes at least one byte and ends inside the array, so the
loop over the offsets ends, exactly at the end of the array. The main result is `Instruction.decode_deeds`.
-/

namespace JvmUnits

/-- The bytes that an entry of a switch takes. -/
def SwitchKind.width : SwitchKind → Nat
  | table => 4
  | lookup => 8

/-- What a machine does: it looks at the byte with an index, computes the number of entries between two keys or the place at a
distance, stores a place as a label, or builds a table of entries that stand from a place on. -/
inductive Deed where
  | look (index : Nat)
  | count (low high entries : Int)
  | aim (distance place : Int)
  | label (place : Int) (stored : UInt32)
  | build (kind : SwitchKind) (start entries : Nat)
  deriving DecidableEq, Repr

/-- The number that a word of some bits holds in place of a number. -/
def wrapped (bits : Nat) (n : Int) : Int := n.bmod (2 ^ bits)

/-- A run on words of some bits, from a place of a code array on: the deeds, also those of a run that fails, and the answer with
the place that was reached. -/
def WordMachine (_bits : Nat) (_code : Bytes) (α : Type) : Type := Nat → List Deed × Except Error (α × Nat)

namespace WordMachine

variable {α β : Type} {bits : Nat} {code : Bytes}

/-- A run that goes on, where it gave an answer, with another from there. -/
def followed {γ δ : Type} (first : List Deed × Except Error γ) (next : γ → List Deed × Except Error δ) :
    List Deed × Except Error δ :=
  match first.2 with
  | .error e => (first.1, .error e)
  | .ok found => (first.1 ++ (next found).1, (next found).2)

/-- Does one thing and gives a value. -/
def doing (deed : Deed) (value : α) : WordMachine bits code α := fun place => ([deed], .ok (value, place))

instance : Monad (WordMachine bits code) where
  pure value := fun place => ([], .ok (value, place))
  bind run next := fun place => followed (run place) fun found => next found.1 found.2

instance : OperandMachine (WordMachine bits code) where
  fail e := fun _ => ([], .error e)
  byte := fun place =>
    match code[place]? with
    | none => ([], .error (.malformedClassFile .operandPastEnd))
    | some b => ([.look place], .ok (b, place + 1))
  pass count := fun place => ([], .ok ((), place + count))
  entryCount low high :=
    let entries := wrapped bits (high - low + 1)
    doing (.count low high entries) entries
  placeAt base distance :=
    let place := wrapped bits (base + distance)
    doing (.aim distance place) place
  labelAt place :=
    let stored := UInt32.ofInt place
    doing (.label place stored) ⟨stored.toNat⟩
  expectEntries kind length count width := fun place =>
    if ((length - place : Nat) : Int) < wrapped bits (count * width : Nat) then
      ([], .error (.malformedClassFile (.switchEntries kind count)))
    else ([], .ok ((), place))
  makeRoom kind count := fun place => ([.build kind place count], .ok ((), place))

/-! ## Safe deeds -/

/-- A signed number of four bytes. -/
def IsDouble (n : Int) : Prop := -2 ^ 31 ≤ n ∧ n < 2 ^ 31

end WordMachine

/-- What decoding an instruction at an offset of a code array may do. It looks at the bytes from the opcode to the end of the
array; it computes exactly, from operands of at most four bytes; a label that it stores is the place itself, inside the array;
a table that it builds has as many entries as the bytes left can hold, or fewer. -/
def Deed.Safe (code : Bytes) (offset : Nat) : Deed → Prop
  | look index => offset ≤ index ∧ index < code.length
  | count low high entries => WordMachine.IsDouble low ∧ WordMachine.IsDouble high ∧ entries = high - low + 1
  | aim distance place => WordMachine.IsDouble distance ∧ place = offset + distance
  | label place stored => (stored.toNat : Int) = place ∧ stored.toNat < code.length
  | build kind start entries => entries * kind.width ≤ code.length - start

namespace WordMachine

open Operands

/-- On a code array, a run answers as a reader does; from the offset on all its deeds are safe; and what it gives has a
property. -/
structure Performs {α : Type} {bits : Nat} {code : Bytes} (offset : Nat) (run : WordMachine bits code α) (read : Operands α)
    (property : α → Prop) : Prop where
  same : ∀ place, read ⟨place, code.drop place⟩ =
    (run place).2.map fun found => (found.1, ⟨found.2, code.drop found.2⟩)
  safe : ∀ place, offset ≤ place → ∀ deed ∈ (run place).1, deed.Safe code offset
  gives : ∀ place value after, (run place).2 = .ok (value, after) → place ≤ after ∧ property value

section

variable {α β : Type} {bits : Nat} {code : Bytes} {offset : Nat} {property : α → Prop} {other : β → Prop}

namespace Performs

theorem pure {a : α} (holds : property a) :
    Performs offset (pure a : WordMachine bits code α) (pure a : Operands α) property where
  same place := rfl
  safe place _ deed mem := by cases mem
  gives place value after ran := by
    cases ran
    exact ⟨Nat.le_refl place, holds⟩

theorem fail (e : Error) : Performs offset (fail e : WordMachine bits code α) (fail e : Operands α) property where
  same place := rfl
  safe place _ deed mem := by cases mem
  gives place value after ran := by cases ran

/-- A single safe deed. -/
theorem doing {deed : Deed} {a : α} (harmless : deed.Safe code offset) (holds : property a) :
    Performs offset (doing deed a : WordMachine bits code α) (Pure.pure a : Operands α) property where
  same place := rfl
  safe place _ found mem := by
    rw [List.mem_singleton.mp mem]
    exact harmless
  gives place value after ran := by
    cases ran
    exact ⟨Nat.le_refl place, holds⟩

/-- Two readings in a row perform what both perform, and the second may use what holds of the value of the first. -/
theorem bind {run : WordMachine bits code α} {read : Operands α} {next : α → WordMachine bits code β}
    {reader : α → Operands β} (head : Performs offset run read property)
    (tail : ∀ a, property a → Performs offset (next a) (reader a) other) :
    Performs offset (run >>= next) (read >>= reader) other where
  same place := by
    change (read ⟨place, code.drop place⟩).bind (fun p => reader p.1 p.2) =
      (followed (run place) fun found => next found.1 found.2).2.map _
    rw [head.same]
    cases ran : (run place).2 with
    | error e => simp [followed, ran, Except.map, Except.bind]
    | ok found =>
      have given := (head.gives place found.1 found.2 ran).2
      simpa [followed, ran, Except.map, Except.bind] using (tail found.1 given).same found.2
  safe place within deed mem := by
    change deed ∈ (followed (run place) fun found => next found.1 found.2).1 at mem
    rw [followed] at mem
    cases ran : (run place).2 with
    | error e =>
      rw [ran] at mem
      exact head.safe place within deed mem
    | ok found =>
      obtain ⟨forward, given⟩ := head.gives place found.1 found.2 ran
      rw [ran] at mem
      rcases List.mem_append.mp mem with early | late
      · exact head.safe place within deed early
      · exact (tail found.1 given).safe found.2 (Nat.le_trans within forward) deed late
  gives place value after ended := by
    change (followed (run place) fun found => next found.1 found.2).2 = _ at ended
    rw [followed] at ended
    cases ran : (run place).2 with
    | error e =>
      rw [ran] at ended
      cases ended
    | ok found =>
      obtain ⟨forward, given⟩ := head.gives place found.1 found.2 ran
      rw [ran] at ended
      obtain ⟨further, holds⟩ := (tail found.1 given).gives found.2 value after ended
      exact ⟨Nat.le_trans forward further, holds⟩

theorem map {run : WordMachine bits code α} {read : Operands α} {f : α → β} (head : Performs offset run read property)
    (holds : ∀ a, property a → other (f a)) : Performs offset (f <$> run) (f <$> read) other :=
  head.bind fun a given => pure (holds a given)

/-- A choice performs what the way that is taken performs. -/
theorem ite {c : Prop} [Decidable c] {yes no : WordMachine bits code α} {first second : Operands α}
    (taken : c → Performs offset yes first property) (left : ¬ c → Performs offset no second property) :
    Performs offset (if c then yes else no) (if c then first else second) property := by
  split
  · rename_i holds
    exact taken holds
  · rename_i fails
    exact left fails

/-- Readings of one kind in a row perform what each of them performs. -/
theorem times {run : WordMachine bits code α} {read : Operands α} (each : Performs offset run read property) (count : Nat) :
    Performs offset (times run count) (JvmUnits.times read count) fun _ => True := by
  induction count with
  | zero => exact pure trivial
  | succ n ih => exact each.bind fun _ _ => ih.bind fun _ _ => pure trivial

end Performs

/-- Reading a byte looks at the code where the cursor is, inside of it. -/
theorem performs_byte : Performs offset (byte : WordMachine bits code UInt8) byte fun _ => True := by
  have runs (place : Nat) : (byte : WordMachine bits code UInt8) place =
      match code[place]? with
      | none => ([], .error (.malformedClassFile .operandPastEnd))
      | some b => ([.look place], .ok (b, place + 1)) := rfl
  constructor
  · intro place
    rw [runs]
    cases there : code[place]? with
    | none =>
      have finished : code.drop place = [] := List.drop_eq_nil_of_le (List.getElem?_eq_none_iff.mp there)
      rw [finished]
      rfl
    | some b =>
      obtain ⟨inside, rfl⟩ := List.getElem?_eq_some_iff.mp there
      rw [List.drop_eq_getElem_cons inside]
      rfl
  · intro place within deed mem
    rw [runs] at mem
    cases there : code[place]? with
    | none => simp [there] at mem
    | some b =>
      have only : deed = .look place := by simpa [there] using mem
      subst only
      exact ⟨within, (List.getElem?_eq_some_iff.mp there).1⟩
  · intro place value after ran
    rw [runs] at ran
    cases there : code[place]? with
    | none => simp [there] at ran
    | some b =>
      obtain ⟨_, rfl⟩ : b = value ∧ place + 1 = after := by simpa [there] using ran
      exact ⟨Nat.le_succ place, trivial⟩

/-- Passing over bytes moves the cursor and looks at nothing. -/
theorem performs_pass (bytes : Nat) :
    Performs offset (pass bytes : WordMachine bits code Unit) (pass bytes) fun _ => True where
  same place := by
    rw [pass_apply, List.drop_drop]
    rfl
  safe place _ deed mem := by cases mem
  gives place value after ran := by
    cases ran
    exact ⟨Nat.le_add_right place bytes, trivial⟩

/-- A look into the pool does nothing to the code. -/
theorem performs_lookUp (found : Except Error α) :
    Performs offset (lookUp found : WordMachine bits code α) (lookUp found) fun _ => True := by
  cases found with
  | error e => exact .fail e
  | ok value => exact .pure trivial

theorem performs_word : Performs offset (word : WordMachine bits code UInt16) word fun _ => True :=
  performs_byte.bind fun _ _ => performs_byte.bind fun _ _ => .pure trivial

/-- A number of up to 32 bits with a sign is a signed number of 32 bits. -/
theorem isDouble_signed (bits : Nat) {n : Nat} (narrow : bits < 32) (small : n < 2 ^ (bits + 1)) :
    IsDouble (signed (bits + 1) n) := by
  have widest : 2 ^ bits ≤ 2 ^ 31 := Nat.pow_le_pow_right (by decide) (by omega)
  rw [Nat.pow_succ] at small
  unfold IsDouble signed
  rw [Nat.one_shiftLeft, Nat.one_shiftLeft, Nat.add_sub_cancel, Nat.pow_succ]
  split <;> omega

theorem performs_signedByte : Performs offset (signedByte : WordMachine bits code Int) signedByte fun _ => True :=
  performs_byte.bind fun _ _ => .pure trivial

theorem performs_signedWord : Performs offset (signedWord : WordMachine bits code Int) signedWord IsDouble :=
  performs_word.bind fun w _ => .pure (isDouble_signed 15 (by decide) w.toNat_lt)

/-- Four bytes are a signed number of 32 bits. -/
theorem performs_signedDouble : Performs offset (signedDouble : WordMachine bits code Int) signedDouble IsDouble :=
  performs_word.bind fun high _ => performs_word.bind fun low _ =>
    .pure (isDouble_signed 31 (by decide) (by have := high.toNat_lt; have := low.toNat_lt; omega))

theorem performs_wide : Performs offset (wide : WordMachine bits code Instruction) wide fun _ => True :=
  performs_byte.bind fun _ _ => performs_word.bind fun _ _ =>
    .ite (fun _ => performs_signedWord.bind fun _ _ => .pure trivial)
      fun _ => .ite (fun _ => .pure trivial) fun _ => .fail _

/-! ## Words that are wide enough -/

/-- A word of so many bits holds every number that decoding the code array computes: the bytes of a table over all keys of four
bytes, and the offsets of the array with any distance of four bytes added. And 32 bits hold every offset of the array. -/
structure Fits (bits : Nat) (code : Bytes) : Prop where
  words : code.length + 2 ^ 36 ≤ 2 ^ (bits - 1)
  labels : code.length ≤ 2 ^ 32

/-- Words of 64 bits are wide enough for the code of a method, whose length is written in four bytes. -/
theorem fits_code (small : code.length < 2 ^ 32) : Fits 64 code := by
  constructor <;> omega

/-- Numbers of the size of the code array do not wrap around. -/
theorem wrapped_eq (fits : Fits bits code) {n : Int} (lower : -2 ^ 36 ≤ n) (upper : n < code.length + 2 ^ 36) :
    wrapped bits n = n := by
  have wide := fits.words
  cases bits with
  | zero => omega
  | succ bits =>
    rw [Nat.add_sub_cancel] at wide
    refine Int.bmod_eq_of_le ?_ ?_ <;> rw [Nat.pow_succ] <;> omega

/-- The offsets of the code array are labels as they are. -/
theorem toNat_ofInt_eq (fits : Fits bits code) {place : Int} (lower : 0 ≤ place) (upper : place < code.length) :
    (UInt32.ofInt place).toNat = place.toNat := by
  have narrow := fits.labels
  rw [UInt32.ofInt, UInt32.toNat_ofNat']
  omega

section

variable (fits : Fits bits code)
include fits

/-- The number of entries between two keys that four bytes hold is computed exactly. -/
theorem performs_entryCount {low high : Int} (first : IsDouble low) (last : IsDouble high) :
    Performs offset (entryCount low high : WordMachine bits code Int) (entryCount low high)
      fun entries => entries = high - low + 1 := by
  have exact : wrapped bits (high - low + 1) = high - low + 1 := by
    unfold IsDouble at first last
    exact wrapped_eq fits (by omega) (by omega)
  change Performs offset (doing (.count low high (wrapped bits _)) (wrapped bits _)) (pure _) _
  rw [exact]
  exact .doing ⟨first, last, rfl⟩ rfl

/-- The place at a distance that four bytes hold is computed exactly. -/
theorem performs_placeAt (inside : offset < code.length) {distance : Int} (double : IsDouble distance) :
    Performs offset (placeAt offset distance : WordMachine bits code Int) (placeAt offset distance)
      fun place => place = offset + distance := by
  have exact : wrapped bits (offset + distance) = offset + distance := by
    unfold IsDouble at double
    exact wrapped_eq fits (by omega) (by omega)
  change Performs offset (doing (.aim distance (wrapped bits _)) (wrapped bits _)) (pure _) _
  rw [exact]
  exact .doing ⟨double, rfl⟩ rfl

/-- The label of a place inside the array is not cut down. -/
theorem performs_labelAt {place : Int} (lower : 0 ≤ place) (upper : place < code.length) :
    Performs offset (labelAt place : WordMachine bits code Label) (labelAt place) fun _ => True := by
  have exact := toNat_ofInt_eq fits lower upper
  change Performs offset (doing (.label place (.ofInt place)) (Label.mk (UInt32.ofInt place).toNat))
    (pure (Label.mk place.toNat)) _
  rw [← exact]
  exact .doing ⟨by omega, by omega⟩ trivial

/-- A target is computed without leaving the range of a machine word, and labelled by its place. -/
theorem performs_target (inside : offset < code.length) {distance : Int} (double : IsDouble distance) :
    Performs offset (target code.length offset distance : WordMachine bits code Label)
      (target code.length offset distance) fun _ => True := by
  refine (performs_placeAt fits inside double).bind fun place _ => .ite (fun _ => .fail _) fun within => ?_
  simp only [Bool.or_eq_true, decide_eq_true_eq, not_or, Int.not_lt, Int.not_le] at within
  exact performs_labelAt fits within.1 within.2

theorem performs_wideTarget (inside : offset < code.length) :
    Performs offset (wideTarget code.length offset : WordMachine bits code Label) (wideTarget code.length offset)
      fun _ => True :=
  performs_signedDouble.bind fun _ double => performs_target fits inside double

/-- A table is built behind the check that its entries are there. -/
theorem performs_entries (kind : SwitchKind) {count : Nat} (small : count ≤ 2 ^ 32) {entry : WordMachine bits code α}
    {read : Operands α} (each : Performs offset entry read property) :
    Performs offset (entries kind code.length count kind.width entry) (entries kind code.length count kind.width read)
      fun _ => True := by
  have behind := each.times count
  have exact : wrapped bits (count * kind.width : Nat) = (count * kind.width : Nat) := by
    have narrow : kind.width ≤ 8 := by cases kind <;> decide
    have product : count * kind.width ≤ 2 ^ 32 * 8 := Nat.mul_le_mul small narrow
    exact wrapped_eq fits (by omega) (by omega)
  -- the product is exact, so the machine refuses the same tables; only behind the check does it build one
  have runs (place : Nat) : entries kind code.length count kind.width entry place =
      if code.length - place < count * kind.width then
        ([], .error (.malformedClassFile (.switchEntries kind count)))
      else (.build kind place count :: (times entry count place).1, (times entry count place).2) := by
    change followed (if ((code.length - place : Nat) : Int) < wrapped bits (count * kind.width : Nat) then _ else _) _ = _
    rw [exact]
    simp only [Int.ofNat_lt]
    split <;> rfl
  constructor
  · intro place
    rw [runs, entries_eq]
    change ((expectEntries kind code.length count kind.width : Operands Unit) ⟨place, code.drop place⟩).bind
      (fun p => times read count p.2) = _
    rw [expectEntries_apply]
    split
    · rfl
    · exact behind.same place
  · intro place within deed mem
    rw [runs] at mem
    split at mem
    · cases mem
    · rename_i room
      rcases List.mem_cons.mp mem with rfl | late
      · exact Nat.le_of_not_lt room
      · exact behind.safe place within deed late
  · intro place value after ran
    rw [runs] at ran
    split at ran
    · cases ran
    · exact behind.gives place value after ran

/-- A table switch makes no more room than its code has entries for. -/
theorem performs_tableSwitch (inside : offset < code.length) :
    Performs offset (tableSwitch code.length offset : WordMachine bits code Instruction) (tableSwitch code.length offset)
      fun _ => True := by
  refine (performs_pass _).bind fun _ _ => (performs_wideTarget fits inside).bind fun default _ =>
    performs_signedDouble.bind fun low first => performs_signedDouble.bind fun high last =>
      (performs_entryCount fits first last).bind fun number exact => .ite (fun _ => .fail _) fun _ => ?_
  have small : number.toNat ≤ 2 ^ 32 := by
    unfold IsDouble at first last
    omega
  exact (performs_entries fits .table small (performs_wideTarget fits inside)).bind fun _ _ => .pure trivial

/-- A lookup switch makes no more room than its code has pairs for. -/
theorem performs_lookupSwitch (inside : offset < code.length) :
    Performs offset (lookupSwitch code.length offset : WordMachine bits code Instruction)
      (lookupSwitch code.length offset) fun _ => True := by
  refine (performs_pass _).bind fun _ _ => (performs_wideTarget fits inside).bind fun default _ =>
    performs_signedDouble.bind fun number double => .ite (fun _ => .fail _) fun _ => ?_
  have small : number.toNat ≤ 2 ^ 32 := by
    unfold IsDouble at double
    omega
  have pair : Performs offset (keyedTarget code.length offset : WordMachine bits code (Int × Label))
      (keyedTarget code.length offset) fun _ => True :=
    performs_signedDouble.bind fun _ _ => (performs_wideTarget fits inside).bind fun _ _ => .pure trivial
  exact (performs_entries fits .lookup small pair).bind fun _ _ => .pure trivial

/-- Reading the operands of an instruction is safe from the opcode on. -/
theorem performs_instruction (inside : offset < code.length) (pool : Pool) (opcode : UInt8) :
    Performs offset (instruction pool code.length offset opcode : WordMachine bits code Instruction)
      (instruction pool code.length offset opcode) fun _ => True := by
  unfold instruction
  cases Opcode.format opcode with
  | plain => exact .pure trivial
  | byte => exact performs_signedByte.map fun _ _ => trivial
  | short => exact performs_signedWord.map fun _ _ => trivial
  | unsignedByte => exact performs_byte.bind fun _ _ => .pure trivial
  | constant => exact performs_byte.bind fun _ _ => (performs_lookUp _).bind fun _ _ => .pure trivial
  | wideConstant => exact performs_word.bind fun _ _ => (performs_lookUp _).bind fun _ _ => .pure trivial
  | slot => exact performs_byte.bind fun _ _ => .pure trivial
  | impliedSlot => exact .pure trivial
  | increment => exact performs_byte.bind fun _ _ => performs_signedByte.bind fun _ _ => .pure trivial
  | branch =>
    exact performs_signedWord.bind fun _ double => (performs_target fits inside double).map fun _ _ => trivial
  | wideBranch => exact (performs_wideTarget fits inside).map fun _ _ => trivial
  | tableSwitch => exact performs_tableSwitch fits inside
  | lookupSwitch => exact performs_lookupSwitch fits inside
  | field => exact performs_word.bind fun _ _ => (performs_lookUp _).bind fun _ _ => .pure trivial
  | method => exact performs_word.bind fun _ _ => (performs_lookUp _).bind fun _ _ => .pure trivial
  | interfaceMethod =>
    exact performs_word.bind fun _ _ => (performs_lookUp _).bind fun _ _ =>
      (performs_pass 2).bind fun _ _ => .pure trivial
  | dynamic => exact .fail _
  | type => exact performs_word.bind fun _ _ => (performs_lookUp _).map fun _ _ => trivial
  | multiArray =>
    exact performs_word.bind fun _ _ => (performs_lookUp _).bind fun _ _ => performs_byte.bind fun _ _ => .pure trivial
  | wide => exact performs_wide
  | reserved => exact .fail _

end

end

end WordMachine

/-! ## Decoding by the machine -/

namespace Instruction

/-- Decodes the instruction at an offset of a code array on words of some bits: what is done, and the instruction with its
length in bytes. -/
def perform (bits : Nat) (pool : Pool) (code : Bytes) (offset : Nat) : List Deed × Except Error (Instruction × Nat) :=
  let run := (Operands.byte >>= Operands.instruction pool code.length offset : WordMachine bits code Instruction) offset
  (run.1, run.2.bind fun found =>
    if code.length < found.2 then .error (.malformedClassFile .instructionPastEnd) else .ok (found.1, found.2 - offset))

/-- The loop over the offsets of a code array, for a number of turns: the instructions, each with its offset, and the offset
at which the loop ended; nothing when the turns were not enough. -/
def loop (bits : Nat) (pool : Pool) (code : Bytes) :
    Nat → Nat → Option (Except Error (List (Nat × Instruction) × Nat))
  | 0, offset => if offset < code.length then none else some (.ok ([], offset))
  | turns + 1, offset =>
    if offset < code.length then
      match (perform bits pool code offset).2 with
      | .error e => some (.error e)
      | .ok (instruction, length) =>
        (loop bits pool code turns (offset + length)).map fun later =>
          later.map fun found => ((offset, instruction) :: found.1, found.2)
    else some (.ok ([], offset))

section

variable {bits : Nat} {pool : Pool} {code : Bytes} {offset : Nat} {opcode : UInt8}

/-- On words that are wide enough the machine decodes as the decoder does, by safe deeds. -/
theorem perform_eq (pool : Pool) (fits : WordMachine.Fits bits code) (there : code[offset]? = some opcode) :
    (perform bits pool code offset).2 = (decode pool code.length offset opcode (code.drop (offset + 1))).map
        (fun found => (found.1, found.2.offset - offset)) ∧
      ∀ deed ∈ (perform bits pool code offset).1, deed.Safe code offset := by
  have inside : offset < code.length := (List.getElem?_eq_some_iff.mp there).1
  have opened : WordMachine.Performs offset (Operands.byte : WordMachine bits code UInt8) Operands.byte fun _ => True :=
    WordMachine.performs_byte
  have whole := opened.bind fun b _ => WordMachine.performs_instruction fits inside pool b
  refine ⟨?_, whole.safe offset (Nat.le_refl offset)⟩
  have answer := whole.same offset
  rw [List.drop_eq_getElem_cons inside, Option.some.inj ((List.getElem?_eq_getElem inside).symm.trans there)] at answer
  change (Operands.instruction pool code.length offset opcode : Operands Instruction)
    ⟨offset + 1, code.drop (offset + 1)⟩ = _ at answer
  unfold perform decode
  rw [answer]
  dsimp only
  cases ((Operands.byte >>= Operands.instruction pool code.length offset : WordMachine bits code Instruction) offset).2 with
  | error e => rfl
  | ok found => by_cases past : code.length < found.2 <;> simp [Except.map, Except.bind, past]

/-- An instruction takes at least its opcode, and ends inside the code array. -/
theorem length_of_decode {operands : Bytes} {instruction : Instruction} {after : Cursor}
    (decoded : decode pool code.length offset opcode operands = .ok (instruction, after)) :
    offset < after.offset ∧ after.offset ≤ code.length := by
  obtain ⟨inside, count, rfl⟩ := decode_advances decoded
  exact ⟨by simp only; omega, inside⟩

/-- What stands at an offset is the first of the bytes from there on. -/
theorem opcode_of_drop {operands : Bytes} (here : opcode :: operands = code.drop offset) :
    offset < code.length ∧ code[offset]? = some opcode ∧ operands = code.drop (offset + 1) := by
  have first : code[offset]? = some opcode := by
    rw [← Nat.add_zero offset, ← List.getElem?_drop, ← here]
    rfl
  refine ⟨(List.getElem?_eq_some_iff.mp first).1, first, ?_⟩
  rw [← List.drop_drop, ← here]
  rfl

/-- As many turns as there are bytes left are enough, and the loop ends at the end of the code array. -/
theorem loop_eq_sweep (fits : WordMachine.Fits bits code) {bytes : Bytes} (inside : offset ≤ code.length)
    (here : bytes = code.drop offset) {turns : Nat} (enough : code.length - offset ≤ turns) :
    loop bits pool code turns offset =
      some ((sweep pool code.length offset bytes).map fun placed => (placed, code.length)) := by
  -- along the sweep: an instruction takes at least one byte, so one turn less is enough behind it
  fun_induction sweep pool code.length offset bytes generalizing turns with
  | case1 offset =>
    have past : code.length ≤ offset := List.drop_eq_nil_iff.mp here.symm
    obtain rfl : offset = code.length := Nat.le_antisymm inside past
    cases turns <;> simp [loop, Except.map]
  | case2 offset opcode operands e failed =>
    obtain ⟨more, there, rfl⟩ := opcode_of_drop here
    obtain ⟨turns, rfl⟩ : ∃ less, turns = less + 1 := ⟨turns - 1, by omega⟩
    have answer := (perform_eq pool fits there).1
    rw [failed] at answer
    rw [loop, if_pos more, answer]
    rfl
  | case3 offset opcode operands instruction after decoded shorter ih =>
    obtain ⟨more, there, rfl⟩ := opcode_of_drop here
    obtain ⟨turns, rfl⟩ : ∃ less, turns = less + 1 := ⟨turns - 1, by omega⟩
    have answer := (perform_eq pool fits there).1
    rw [decoded] at answer
    obtain ⟨forward, within⟩ := length_of_decode decoded
    have later : loop bits pool code turns after.offset = _ := ih within (rest_of_decode here.symm decoded) (by omega)
    have next : offset + (after.offset - offset) = after.offset := by omega
    rw [loop, if_pos more, answer]
    simp only [Except.map, next, later, Option.map_some]
    cases sweep pool code.length after.offset after.rest <;> rfl

end

/-- Decoding a code array of at most 2 ^ 32 bytes on words that are wide enough. At every offset the machine answers
as the decoder does, by safe deeds, and an instruction takes at least one byte and at most those left. The loop over the
offsets ends after at most as many turns as there are bytes; it answers as the decoder does, and where it gives instructions
it has ended exactly at the end of the code array. -/
theorem decode_deeds {bits : Nat} (pool : Pool) (code : Bytes) (fits : WordMachine.Fits bits code) :
    (∀ offset opcode, code[offset]? = some opcode →
      (perform bits pool code offset).2 = (decode pool code.length offset opcode (code.drop (offset + 1))).map
          (fun found => (found.1, found.2.offset - offset)) ∧
        (∀ deed ∈ (perform bits pool code offset).1, deed.Safe code offset) ∧
        ∀ instruction length, (perform bits pool code offset).2 = .ok (instruction, length) →
          1 ≤ length ∧ length ≤ code.length - offset) ∧
      ∀ turns, code.length ≤ turns →
        loop bits pool code turns 0 = some ((decodeAll pool code).map fun placed => (placed, code.length)) := by
  constructor
  · intro offset opcode there
    obtain ⟨answer, safe⟩ := perform_eq pool fits there
    refine ⟨answer, safe, fun instruction length performed => ?_⟩
    rw [answer] at performed
    cases decoded : decode pool code.length offset opcode (code.drop (offset + 1)) with
    | error e =>
      rw [decoded] at performed
      cases performed
    | ok found =>
      rw [decoded] at performed
      cases performed
      have := length_of_decode decoded
      omega
  · intro turns enough
    exact loop_eq_sweep fits (Nat.zero_le _) rfl enough

end Instruction

/-! ## The widest switch -/

namespace WidestSwitch

open Instruction

/-- A switch over the greatest key of four bytes, and one over all keys of four bytes that ends before its table. -/
def code : Bytes :=
  [0xaa, 0, 0, 0, 0, 0, 0, 0, 0x7f, 0xff, 0xff, 0xff, 0x7f, 0xff, 0xff, 0xff, 0, 0, 0, 20,
    0xaa, 0, 0, 0, 0xff, 0xff, 0xff, 0xec, 0x80, 0, 0, 0, 0x7f, 0xff, 0xff, 0xff]

/-- The table of the first switch is built. The entries of the second are counted exactly and refused, before any table. -/
theorem decode_code :
    WordMachine.Fits 64 code ∧
      perform 64 .empty code 0 =
        ([.look 0, .look 4, .look 5, .look 6, .look 7, .aim 0 0, .label 0 0, .look 8, .look 9, .look 10, .look 11,
          .look 12, .look 13, .look 14, .look 15, .count 2147483647 2147483647 1, .build .table 16 1, .look 16, .look 17,
          .look 18, .look 19, .aim 20 20, .label 20 20], .ok (.tableSwitch 2147483647 2147483647 ⟨0⟩ [⟨20⟩], 20)) ∧
      (∀ deed ∈ (perform 64 .empty code 0).1, deed.Safe code 0) ∧ 20 ≤ code.length - 0 ∧
      perform 64 .empty code 20 =
        ([.look 20, .look 24, .look 25, .look 26, .look 27, .aim (-20) 0, .label 0 0, .look 28, .look 29, .look 30, .look 31,
          .look 32, .look 33, .look 34, .look 35, .count (-2147483648) 2147483647 4294967296],
          .error (.malformedClassFile (.switchEntries .table 4294967296))) ∧
      (∀ deed ∈ (perform 64 .empty code 20).1, deed.Safe code 20) ∧
      loop 64 .empty code 36 0 = some (.error (.malformedClassFile (.switchEntries .table 4294967296))) := by
  have fits : WordMachine.Fits 64 code := WordMachine.fits_code (by decide)
  obtain ⟨each, whole⟩ := decode_deeds .empty code fits
  obtain ⟨-, first, length⟩ := each 0 0xaa rfl
  obtain ⟨-, second, -⟩ := each 20 0xaa rfl
  have performed : (perform 64 .empty code 0).2 = .ok (.tableSwitch 2147483647 2147483647 ⟨0⟩ [⟨20⟩], 20) := by
    decide +kernel
  refine ⟨fits, by decide +kernel, first, (length _ _ performed).2, by decide +kernel, second, ?_⟩
  rw [whole 36 (by decide)]
  decide +kernel

end WidestSwitch

end JvmUnits
