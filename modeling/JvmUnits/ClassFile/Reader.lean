import JvmUnits.Bytes
import JvmUnits.ClassFile.Fault

/-!
# Reading the bytes of a class file

A reader takes some bytes from the front and gives back the rest. Every step reports where it ran out of bytes: numbers by the
place where they start, blocks by the place where they would have ended.
-/

namespace JvmUnits

/-- Reads a value from the front of the bytes. -/
abbrev Reader := StateT Bytes (Except LayoutFault)

namespace Reader

/-- Gives up. -/
def fail {α : Type} (fault : LayoutFault) : Reader α := fun _ => .error fault

/-- Reads a number of one byte. -/
def u1 : Reader UInt8
  | a :: rest => .ok (a, rest)
  | rest => .error (.numberPastEnd rest.length)

/-- Reads a number of two bytes. -/
def u2 : Reader UInt16
  | a :: b :: rest => .ok (UInt16.ofNat (bigEndian [a, b]), rest)
  | rest => .error (.numberPastEnd rest.length)

/-- Reads a number of four bytes. -/
def u4 : Reader Nat
  | a :: b :: c :: d :: rest => .ok (bigEndian [a, b, c, d], rest)
  | rest => .error (.numberPastEnd rest.length)

/-- Reads a number of eight bytes. -/
def u8 : Reader Nat
  | a :: b :: c :: d :: e :: f :: g :: h :: rest => .ok (bigEndian [a, b, c, d, e, f, g, h], rest)
  | rest => .error (.numberPastEnd rest.length)

/-- Reads a block of bytes. -/
def block (size : Nat) : Reader Bytes := fun bytes =>
  let taken := bytes.take size
  if taken.length < size then .error (.blockPastEnd bytes.length size) else .ok (taken, bytes.drop size)

/-- Checks that a block of bytes is there, and leaves it unread. -/
def expectBlock (size : Nat) : Reader Unit := fun bytes =>
  if (bytes.take size).length < size then .error (.blockPastEnd bytes.length size) else .ok ((), bytes)

/-- Reads a count of two bytes and then as many items. -/
def counted {α : Type} (item : Reader α) : Reader (List α) := do
  let count ← u2
  times item count.toNat

/-- Reads a count of one byte and then as many items. -/
def countedShort {α : Type} (item : Reader α) : Reader (List α) := do
  let count ← u1
  times item count.toNat

/-- Passes over numbers of two bytes. -/
def skip (count : Nat) : Reader Unit := do
  let _ ← times u2 count
  pure ()

/-- Passes over counted items. -/
def skipCounted (item : Reader Unit) : Reader Unit := do
  let _ ← counted item
  pure ()

/-- Passes over items with a count of one byte. -/
def skipCountedShort (item : Reader Unit) : Reader Unit := do
  let _ ← countedShort item
  pure ()

end Reader

end JvmUnits
