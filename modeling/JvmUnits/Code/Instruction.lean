import JvmUnits.ClassFile.Pool

/-!
# Instructions

An instruction in canonical form: short forms, wide forms and the long forms of loads and jumps are spelled like the plain
ones, operands that name something in the constant pool are resolved, and branches lead to labels.
-/

namespace JvmUnits

/-- A place in a code array. -/
structure Label where
  offset : Nat
  deriving DecidableEq, Repr

/-- The name of a place in a unit. -/
def Label.name (label : Label) : String := "L" ++ toString label.offset

/-- An instruction in canonical form. -/
inductive Instruction where
  | plain (opcode : UInt8)
  | int (opcode : UInt8) (operand : Int)
  | var (opcode : UInt8) (slot : UInt16)
  | type (opcode : UInt8) (className : String)
  | field (opcode : UInt8) (owner name descriptor : String)
  | method (opcode : UInt8) (owner name descriptor : String) (inInterface : Bool)
  | jump (opcode : UInt8) (target : Label)
  | load (index : UInt16) (constant : Loadable)
  | increment (slot : UInt16) (amount : Int)
  | tableSwitch (low high : Int) (default : Label) (targets : List Label)
  | lookupSwitch (default : Label) (keys : List Int) (targets : List Label)
  | multiArray (descriptor : String) (dimensions : UInt8)
  deriving DecidableEq, Repr

/-- The places that an instruction may go on at, other than the next instruction. -/
def Instruction.targets : Instruction → List Label
  | jump _ target => [target]
  | tableSwitch _ _ default targets => targets ++ [default]
  | lookupSwitch default _ targets => targets ++ [default]
  | _ => []

/-- How the operands of an instruction are written. -/
inductive OperandFormat where
  /-- no operands -/
  | plain
  /-- a signed byte -/
  | byte
  /-- a signed number of two bytes -/
  | short
  /-- the index of a constant in one byte -/
  | constant
  /-- the index of a constant in two bytes -/
  | wideConstant
  /-- a local variable in one byte -/
  | slot
  /-- no operands: the opcode tells the canonical opcode and the variable -/
  | impliedSlot (opcode : UInt8) (slot : UInt16)
  /-- a local variable and a signed byte -/
  | increment
  /-- a branch of two bytes -/
  | branch
  /-- a branch of four bytes of an instruction with the canonical opcode -/
  | wideBranch (opcode : UInt8)
  | tableSwitch
  | lookupSwitch
  /-- the index of a field -/
  | field
  /-- the index of a method -/
  | method
  /-- the index of a method and two more bytes -/
  | interfaceMethod
  | dynamic
  /-- the index of a class -/
  | type
  /-- an unsigned byte -/
  | unsignedByte
  /-- the index of a class and a number of dimensions -/
  | multiArray
  /-- an instruction on a local variable with its operands in two bytes each -/
  | wide
  | reserved
  deriving DecidableEq, Repr

namespace Opcode

def iload : UInt8 := 0x15
def aload : UInt8 := 0x19
def iload0 : UInt8 := 0x1a
def istore : UInt8 := 0x36
def astore : UInt8 := 0x3a
def istore0 : UInt8 := 0x3b
def iinc : UInt8 := 0x84
def goto : UInt8 := 0xa7
def jsr : UInt8 := 0xa8
def ret : UInt8 := 0xa9

/-- The opcode of an instruction that names a local variable. -/
def namesVariable (opcode : UInt8) : Bool :=
  (iload ≤ opcode && opcode ≤ aload) || (istore ≤ opcode && opcode ≤ astore) || opcode == ret

/-- The short forms that start at an opcode, four for each type: the canonical opcode and the variable. -/
def shortForm (first canonical opcode : UInt8) : OperandFormat :=
  let distance := opcode - first
  .impliedSlot (canonical + distance / 4) (distance % 4).toUInt16

/-- How the operands of an opcode are written. -/
def format (opcode : UInt8) : OperandFormat :=
  if opcode ≤ 0x0f then .plain
  else if opcode = 0x10 then .byte
  else if opcode = 0x11 then .short
  else if opcode = 0x12 then .constant
  else if opcode ≤ 0x14 then .wideConstant
  else if opcode ≤ aload then .slot
  else if opcode ≤ 0x2d then shortForm iload0 iload opcode
  else if opcode ≤ 0x35 then .plain
  else if opcode ≤ astore then .slot
  else if opcode ≤ 0x4e then shortForm istore0 istore opcode
  else if opcode ≤ 0x83 then .plain
  else if opcode = iinc then .increment
  else if opcode ≤ 0x98 then .plain
  else if opcode ≤ jsr then .branch
  else if opcode = ret then .slot
  else if opcode = 0xaa then .tableSwitch
  else if opcode = 0xab then .lookupSwitch
  else if opcode ≤ 0xb1 then .plain
  else if opcode ≤ 0xb5 then .field
  else if opcode ≤ 0xb8 then .method
  else if opcode = 0xb9 then .interfaceMethod
  else if opcode = 0xba then .dynamic
  else if opcode = 0xbb then .type
  else if opcode = 0xbc then .unsignedByte
  else if opcode = 0xbd then .type
  else if opcode ≤ 0xbf then .plain
  else if opcode ≤ 0xc1 then .type
  else if opcode ≤ 0xc3 then .plain
  else if opcode = 0xc4 then .wide
  else if opcode = 0xc5 then .multiArray
  else if opcode ≤ 0xc7 then .branch
  else if opcode = 0xc8 then .wideBranch goto
  else if opcode = 0xc9 then .wideBranch jsr
  else .reserved

end Opcode

end JvmUnits
