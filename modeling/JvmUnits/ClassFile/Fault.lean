import JvmUnits.ClassFile.Constant
import JvmUnits.Text.Hex

/-!
# What can be wrong with a class file

Three kinds of faults: the bytes do not follow the layout of the format, an index of the constant pool does not lead to what
is needed, or a code array and its tables do not fit together.
-/

namespace JvmUnits

/-- A break of the byte layout. Positions are given by the number of bytes that were left to read. -/
inductive LayoutFault where
  | numberPastEnd (left : Nat)
  | blockPastEnd (left size : Nat)
  | magic
  | constantTag (tag : UInt8)
  | noAttributeName (index : UInt16)
  | attributeNameNotText (found : Constant)
  | attributeName (name : String)
  | elementTag (tag : UInt8)
  | frameType (tag : UInt8)
  | verificationTag (tag : UInt8)
  | targetType (tag : UInt8)
  | bytesLeft (left : Nat)
  deriving DecidableEq, Repr

/-- The fault in words, for a file of a given length. -/
def LayoutFault.reason (length : Nat) : LayoutFault → String
  | numberPastEnd left =>
    "I/O Error: overflow : attempt to read from " ++ toString (length - left) ++ " whereas len is " ++ toString length
  | blockPastEnd left size =>
    "I/O Error: Index out of bounds: " ++ toString (length - left + size) ++ " of " ++ toString length
  | magic => "InvalidInput Error: Not a valid class-file"
  | constantTag tag => "I/O Error: unmatched tag: " ++ toString tag.toNat
  | noAttributeName index => "I/O Error: element not found at index " ++ toString index.toNat
  | attributeNameNotText found => "I/O Error: element type is not Uint8 but " ++ found.describe
  | attributeName name => "I/O Error: unmatched attribute: " ++ name
  | elementTag tag => "I/O Error: Unsupported element tag: " ++ toString tag.toNat
  | frameType tag => "I/O Error: Unsupported frame_type: " ++ toString tag.toNat
  | verificationTag tag => "I/O Error: tag " ++ toString tag.toNat ++ " is not valid"
  | targetType tag => "I/O Error: Invalid target_type: " ++ toString tag.toNat
  | bytesLeft left =>
    "I/O Error: Not all was read : data.len() is " ++ toString length ++ ", start_from is " ++ toString (length - left)

/-- What an index of the constant pool is expected to lead to. -/
inductive ConstantUse where
  | text | className | nameAndType | member
  deriving DecidableEq, Repr

/-- The expected entry in words. -/
def ConstantUse.label : ConstantUse → String
  | text => "utf8"
  | className => "class"
  | nameAndType => "name and type"
  | member => "member reference"

/-- The two switch instructions. -/
inductive SwitchKind where
  | table | lookup
  deriving DecidableEq, Repr

/-- The name of a switch in messages. -/
def SwitchKind.label : SwitchKind → String
  | table => "tableswitch"
  | lookup => "lookupswitch"

/-- Why a class file is malformed. -/
inductive ClassFault where
  | layout (length : Nat) (fault : LayoutFault)
  | unusableIndex (index : UInt16)
  | invalidIndex (index : UInt16)
  | unexpectedConstant (wanted : ConstantUse) (index : UInt16) (found : Constant)
  | operandPastEnd
  | instructionPastEnd
  | branchOutside (base : Nat) (target : Int)
  | switchRange
  | switchPairs
  | switchEntries (kind : SwitchKind) (count : Int)
  | wideOpcode (opcode : UInt8)
  | offsetOutside (offset length : Nat)
  | localOutside (name : String)
  | misaligned (label : String)
  deriving DecidableEq, Repr

/-- The fault in words. -/
def ClassFault.reason : ClassFault → String
  | layout length fault => "failed to parse class file: " ++ fault.reason length
  | unusableIndex index => "unusable constant pool index " ++ toString index.toNat
  | invalidIndex index => "invalid constant pool index " ++ toString index.toNat
  | unexpectedConstant wanted index found =>
    "expected " ++ wanted.label ++ " at constant pool index " ++ toString index.toNat ++ ", found " ++ found.kind
  | operandPastEnd => "bytecode operand out of bounds"
  | instructionPastEnd => "instruction runs past the end of the code array"
  | branchOutside base target =>
    "branch at offset " ++ toString base ++ " targets " ++ toString target ++ " outside the code array"
  | switchRange => "invalid tableswitch range"
  | switchPairs => "invalid lookupswitch pairs"
  | switchEntries kind count =>
    kind.label ++ " declares " ++ toString count ++ " entries past the end of the code array"
  | wideOpcode opcode => "wide prefix on opcode 0x" ++ hexDigits 2 opcode.toNat
  | offsetOutside offset length => "offset " ++ toString offset ++ " outside code of length " ++ toString length
  | localOutside name => "local variable " ++ name ++ " ends outside the code array"
  | misaligned label => label ++ " does not start an instruction"

end JvmUnits
