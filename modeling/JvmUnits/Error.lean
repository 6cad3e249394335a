import JvmUnits.Access
import JvmUnits.ClassFile.Fault
import JvmUnits.Descriptor.Token
import JvmUnits.Disk.OsError
import JvmUnits.Text.Quoted

/-!
# Errors

Every reason for which a class cannot be compiled, and its wording.
-/

namespace JvmUnits

/-- A construct of the class-file format that has no counterpart in a unit. -/
inductive UnsupportedConstruct where
  | invokeDynamic
  | opcode (opcode : UInt8)
  | opcodeAt (opcode : UInt8) (offset : Nat)
  | arrayClassLiteral (name : String)
  deriving DecidableEq, Repr

/-- The construct in words. -/
def UnsupportedConstruct.label : UnsupportedConstruct → String
  | invokeDynamic => "invokedynamic"
  | opcode op => "opcode 0x" ++ hexDigits 2 op.toNat
  | opcodeAt op offset => "opcode 0x" ++ hexDigits 2 op.toNat ++ " at offset " ++ toString offset
  | arrayClassLiteral name => "class literal of array type " ++ name

/-- Why a class cannot be compiled. -/
inductive Error where
  | classNotFound (name : String)
  | malformedDescriptor (text : String) (fault : DescriptorFault)
  | unsupportedConstruct (construct : UnsupportedConstruct)
  | unsupportedConstant (kind : String) (index : UInt16)
  | corruptAccessFlags (site : AccessSite) (word leftover : Nat)
  | malformedClassFile (fault : ClassFault)
  | file (path : String) (cause : OsError)
  deriving DecidableEq, Repr

/-- The error in words. -/
def Error.message : Error → String
  | classNotFound name => "no implementation found for class " ++ name
  | malformedDescriptor text fault => "malformed descriptor " ++ quoted text ++ ": " ++ fault.reason
  | unsupportedConstruct construct => "unsupported construct: " ++ construct.label
  | unsupportedConstant kind index =>
    "unsupported constant of kind " ++ kind ++ " at constant pool index " ++ toString index.toNat
  | corruptAccessFlags site word leftover =>
    "unknown access flag bits 0x" ++ hexDigits 4 leftover ++ " in 0x" ++ hexDigits 4 word ++ " (" ++ site.label ++ ")"
  | malformedClassFile fault => "malformed class file: " ++ fault.reason
  | file path cause => "I/O failure on " ++ path ++ ": " ++ cause.message

/-- The error in words, and after it the refusal of the file system that caused it, if one did. -/
def Error.chain (error : Error) : List String :=
  match error with
  | .file _ cause => [error.message, cause.message]
  | _ => [error.message]

/-- The flags of a word at a site; a word with other bits is corrupt. -/
def AccessSite.decompose (site : AccessSite) (word : Nat) : Except Error (List AccessFlag) :=
  let leftover := site.leftover word
  if leftover = 0 then .ok (site.present word) else .error (.corruptAccessFlags site word leftover)

end JvmUnits
