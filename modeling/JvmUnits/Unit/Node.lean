import JvmUnits.Access
import JvmUnits.Code.Instruction
import JvmUnits.Descriptor.Token

/-!
# Nodes of a unit

The body of a method in a unit is a list of nodes. Opcodes are given by their mnemonics and class names are runtime names.
-/

namespace JvmUnits

/-- A number in a unit, with the width it had in the class file. -/
inductive Numeric where
  | int (value : Int)
  | long (value : Int)
  | float (word : UInt32)
  | double (word : UInt64)
  deriving DecidableEq, Repr

/-- A constant that a node loads. -/
inductive Literal where
  | string (text : String)
  | numeric (value : Numeric)
  | classRef (name : String)
  deriving DecidableEq, Repr

/-- The signature of a called method: its text and its parts. -/
structure CallSignature where
  raw : String
  parts : MethodSignature
  deriving DecidableEq, Repr

/-- A node of a method's body. -/
inductive Node where
  | arg (name : Option String) (access : List AccessFlag)
  | guard (start stop handler : Label) (catchType : Option String)
  | label (label : Label)
  | plain (mnemonic : String)
  | int (mnemonic : String) (operand : Int)
  | var (mnemonic : String) (slot : UInt16)
  | type (mnemonic : String) (token : TypeToken)
  | field (mnemonic : String) (owner : TypeToken) (name : String) (token : TypeToken)
  | method (mnemonic : String) (owner : TypeToken) (name : String) (signature : CallSignature) (inInterface : Bool)
  | jump (mnemonic : String) (target : Label)
  | load (literal : Literal)
  | increment (slot : UInt16) (amount : Int)
  | tableSwitch (low high : Int) (default : Label) (targets : List Label)
  | lookupSwitch (default : Label) (keys : List Int) (targets : List Label)
  | multiArray (token : TypeToken) (dimensions : UInt8)
  | declare (name : String) (token : TypeToken) (slot : UInt16) (start stop : Label)
  | finish
  deriving DecidableEq, Repr

end JvmUnits
