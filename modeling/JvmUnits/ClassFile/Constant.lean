import JvmUnits.Decimal.Binary
import JvmUnits.Decimal.Layout
import JvmUnits.Text.Quoted

/-!
# Entries of the constant pool

A constant is kept as it is written in the file: references to other entries are indices, floating-point numbers are words.
-/

namespace JvmUnits

/-- An entry of the constant pool. `unused` fills slot zero and the slot after a `long` or a `double`. -/
inductive Constant where
  | unused
  | utf8 (text : String)
  | integer (value : Int)
  | float (word : UInt32)
  | long (value : Int)
  | double (word : UInt64)
  | classRef (nameIndex : UInt16)
  | string (textIndex : UInt16)
  | fieldRef (classIndex nameAndTypeIndex : UInt16)
  | methodRef (classIndex nameAndTypeIndex : UInt16)
  | interfaceMethodRef (classIndex nameAndTypeIndex : UInt16)
  | nameAndType (nameIndex descriptorIndex : UInt16)
  | methodHandle (kind : UInt8) (referenceIndex : UInt16)
  | methodType (descriptorIndex : UInt16)
  | dynamic (bootstrapIndex nameAndTypeIndex : UInt16)
  | invokeDynamic (bootstrapIndex nameAndTypeIndex : UInt16)
  | moduleRef (nameIndex : UInt16)
  | packageRef (nameIndex : UInt16)
  deriving DecidableEq, Repr

namespace Constant

/-- The entry takes two slots of the pool. -/
def isWide : Constant → Bool
  | long _ => true
  | double _ => true
  | _ => false

/-- The kind of an entry in words; what code cannot use at all is `unusable`. -/
def kind : Constant → String
  | utf8 _ => "utf8"
  | integer _ => "integer"
  | float _ => "float"
  | long _ => "long"
  | double _ => "double"
  | classRef _ => "class"
  | string _ => "string"
  | fieldRef .. => "fieldref"
  | methodRef .. => "methodref"
  | interfaceMethodRef .. => "interface methodref"
  | nameAndType .. => "name and type"
  | methodHandle .. => "method handle"
  | methodType _ => "method type"
  | dynamic .. => "dynamic"
  | invokeDynamic .. => "invokedynamic"
  | unused => "unusable"
  | moduleRef _ => "unusable"
  | packageRef _ => "unusable"

/-- Messages write a number in full when its first digit stands for `10 ^ (-4)` to `10 ^ 15`; ties go up. -/
def numberLayout : DecimalLayout := ⟨-4, 15, false, .up⟩

/-- A floating-point word in a message. -/
def describeNumber (format : BinaryFormat) (word : Nat) : String :=
  match format.decode word with
  | .notANumber => "NaN"
  | .infinite negative => if negative then "-inf" else "inf"
  | .finite negative m q narrow => numberLayout.writeBinary negative m q narrow

/-- A named value with its named parts in braces. -/
def describeParts (name : String) (parts : List (String × String)) : String :=
  name ++ " \x7b " ++ ", ".intercalate (parts.map fun part => part.1 ++ ": " ++ part.2) ++ " \x7d"

/-- The parts of a reference to a member. -/
def describeMember (name : String) (classIndex nameAndTypeIndex : UInt16) : String :=
  describeParts name [("class_index", toString classIndex.toNat), ("name_and_type_index", toString nameAndTypeIndex.toNat)]

/-- The parts of a dynamic entry. -/
def describeDynamic (name : String) (bootstrapIndex nameAndTypeIndex : UInt16) : String :=
  describeParts name
    [("bootstrap_method_attr_index", toString bootstrapIndex.toNat),
      ("name_and_type_index", toString nameAndTypeIndex.toNat)]

/-- An entry in a message, with all its parts. -/
def describe : Constant → String
  | unused => "Empty"
  | utf8 text => describeParts "Utf8" [("value", quoted text)]
  | integer value => describeParts "Integer" [("value", toString value)]
  | float word => describeParts "Float" [("value", describeNumber .single word.toNat)]
  | long value => describeParts "Long" [("value", toString value)]
  | double word => describeParts "Double" [("value", describeNumber .double word.toNat)]
  | classRef nameIndex => describeParts "Class" [("name_index", toString nameIndex.toNat)]
  | string textIndex => describeParts "String" [("string_index", toString textIndex.toNat)]
  | fieldRef c n => describeMember "Fieldref" c n
  | methodRef c n => describeMember "Methodref" c n
  | interfaceMethodRef c n => describeMember "InterfaceMethodref" c n
  | nameAndType n d =>
    describeParts "NameAndType" [("name_index", toString n.toNat), ("descriptor_index", toString d.toNat)]
  | methodHandle kind index =>
    describeParts "MethodHandle" [("reference_kind", toString kind.toNat), ("reference_index", toString index.toNat)]
  | methodType d => describeParts "MethodType" [("descriptor_index", toString d.toNat)]
  | dynamic b n => describeDynamic "Dynamic" b n
  | invokeDynamic b n => describeDynamic "InvokeDynamic" b n
  | moduleRef n => describeParts "Module" [("name_index", toString n.toNat)]
  | packageRef n => describeParts "Package" [("name_index", toString n.toNat)]

end Constant

end JvmUnits
