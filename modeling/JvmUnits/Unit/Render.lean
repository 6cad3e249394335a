import JvmUnits.Json.Basic
import JvmUnits.Unit.Basic

/-!
# The text of a unit

A unit is written as JavaScript: a call that defines a class, with the members of the class in JSON.
-/

namespace JvmUnits

open Json

/-- A type in JSON. -/
def TypeToken.toJson : TypeToken → Json
  | boolean => .string "boolean"
  | byte => .string "byte"
  | char => .string "char"
  | short => .string "short"
  | int => .string "int"
  | long => .string "long"
  | float => .string "float"
  | double => .string "double"
  | void => .string "void"
  | objectRef name => .object [("objectRef", .string name)]
  | arrayOf element => .object [("arrayOf", element.toJson)]

/-- The parts of a signature, as members of an object. -/
def MethodSignature.jsonMembers (signature : MethodSignature) : List (String × Json) :=
  [("return", signature.returnType.toJson), ("args", .array (signature.arguments.map TypeToken.toJson))]

/-- Access flags in JSON. -/
def accessJson (access : List AccessFlag) : Json := .ofStrings (access.map AccessFlag.name)

/-- A number in JSON. -/
def Numeric.toJson : Numeric → Json
  | int value => .ofInt value
  | long value => .ofInt value
  | float word => .ofBinary .single singleLayout word.toNat
  | double word => .ofBinary .double doubleLayout word.toNat

/-- A loaded constant, as a member of an object. -/
def Literal.jsonMember : Literal → String × Json
  | string text => ("stringValue", .string text)
  | numeric value => ("numericValue", value.toJson)
  | classRef name => ("objectRef", .string name)

/-- The first value of a field, as a member of an object. -/
def FieldValue.jsonMember : FieldValue → String × Json
  | string text => ("stringValue", .string text)
  | numeric value => ("numericValue", value.toJson)

/-- A label in JSON. -/
def Label.toJson (label : Label) : Json := .string label.name

/-- Labels in JSON. -/
def labelsJson (labels : List Label) : Json := .array (labels.map Label.toJson)

/-- An object with its type in front. -/
def tagged (tag : String) (members : List (String × Json)) : Json := .object (("type", .string tag) :: members)

/-- A node in JSON. -/
def Node.toJson : Node → Json
  | arg name access => tagged "arg" [("name", .ofOption name), ("access", accessJson access)]
  | guard start stop handler catchType =>
    tagged "try" [("start", start.toJson), ("end", stop.toJson), ("handler", handler.toJson),
      ("catch", .ofOption catchType)]
  | label place => tagged "label" [("name", place.toJson)]
  | plain mnemonic => tagged "insn" [("opcode", .string mnemonic)]
  | int mnemonic operand => tagged "int" [("opcode", .string mnemonic), ("operand", .ofInt operand)]
  | var mnemonic slot => tagged "var" [("opcode", .string mnemonic), ("index", .ofNat slot.toNat)]
  | type mnemonic token => tagged "type" [("opcode", .string mnemonic), ("signature", token.toJson)]
  | field mnemonic owner name token =>
    tagged "field" [("opcode", .string mnemonic), ("class", owner.toJson), ("name", .string name),
      ("signature", token.toJson)]
  | method mnemonic owner name signature inInterface =>
    tagged "method" [("opcode", .string mnemonic), ("owner", owner.toJson), ("name", .string name),
      ("signature", .object (("raw", .string signature.raw) :: signature.parts.jsonMembers)),
      ("interface", .bool inInterface)]
  | jump mnemonic target => tagged "jump" [("opcode", .string mnemonic), ("name", target.toJson)]
  | load literal => tagged "ldc" [literal.jsonMember]
  | increment slot amount => tagged "iinc" [("index", .ofNat slot.toNat), ("by", .ofInt amount)]
  | tableSwitch low high default targets =>
    tagged "tableSwitch" [("min", .ofInt low), ("max", .ofInt high), ("default", default.toJson),
      ("jumps", labelsJson targets)]
  | lookupSwitch default keys targets =>
    tagged "switch" [("default", default.toJson), ("keys", .array (keys.map .ofInt)), ("jumps", labelsJson targets)]
  | multiArray token dimensions => tagged "array" [("desc", token.toJson), ("size", .ofNat dimensions.toNat)]
  | declare name token slot start stop =>
    tagged "declare" [("name", .string name), ("signature", token.toJson), ("index", .ofNat slot.toNat),
      ("start", start.toJson), ("end", stop.toJson)]
  | finish => tagged "end" []

/-- A field in JSON. -/
def FieldUnit.toJson (field : FieldUnit) : Json :=
  tagged "field" ([("name", .string field.name), ("signature", field.token.toJson)] ++
    (field.value.map FieldValue.jsonMember).toList ++ [("access", accessJson field.access)])

/-- The implementation of a method in JSON. -/
def Implementation.toJson : Implementation → Json
  | native path => .object [("native", .string path)]
  | nodes list => .object [("instructions", .array (list.map Node.toJson))]

/-- A method in JSON; exceptions are left out where there are none. -/
def MethodUnit.toJson (method : MethodUnit) : Json :=
  tagged "method" ([("name", .string method.name), ("signature", .string method.descriptor),
      ("sigparts", .object method.signature.jsonMembers)] ++
    (if method.exceptions.isEmpty then [] else [("exceptions", .ofStrings method.exceptions)]) ++
    [("implementation", method.implementation.toJson), ("access", accessJson method.access)])

namespace ClassUnit

/-- The members of a unit in JSON: its fields, its methods, and its references. -/
def membersJson (naming : Naming) (unit : ClassUnit) : Json :=
  .array (unit.fields.map FieldUnit.toJson ++ unit.methods.map MethodUnit.toJson ++
    [tagged "references" [("value", .ofStrings (unit.runtimeReferences naming))]])

/-- The text of a unit. -/
def render (naming : Naming) (unit : ClassUnit) : String :=
  let name := naming.strip unit.name
  let interfaces := Json.ofStrings (unit.interfaces.map naming.strip)
  let parent := Json.ofOption (unit.superName.map naming.strip)
  "(function JVM_" ++ mangle name ++ "($JVM, JVM)\x7b\n\t$JVM.ClassLoader.defineClass(" ++ (Json.string name).compact ++
    ", " ++ interfaces.compact ++ ", " ++ parent.compact ++ ", " ++ (unit.membersJson naming).pretty 0 ++
    ");\n\x7d)($currentJVM, JVM);\n"

end ClassUnit

end JvmUnits
