/-!
# Types of the class-file format

A descriptor is the text of a type or of a method's signature. A *token* is what a type descriptor means: a primitive type,
`void`, a class, or an array of some token; a *signature* is the meaning of a method descriptor. Each has a canonical text,
the descriptor that it is read from.
-/

namespace JvmUnits

/-- The meaning of a type descriptor. The depth of an array is the nesting of `arrayOf`. -/
inductive TypeToken where
  | boolean | byte | char | short | int | long | float | double | void
  | objectRef (name : String)
  | arrayOf (element : TypeToken)
  deriving DecidableEq, Repr

namespace TypeToken

/-- The class at the bottom of the type, if it is a class or an array of classes. -/
def elementClass : TypeToken → Option String
  | objectRef name => some name
  | arrayOf element => element.elementClass
  | _ => none

/-- The classes that a type names: none or one. -/
def classes (token : TypeToken) : List String := token.elementClass.toList

/-- The type with its class name changed. -/
def mapNames (rename : String → String) : TypeToken → TypeToken
  | objectRef name => objectRef (rename name)
  | arrayOf element => arrayOf (element.mapNames rename)
  | token => token

/-- The number of dimensions of an array; zero for any other type. -/
def depth : TypeToken → Nat
  | arrayOf element => element.depth + 1
  | _ => 0

/-- The descriptor of a type. -/
def descriptor : TypeToken → List Char
  | boolean => ['Z']
  | byte => ['B']
  | char => ['C']
  | short => ['S']
  | int => ['I']
  | long => ['J']
  | float => ['F']
  | double => ['D']
  | void => ['V']
  | objectRef name => 'L' :: name.toList ++ [';']
  | arrayOf element => '[' :: element.descriptor

end TypeToken

/-- The meaning of a method descriptor. -/
structure MethodSignature where
  returnType : TypeToken
  arguments : List TypeToken
  deriving DecidableEq, Repr

namespace MethodSignature

/-- The classes that a signature names: those of the arguments in order, then that of the return type. -/
def classes (signature : MethodSignature) : List String :=
  signature.arguments.flatMap TypeToken.classes ++ signature.returnType.classes

/-- The signature with its class names changed. -/
def mapNames (rename : String → String) (signature : MethodSignature) : MethodSignature :=
  ⟨signature.returnType.mapNames rename, signature.arguments.map (TypeToken.mapNames rename)⟩

/-- The descriptor of a signature. -/
def descriptor (signature : MethodSignature) : List Char :=
  '(' :: signature.arguments.flatMap TypeToken.descriptor ++ ')' :: signature.returnType.descriptor

end MethodSignature

/-- Why a text is not the descriptor it is read as. -/
inductive DescriptorFault where
  | empty | arrayWithoutElement | arrayOfVoid | unterminatedClass | emptyClassName | unknownTag | trailing
  | tooManyDimensions | internalName
  | noOpeningParenthesis | noClosingParenthesis | noReturnType
  | argumentType | voidArgument | returnType | tooManyDimensionsInMethod | argumentCount
  deriving DecidableEq, Repr

/-- The reason in words. -/
def DescriptorFault.reason : DescriptorFault → String
  | empty => "empty descriptor"
  | arrayWithoutElement => "array without element type"
  | arrayOfVoid => "array of void"
  | unterminatedClass => "unterminated class reference"
  | emptyClassName => "empty class name"
  | unknownTag => "unknown type tag"
  | trailing => "trailing characters after type"
  | tooManyDimensions => "invalid field descriptor"
  | internalName => "invalid internal class name"
  | noOpeningParenthesis => "missing opening parenthesis"
  | noClosingParenthesis => "missing closing parenthesis"
  | noReturnType => "missing return type"
  | argumentType => "invalid argument type"
  | voidArgument => "void is not a valid argument type"
  | returnType => "invalid return type"
  | tooManyDimensionsInMethod => "invalid method descriptor"
  | argumentCount => "argument count mismatch"

end JvmUnits
