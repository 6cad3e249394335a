import JvmUnits.Descriptor.Reader

/-!
# Decoding step by step

A descriptor is decoded in steps: the text is checked, a general reader of descriptors tells the shapes of the types in it, and
then the types are converted one after the other, each mentioning its class as soon as it is converted. Any of these steps may
refuse the text, also after classes have been mentioned. The general reader is a parameter here. `TypeToken.decode` and
`MethodSignature.decode` read the whole text before the first class is mentioned.
-/

namespace JvmUnits

/-- What a general reader tells of a type: the name of a class, or the element and the dimensions of an array. Which of the
other types it is, is left to the text. -/
inductive TypeShape where
  | primitive
  | object (name : String)
  | array (element : TypeShape) (dimensions : Nat)
  deriving DecidableEq, Repr

namespace TypeShape

/-- The type that is neither a class nor an array and that a text names. -/
def primitiveToken (text : List Char) : Except Error TypeToken :=
  match text with
  | ['Z'] => .ok .boolean
  | ['B'] => .ok .byte
  | ['C'] => .ok .char
  | ['S'] => .ok .short
  | ['I'] => .ok .int
  | ['J'] => .ok .long
  | ['F'] => .ok .float
  | ['D'] => .ok .double
  | ['V'] => .ok .void
  | _ => .error (.malformedDescriptor (String.ofList text) .unknownTag)

/-- The type with a shape that a text describes. -/
def token : TypeShape → List Char → Except Error TypeToken
  | primitive, text => primitiveToken text
  | object name, _ => .ok (.objectRef name)
  | array element dimensions, text => do
    let inner ← element.token (text.dropWhile (· = '['))
    .ok (Nat.repeat .arrayOf dimensions inner)

/-- Converts a type and mentions its class. -/
def convert (shape : TypeShape) (text : List Char) : Mentioning TypeToken := do
  let token ← Mentioning.ofExcept (shape.token text)
  Mentioning.mention token.classes
  pure token

/-- Converts types one after the other. -/
def convertAll (shapes : List TypeShape) (pieces : List String) : Mentioning (List TypeToken) :=
  (shapes.zip pieces).mapM fun item => item.1.convert item.2.toList

end TypeShape

/-- A general reader of descriptors. It gives the shape of a type, and those of the arguments and the return type of a method. -/
structure ShapeReader where
  type : String → Option TypeShape
  method : String → Option (List TypeShape × TypeShape)

/-- The type of a descriptor, step by step. -/
def TypeToken.decodeStepwise (reader : ShapeReader) (descriptor : String) : Mentioning TypeToken :=
  if descriptor = "V" then pure void
  else do
    let found ← Mentioning.ofExcept ((read descriptor.toList).mapError (.malformedDescriptor descriptor))
    if !found.2.isEmpty then .fail (.malformedDescriptor descriptor .trailing)
    else match reader.type descriptor with
      | none => .fail (.malformedDescriptor descriptor .tooManyDimensions)
      | some shape => shape.convert descriptor.toList

/-- The type of a class name, step by step. -/
def TypeToken.decodeInternalNameStepwise (reader : ShapeReader) (name : String) : Mentioning TypeToken :=
  if name.toList.head? = some '[' then decodeStepwise reader name
  else if name.isEmpty || name.toList.contains ';' then .fail (.malformedDescriptor name .internalName)
  else do
    Mentioning.mention [name]
    pure (objectRef name)

/-- Converts the types of a signature: argument by argument, then the return type. -/
def MethodSignature.convert (shapes : List TypeShape × TypeShape) (pieces : List String) (returnText : String) :
    Mentioning MethodSignature := do
  let arguments ← TypeShape.convertAll shapes.1 pieces
  let returnType ← shapes.2.convert returnText.toList
  pure ⟨returnType, arguments⟩

/-- The signature of a method descriptor, step by step. -/
def MethodSignature.decodeStepwise (reader : ShapeReader) (descriptor : String) : Mentioning MethodSignature := do
  let parts ← Mentioning.ofExcept (split descriptor)
  let pieces ← Mentioning.ofExcept (splitArguments parts.1)
  let _ ← Mentioning.ofExcept ((readReturn parts.2.toList).mapError (.malformedDescriptor descriptor))
  match reader.method descriptor with
  | none => .fail (.malformedDescriptor descriptor .tooManyDimensionsInMethod)
  | some shapes =>
    if shapes.1.length ≠ pieces.length then .fail (.malformedDescriptor descriptor .argumentCount)
    else convert shapes pieces parts.2

end JvmUnits
