import JvmUnits.Mention

/-!
# Reading descriptors

A type descriptor starts with its tag, so the text tells where the type ends and types can stand side by side without
separators. A type that is read mentions the class it names. A text that is refused mentions none: everything is read before
the first class is mentioned.
-/

namespace JvmUnits

namespace TypeToken

/-- Reads a type that is no array, given its first character and the text after it. Gives the type and the rest. -/
def readBase (tag : Char) (rest : List Char) : Except DescriptorFault (TypeToken × List Char) :=
  match tag with
  | 'Z' => .ok (boolean, rest)
  | 'B' => .ok (byte, rest)
  | 'C' => .ok (char, rest)
  | 'S' => .ok (short, rest)
  | 'I' => .ok (int, rest)
  | 'J' => .ok (long, rest)
  | 'F' => .ok (float, rest)
  | 'D' => .ok (double, rest)
  | 'L' =>
    match rest.dropWhile (· ≠ ';') with
    | [] => .error .unterminatedClass
    | _ :: after =>
      let name := rest.takeWhile (· ≠ ';')
      if name.isEmpty then .error .emptyClassName else .ok (objectRef (String.ofList name), after)
  | _ => .error .unknownTag

/-- Reads the element type of an array. -/
def readElement : List Char → Except DescriptorFault (TypeToken × List Char)
  | [] => .error .arrayWithoutElement
  | c :: rest =>
    if c = '[' then (readElement rest).map fun read => (arrayOf read.1, read.2)
    else if c = 'V' then .error .arrayOfVoid
    else readBase c rest

/-- Reads the type at the start of a text. -/
def read : List Char → Except DescriptorFault (TypeToken × List Char)
  | [] => .error .empty
  | c :: rest =>
    if c = '[' then (readElement rest).map fun read => (arrayOf read.1, read.2)
    else if c = 'V' then .ok (void, rest)
    else readBase c rest

/-- The greatest number of dimensions that an array may have. -/
def maxDepth : Nat := 255

/-- Reads a text that is one type descriptor and nothing else. -/
def parse (text : List Char) : Except DescriptorFault TypeToken := do
  let (token, rest) ← read text
  if !rest.isEmpty then .error .trailing
  else if maxDepth < token.depth then .error .tooManyDimensions
  else .ok token

/-- The type of a descriptor. -/
def decode (descriptor : String) : Mentioning TypeToken :=
  match parse descriptor.toList with
  | .error fault => .fail (.malformedDescriptor descriptor fault)
  | .ok token => ⟨token.classes, .ok token⟩

/-- The type of a class name as the constant pool holds it: arrays by their descriptor, other classes by their name. -/
def decodeInternalName (name : String) : Mentioning TypeToken :=
  if name.toList.head? = some '[' then decode name
  else if name.isEmpty || name.toList.contains ';' then .fail (.malformedDescriptor name .internalName)
  else ⟨[name], .ok (objectRef name)⟩

/-! ## The rest is shorter -/

theorem readBase_length {tag : Char} {rest after : List Char} {token : TypeToken}
    (h : readBase tag rest = .ok (token, after)) : after.length ≤ rest.length := by
  unfold readBase at h
  split at h
  case h_9 =>
    split at h
    · cases h
    · rename_i c r hd
      dsimp only at h
      split at h
      · cases h
      · cases h
        have hl := congrArg List.length hd
        have hle : (rest.dropWhile (· ≠ ';')).length ≤ rest.length := (List.dropWhile_sublist _).length_le
        simp only [List.length_cons] at hl
        omega
  all_goals first | (cases h; done) | (cases h; exact Nat.le_refl _)

theorem readElement_length {text after : List Char} {token : TypeToken}
    (h : readElement text = .ok (token, after)) : after.length < text.length := by
  induction text generalizing token after with
  | nil => cases h
  | cons c rest ih =>
    unfold readElement at h
    split at h
    · cases hr : readElement rest with
      | error e => rw [hr] at h; cases h
      | ok read =>
        rw [hr] at h
        cases h
        have := ih hr
        simp only [List.length_cons]
        omega
    · split at h
      · cases h
      · have := readBase_length h
        simp only [List.length_cons]
        omega

/-- A type takes at least one character. -/
theorem read_length {text after : List Char} {token : TypeToken} (h : read text = .ok (token, after)) :
    after.length < text.length := by
  cases text with
  | nil => cases h
  | cons c rest =>
    simp only [read] at h
    split at h
    · cases hr : readElement rest with
      | error e => rw [hr] at h; cases h
      | ok read =>
        rw [hr] at h
        cases h
        have := readElement_length hr
        simp only [List.length_cons]
        omega
    · split at h
      · cases h
        simp
      · have := readBase_length h
        simp only [List.length_cons]
        omega

/-- Reads types that stand side by side, up to the end of the text. None of them is `void`. -/
def readArguments (text : List Char) : Except DescriptorFault (List TypeToken) :=
  if text.isEmpty then .ok []
  else match h : read text with
    | .error _ => .error .argumentType
    | .ok (token, rest) =>
      have : rest.length < text.length := read_length h
      if token = void then .error .voidArgument else (readArguments rest).map (token :: ·)
termination_by text.length

end TypeToken

namespace MethodSignature

/-- Divides a method descriptor into the text between its parentheses and the text of its return type. -/
def splitText (text : List Char) : Except DescriptorFault (List Char × List Char) :=
  match text with
  | '(' :: inner =>
    match inner.dropWhile (· ≠ ')') with
    | [] => .error .noClosingParenthesis
    | _ :: returnText =>
      if returnText.isEmpty then .error .noReturnType else .ok (inner.takeWhile (· ≠ ')'), returnText)
  | _ => .error .noOpeningParenthesis

/-- Divides a method descriptor into its argument block and its return type. -/
def split (descriptor : String) : Except Error (String × String) :=
  match splitText descriptor.toList with
  | .error fault => .error (.malformedDescriptor descriptor fault)
  | .ok (arguments, returnText) => .ok (String.ofList arguments, String.ofList returnText)

/-- The types of an argument block. -/
def argumentTypes (block : String) : Except Error (List TypeToken) :=
  (TypeToken.readArguments block.toList).mapError (.malformedDescriptor block)

/-- Divides an argument block into the descriptors of its arguments. -/
def splitArguments (block : String) : Except Error (List String) :=
  (argumentTypes block).map fun tokens => tokens.map fun token => String.ofList token.descriptor

/-- Reads a return type, which may be `void`, up to the end of the text. -/
def readReturn (text : List Char) : Except DescriptorFault TypeToken :=
  match TypeToken.read text with
  | .ok (token, []) => .ok token
  | _ => .error .returnType

/-- Every type of the signature keeps to the greatest number of dimensions. -/
def isShallow (signature : MethodSignature) : Bool :=
  signature.arguments.all (·.depth ≤ TypeToken.maxDepth) && signature.returnType.depth ≤ TypeToken.maxDepth

/-- Reads a method descriptor. -/
def parse (descriptor : String) : Except Error MethodSignature := do
  let (block, returnText) ← split descriptor
  let arguments ← argumentTypes block
  let returnType ← (readReturn returnText.toList).mapError (.malformedDescriptor descriptor)
  let signature : MethodSignature := ⟨returnType, arguments⟩
  if signature.isShallow then .ok signature
  else .error (.malformedDescriptor descriptor .tooManyDimensionsInMethod)

/-- The signature of a method descriptor. -/
def decode (descriptor : String) : Mentioning MethodSignature :=
  match parse descriptor with
  | .error e => .fail e
  | .ok signature => ⟨signature.classes, .ok signature⟩

end MethodSignature

end JvmUnits
