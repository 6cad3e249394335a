import JvmUnits.Descriptor.Stepwise
import JvmUnits.Proofs.Signatures

/-!
# Decoding step by step and in one go

`ShapeReader.Faithful` says what is expected of the general reader of descriptors, on the texts that pass the checks. Given this,
every conversion succeeds (`TypeShape.yields_convert_shape`), so that decoding step by step is the same as reading the whole text
before the first class is mentioned (`ShapeReader.Faithful.decodeStepwise_eq`). Both accept exactly the descriptors of types
(`TypeToken.decode_exact`) and of proper signatures (`MethodSignature.decode_signature`).
-/

namespace JvmUnits

/-! ## Shapes of types -/

namespace TypeToken

/-- The type at the bottom of nested arrays. -/
def bottom : TypeToken → TypeToken
  | arrayOf element => element.bottom
  | token => token

/-- The shape of a type that is no array. -/
def flatShape : TypeToken → TypeShape
  | objectRef name => .object name
  | _ => .primitive

/-- The shape of a type; the dimensions of an array are counted. -/
def shape (token : TypeToken) : TypeShape :=
  if token.depth = 0 then token.flatShape else .array token.bottom.flatShape token.depth

/-- A type is its bottom in as many arrays as its depth says. -/
theorem repeat_arrayOf_bottom (token : TypeToken) : Nat.repeat arrayOf token.depth token.bottom = token := by
  induction token with
  | arrayOf element ih => exact congrArg arrayOf ih
  | _ => rfl

/-- Below its brackets, the descriptor of an array is that of the type at its bottom. -/
theorem dropWhile_descriptor (token : TypeToken) :
    token.descriptor.dropWhile (· = '[') = token.bottom.descriptor := by
  induction token with
  | arrayOf element ih => simpa [descriptor, bottom] using ih
  | _ => simp [descriptor, bottom]

theorem depth_bottom (token : TypeToken) : token.bottom.depth = 0 := by
  induction token with
  | arrayOf element ih => exact ih
  | _ => rfl

end TypeToken

open Mentioning

namespace TypeShape

/-- The descriptor of a type that is no array is converted back to the type. -/
theorem token_flatShape {token : TypeToken} (flat : token.depth = 0) : token.flatShape.token token.descriptor = .ok token := by
  cases token with
  | arrayOf element => cases flat
  | _ => rfl

/-- The descriptor of a type is converted back to the type by its shape. -/
theorem token_shape (token : TypeToken) : token.shape.token token.descriptor = .ok token := by
  unfold TypeToken.shape
  split
  · rename_i flat
    exact token_flatShape flat
  · rw [TypeShape.token, TypeToken.dropWhile_descriptor, token_flatShape token.depth_bottom]
    exact congrArg Except.ok token.repeat_arrayOf_bottom

/-- Converting the descriptor of a type by its shape does not fail, and mentions the class of the type. -/
theorem yields_convert_shape (token : TypeToken) : (token.shape.convert token.descriptor).Yields token.classes token := by
  refine yields_bind.mpr ⟨token, [], token.classes, yields_ofExcept.mpr ⟨rfl, token_shape token⟩, ?_, rfl⟩
  refine yields_bind.mpr ⟨(), token.classes, [], yields_mention.mpr rfl, yields_pure.mpr ⟨rfl, rfl⟩, ?_⟩
  rw [List.append_nil]

/-- Converting the descriptors of some types one after the other by their shapes does not fail either. -/
theorem yields_convertAll_shapes (tokens : List TypeToken) :
    (convertAll (tokens.map TypeToken.shape) (tokens.map fun token => String.ofList token.descriptor)).Yields
      (tokens.flatMap TypeToken.classes) tokens := by
  unfold convertAll
  induction tokens with
  | nil => exact yields_pure.mpr ⟨rfl, rfl⟩
  | cons token tokens ih =>
    rw [List.map_cons, List.map_cons, List.zip_cons_cons, List.mapM_cons]
    have first : (token.shape.convert (String.ofList token.descriptor).toList).Yields token.classes token := by
      rw [String.toList_ofList]
      exact yields_convert_shape token
    refine yields_bind.mpr ⟨token, _, tokens.flatMap TypeToken.classes, first, ?_, List.flatMap_cons⟩
    exact yields_bind.mpr ⟨tokens, _, [], ih, yields_pure.mpr ⟨rfl, rfl⟩, (List.append_nil _).symm⟩

end TypeShape

/-- Converting the pieces of the descriptor of a signature does not fail, and mentions the classes of the signature. -/
theorem MethodSignature.yields_convert (signature : MethodSignature) {returnText : String}
    (last : returnText.toList = signature.returnType.descriptor) :
    (convert (signature.arguments.map TypeToken.shape, signature.returnType.shape)
      (signature.arguments.map fun token => String.ofList token.descriptor) returnText).Yields signature.classes signature := by
  have returned := TypeShape.yields_convert_shape signature.returnType
  rw [← last] at returned
  refine yields_bind.mpr ⟨_, _, _, TypeShape.yields_convertAll_shapes signature.arguments, ?_, rfl⟩
  exact yields_bind.mpr ⟨_, _, [], returned, yields_pure.mpr ⟨rfl, rfl⟩, (List.append_nil _).symm⟩

/-! ## Both ways of decoding are the same -/

/-- The signature is one whose descriptor passes the checks that are made before the general reader sees it. -/
def MethodSignature.IsSpelled (signature : MethodSignature) : Prop :=
  (∀ argument ∈ signature.arguments, argument.IsField ∧ ∀ name ∈ argument.elementClass, ')' ∉ name.toList) ∧
    (signature.returnType = .void ∨ signature.returnType.IsField)

/-- On descriptors that pass the checks, the general reader gives the shapes of the types that are written, and refuses those
with more than 255 dimensions. Nothing is asked of it on any other text. -/
structure ShapeReader.Faithful (reader : ShapeReader) : Prop where
  type : ∀ token : TypeToken, token = .void ∨ token.IsField →
    reader.type (String.ofList token.descriptor) = if token.depth ≤ 255 then some token.shape else none
  method : ∀ signature : MethodSignature, signature.IsSpelled →
    reader.method (String.ofList signature.descriptor) =
      if signature.isShallow then some (signature.arguments.map TypeToken.shape, signature.returnType.shape) else none

namespace Mentioning

variable {α β : Type}

theorem ofExcept_ok_bind (a : α) (next : α → Mentioning β) : ofExcept (.ok a) >>= next = next a := rfl

end Mentioning

/-- A descriptor that is divided is read argument by argument, and then its return type. -/
theorem MethodSignature.parse_of_split {text block returnText : String} (divided : split text = .ok (block, returnText)) :
    parse text = (do
      let arguments ← argumentTypes block
      let returnType ← (readReturn returnText.toList).mapError (.malformedDescriptor text)
      if isShallow ⟨returnType, arguments⟩ then .ok ⟨returnType, arguments⟩
      else .error (.malformedDescriptor text .tooManyDimensionsInMethod)) := by
  rw [parse, divided]
  rfl

/-- The descriptor of a signature is read unless it has too many dimensions. -/
theorem MethodSignature.parse_of_isSpelled {signature : MethodSignature} (spelled : signature.IsSpelled) :
    parse (String.ofList signature.descriptor) = if signature.isShallow then .ok signature
      else .error (.malformedDescriptor (String.ofList signature.descriptor) .tooManyDimensionsInMethod) := by
  have divided := split_descriptor String.toList_ofList fun argument mem => (spelled.1 argument mem).2
  have read := readArguments_descriptors fun argument mem => (spelled.1 argument mem).1
  have returned := readReturn_eq_ok_iff.mpr ⟨@String.toList_ofList signature.returnType.descriptor, spelled.2⟩
  rw [parse_of_split divided, argumentTypes_eq_ok_iff.mpr read, returned]
  rfl

/-- A descriptor that passes the checks piece by piece is that of a signature. -/
theorem MethodSignature.isSpelled_of_pieces {text block returnText : String} {arguments : List TypeToken}
    {returnType : TypeToken} (divided : split text = .ok (block, returnText))
    (read : TypeToken.readArguments block.toList = .ok arguments) (returned : readReturn returnText.toList = .ok returnType) :
    IsSpelled ⟨returnType, arguments⟩ ∧ String.ofList (descriptor ⟨returnType, arguments⟩) = text := by
  obtain ⟨whole, closed, -⟩ := split_eq_ok_iff.mp divided
  obtain ⟨written, fields⟩ := TypeToken.readArguments_eq_ok_iff.mp read
  obtain ⟨last, form⟩ := readReturn_eq_ok_iff.mp returned
  rw [written] at whole closed
  rw [last] at whole
  refine ⟨⟨fun argument mem => ⟨fields argument mem, parenthesis_mem_arguments.mp closed argument mem⟩, form⟩, ?_⟩
  rw [← String.toList_inj, String.toList_ofList, whole]
  rfl

namespace ShapeReader.Faithful

variable {reader : ShapeReader}

/-- Decoding a type step by step is decoding it in one go. -/
theorem decodeStepwise_eq (faithful : reader.Faithful) (text : String) :
    TypeToken.decodeStepwise reader text = TypeToken.decode text := by
  unfold TypeToken.decodeStepwise TypeToken.decode
  by_cases nothing : text = "V"
  · subst nothing
    rfl
  · rw [if_neg nothing]
    cases found : TypeToken.read text.toList with
    | error fault =>
      rw [TypeToken.parse, found]
      rfl
    | ok start =>
      obtain ⟨token, rest⟩ := start
      obtain ⟨whole, form⟩ := TypeToken.read_eq_ok_iff.mp found
      cases rest with
      | cons c rest =>
        rw [TypeToken.parse, found]
        rfl
      | nil =>
        rw [List.append_nil] at whole
        have told := faithful.type token form
        rw [← whole, String.ofList_toList] at told
        rw [told]
        by_cases shallow : token.depth ≤ 255
        · rw [if_pos shallow, TypeToken.parse_eq_ok_iff.mpr ⟨whole.symm, form, shallow⟩]
          have converted := TypeShape.yields_convert_shape token
          rw [← whole] at converted
          exact converted
        · have parsed : TypeToken.parse text.toList = .error .tooManyDimensions := by
            rw [TypeToken.parse, found]
            exact if_pos (Nat.lt_of_not_le shallow)
          rw [if_neg shallow, parsed]
          rfl

/-- Decoding a class name step by step is decoding it in one go. -/
theorem decodeInternalNameStepwise_eq (faithful : reader.Faithful) (name : String) :
    TypeToken.decodeInternalNameStepwise reader name = TypeToken.decodeInternalName name := by
  unfold TypeToken.decodeInternalNameStepwise TypeToken.decodeInternalName
  rw [faithful.decodeStepwise_eq]
  rfl

/-- Decoding a signature step by step is decoding it in one go: the checks refuse the same texts, and no conversion fails. -/
theorem decodeStepwise_signature_eq (faithful : reader.Faithful) (text : String) :
    MethodSignature.decodeStepwise reader text = MethodSignature.decode text := by
  unfold MethodSignature.decodeStepwise MethodSignature.decode
  cases divided : MethodSignature.split text with
  | error e =>
    rw [MethodSignature.parse, divided]
    rfl
  | ok parts =>
    obtain ⟨block, returnText⟩ := parts
    rw [ofExcept_ok_bind]
    cases read : TypeToken.readArguments block.toList with
    | error fault =>
      have refused : MethodSignature.argumentTypes block = .error (.malformedDescriptor block fault) := by
        rw [MethodSignature.argumentTypes, read]
        rfl
      rw [MethodSignature.parse_of_split divided, MethodSignature.splitArguments, refused]
      rfl
    | ok arguments =>
      rw [MethodSignature.splitArguments_eq_ok_iff.mpr ⟨arguments, read, rfl⟩, ofExcept_ok_bind]
      cases returned : MethodSignature.readReturn returnText.toList with
      | error fault =>
        rw [MethodSignature.parse_of_split divided, MethodSignature.argumentTypes_eq_ok_iff.mpr read, returned]
        rfl
      | ok returnType =>
        obtain ⟨spelled, rfl⟩ := MethodSignature.isSpelled_of_pieces divided read returned
        rw [MethodSignature.parse_of_isSpelled spelled, faithful.method _ spelled]
        cases MethodSignature.isShallow ⟨returnType, arguments⟩ with
        | false => rfl
        | true =>
          obtain ⟨last, -⟩ := MethodSignature.readReturn_eq_ok_iff.mp returned
          change (if _ then _ else _) = _
          rw [if_neg (by simp)]
          exact MethodSignature.yields_convert ⟨returnType, arguments⟩ last

end ShapeReader.Faithful

/-! ## A faithful reader -/

namespace ShapeReader

/-- The reader that tells the shapes of what is decoded here. -/
def ofParsers : ShapeReader where
  type text := (TypeToken.parse text.toList).toOption.map TypeToken.shape
  method text := (MethodSignature.parse text).toOption.map fun signature =>
    (signature.arguments.map TypeToken.shape, signature.returnType.shape)

/-- The parsers are faithful. -/
theorem faithful_ofParsers : ofParsers.Faithful where
  type token form := by
    unfold ofParsers
    dsimp only
    rw [String.toList_ofList]
    by_cases shallow : token.depth ≤ 255
    · rw [if_pos shallow, TypeToken.parse_eq_ok_iff.mpr ⟨rfl, form, shallow⟩]
      rfl
    · rw [if_neg shallow]
      cases parsed : TypeToken.parse token.descriptor with
      | error fault => rfl
      | ok found =>
        obtain ⟨written, other, within⟩ := TypeToken.parse_eq_ok_iff.mp parsed
        rw [TypeToken.descriptor_injective other form written] at within
        exact absurd within shallow
  method signature spelled := by
    unfold ofParsers
    dsimp only
    rw [MethodSignature.parse_of_isSpelled spelled]
    cases signature.isShallow <;> rfl

end ShapeReader

/-! ## What is accepted -/

namespace TypeToken

/-- Decoding accepts exactly the descriptors of `void` and of the types of fields with up to 255 dimensions, gives the type that
was written, and mentions its class if it has one. A class name that is no array decodes as the descriptor of the class does.
All this is said of decoding step by step as well, whatever faithful reader it uses. -/
theorem decode_exact (text : String) (token : TypeToken) :
    ((decode text).outcome = .ok token ↔
        String.ofList token.descriptor = text ∧ (token = void ∨ token.IsField) ∧ token.depth ≤ 255) ∧
      ((decode text).outcome = .ok token → (decode text).mentions = token.elementClass.toList) ∧
      (∀ name, name.toList.head? ≠ some '[' → ∀ names,
        decodeInternalName name = ⟨names, .ok token⟩ ↔ decode ("L" ++ name ++ ";") = ⟨names, .ok token⟩) ∧
      ∀ reader : ShapeReader, reader.Faithful →
        decodeStepwise reader text = decode text ∧ decodeInternalNameStepwise reader text = decodeInternalName text := by
  refine ⟨⟨fun decoded => ?_, fun ⟨written, form, shallow⟩ => ?_⟩, fun decoded => ?_, fun name plain names => ?_,
    fun reader faithful => ⟨faithful.decodeStepwise_eq text, faithful.decodeInternalNameStepwise_eq text⟩⟩
  · obtain ⟨-, parsed⟩ := yields_decode_iff.mp (Mentioning.yields_of_outcome decoded)
    obtain ⟨written, form, shallow⟩ := parse_eq_ok_iff.mp parsed
    exact ⟨by rw [written, String.ofList_toList], form, shallow⟩
  · have parsed : parse text.toList = .ok token :=
      parse_eq_ok_iff.mpr ⟨by rw [← written, String.toList_ofList], form, shallow⟩
    exact (Mentioning.yields_iff.mp (yields_decode_iff.mpr ⟨rfl, parsed⟩)).2
  · exact (yields_decode_iff.mp (Mentioning.yields_of_outcome decoded)).1
  · exact (yields_decodeInternalName_iff plain).trans yields_decode_class_iff.symm

/-- An array of arrays of a class is read back with its class, also step by step, and the class has the same type by its name. -/
theorem decode_boxes :
    (decode "[[Lapp/Box;").outcome = .ok (arrayOf (arrayOf (objectRef "app/Box"))) ∧
      (decode "[[Lapp/Box;").mentions = ["app/Box"] ∧
      decodeStepwise .ofParsers "[[Lapp/Box;" = decode "[[Lapp/Box;" ∧
      decodeInternalName "app/Box" = ⟨["app/Box"], .ok (objectRef "app/Box")⟩ := by
  obtain ⟨accepted, mentions, -, steps⟩ := decode_exact "[[Lapp/Box;" (arrayOf (arrayOf (objectRef "app/Box")))
  have decoded := accepted.mpr (by decide)
  refine ⟨decoded, mentions decoded, (steps .ofParsers ShapeReader.faithful_ofParsers).1, ?_⟩
  exact ((decode_exact "" (objectRef "app/Box")).2.2.1 "app/Box" (by decide) ["app/Box"]).mpr rfl

end TypeToken

namespace MethodSignature

open TypeToken

/-- Decoding accepts exactly the descriptors of proper signatures and gives the signature that was written; it mentions the
classes of the arguments in order and then that of the return type. Dividing such a descriptor gives the descriptor of each
argument and of the return type, and decoding these piece by piece gives the same signature with the same mentions. All this is
said of decoding step by step as well, whatever faithful reader it uses. -/
theorem decode_signature (text : String) (signature : MethodSignature) :
    ((decode text).outcome = .ok signature ↔ String.ofList signature.descriptor = text ∧ signature.IsProper) ∧
      ((decode text).outcome = .ok signature → (decode text).mentions =
        signature.arguments.flatMap (fun argument => argument.elementClass.toList) ++
          signature.returnType.elementClass.toList) ∧
      (String.ofList signature.descriptor = text → signature.IsProper →
        split text = .ok (String.ofList (signature.arguments.flatMap TypeToken.descriptor),
            String.ofList signature.returnType.descriptor) ∧
          splitArguments (String.ofList (signature.arguments.flatMap TypeToken.descriptor)) =
            .ok (signature.arguments.map fun argument => String.ofList argument.descriptor)) ∧
      (∀ names, decode text = ⟨names, .ok signature⟩ ↔ decodePieces text = ⟨names, .ok signature⟩) ∧
      ∀ reader : ShapeReader, reader.Faithful → decodeStepwise reader text = decode text := by
  have written : text.toList = signature.descriptor ↔ String.ofList signature.descriptor = text := by
    rw [eq_comm, ← String.toList_inj, String.toList_ofList]
  refine ⟨⟨fun decoded => ?_, fun ⟨whole, proper⟩ => ?_⟩, fun decoded => ?_, fun whole proper => ?_, fun names => ?_,
    fun reader faithful => faithful.decodeStepwise_signature_eq text⟩
  · obtain ⟨-, parsed⟩ := yields_decode_signature_iff.mp (Mentioning.yields_of_outcome decoded)
    exact (parse_signature_eq_ok_iff.mp parsed).imp_left written.mp
  · have parsed := parse_signature_eq_ok_iff.mpr ⟨written.mpr whole, proper⟩
    exact (Mentioning.yields_iff.mp (yields_decode_signature_iff.mpr ⟨rfl, parsed⟩)).2
  · exact (yields_decode_signature_iff.mp (Mentioning.yields_of_outcome decoded)).1
  · have divided := split_descriptor (written.mpr whole) fun argument mem => (proper.1 argument mem).2.2
    have read := readArguments_descriptors fun argument mem => (proper.1 argument mem).1
    exact ⟨divided, splitArguments_eq_ok_iff.mpr ⟨_, read, rfl⟩⟩
  · exact yields_decode_signature_iff.trans yields_decodePieces_iff.symm

/-- Names may hold what looks like tags and brackets, and the class of the return type a parenthesis. -/
theorem decode_signature_tags :
    (decode "([LI(/[V;J)Lout)/V;").outcome =
        .ok ⟨objectRef "out)/V", [arrayOf (objectRef "I(/[V"), long]⟩ ∧
      (decode "([LI(/[V;J)Lout)/V;").mentions = ["I(/[V", "out)/V"] ∧
      split "([LI(/[V;J)Lout)/V;" = .ok ("[LI(/[V;J", "Lout)/V;") ∧
      splitArguments "[LI(/[V;J" = .ok ["[LI(/[V;", "J"] ∧
      decodePieces "([LI(/[V;J)Lout)/V;" =
        ⟨["I(/[V", "out)/V"], .ok ⟨objectRef "out)/V", [arrayOf (objectRef "I(/[V"), long]⟩⟩ ∧
      decodeStepwise .ofParsers "([LI(/[V;J)Lout)/V;" = decode "([LI(/[V;J)Lout)/V;" := by
  obtain ⟨accepted, mentions, pieces, same, steps⟩ :=
    decode_signature "([LI(/[V;J)Lout)/V;" ⟨objectRef "out)/V", [arrayOf (objectRef "I(/[V"), long]⟩
  have decoded := accepted.mpr (by decide)
  obtain ⟨divided, arguments⟩ := pieces (by decide) (by decide)
  have named := mentions decoded
  refine ⟨decoded, named, divided, arguments, (same _).mp ?_, steps .ofParsers ShapeReader.faithful_ofParsers⟩
  exact Mentioning.yields_iff.mpr ⟨named, decoded⟩

end MethodSignature

end JvmUnits
