import JvmUnits.Proofs.Descriptors

/-!
# The grammar of method descriptors

The descriptors of arguments stand side by side without separators, and yet they are read in one way only
(`TypeToken.readArguments_eq_ok_iff`). So parsing accepts exactly the descriptors of proper signatures, gives back the signature
that was written (`MethodSignature.parse_signature_eq_ok_iff`), and agrees with decoding its pieces one by one
(`MethodSignature.yields_decodePieces_iff`). A signature is proper if its types are those that descriptors can write and no class
of an argument has a closing parenthesis in its name: the first one in a descriptor ends the arguments.
-/

namespace JvmUnits

namespace TypeToken

/-- Types with the same descriptor are the same. -/
theorem descriptor_injective {one other : TypeToken} (first : one = void ∨ one.IsField) (second : other = void ∨ other.IsField)
    (same : one.descriptor = other.descriptor) : one = other := by
  have read : read one.descriptor = .ok (one, []) := read_eq_ok_iff.mpr ⟨by simp, first⟩
  have again : TypeToken.read one.descriptor = .ok (other, []) := read_eq_ok_iff.mpr ⟨by simp [same], second⟩
  rw [read, Except.ok.injEq, Prod.mk.injEq] at again
  exact again.1

theorem descriptor_ne_nil (token : TypeToken) : token.descriptor ≠ [] := by
  cases token <;> simp [descriptor]

/-- No argument is read from an empty text only. -/
theorem readArguments_eq_nil_iff {text : List Char} : readArguments text = .ok [] ↔ text = [] := by
  rw [readArguments]
  constructor
  · intro read
    split at read
    · rename_i empty
      simpa using empty
    · split at read
      · cases read
      · split at read
        · cases read
        · rename_i found rest _ _
          cases more : readArguments rest <;> simp [more, Except.map] at read
  · rintro rfl
    rfl

/-- A first argument is read where a type other than `void` is read and the others are read from the rest. -/
theorem readArguments_eq_cons_iff {text : List Char} {token : TypeToken} {tokens : List TypeToken} :
    readArguments text = .ok (token :: tokens) ↔
      ∃ rest, read text = .ok (token, rest) ∧ token ≠ void ∧ readArguments rest = .ok tokens := by
  rw [readArguments]
  constructor
  · intro read
    split at read
    · cases read
    · split at read
      · cases read
      · rename_i found rest first
        split at read
        · cases read
        · rename_i notVoid
          cases more : readArguments rest with
          | error fault => simp [more, Except.map] at read
          | ok others =>
            simp only [more, Except.map, Except.ok.injEq, List.cons.injEq] at read
            obtain ⟨rfl, rfl⟩ := read
            exact ⟨rest, first, notVoid, more⟩
  · rintro ⟨rest, first, notVoid, more⟩
    have some : text ≠ [] := by
      rintro rfl
      cases first
    rw [if_neg (by simpa using some)]
    split
    · rename_i fault failed
      rw [first] at failed
      cases failed
    · rename_i found after again
      rw [first] at again
      cases again
      rw [if_neg notVoid, more]
      rfl

/-- Arguments are read up to the end of a text exactly where the text is made of their descriptors. -/
theorem readArguments_eq_ok_iff {text : List Char} {tokens : List TypeToken} :
    readArguments text = .ok tokens ↔ text = tokens.flatMap descriptor ∧ ∀ token ∈ tokens, token.IsField := by
  induction tokens generalizing text with
  | nil => simp [readArguments_eq_nil_iff]
  | cons token tokens ih =>
    rw [readArguments_eq_cons_iff]
    constructor
    · rintro ⟨rest, first, notVoid, more⟩
      obtain ⟨rfl, form⟩ := read_eq_ok_iff.mp first
      obtain ⟨rfl, fields⟩ := ih.mp more
      exact ⟨rfl, List.forall_mem_cons.mpr ⟨form.resolve_left notVoid, fields⟩⟩
    · rintro ⟨rfl, fields⟩
      obtain ⟨field, fields⟩ := List.forall_mem_cons.mp fields
      have notVoid : token ≠ void := by
        rintro rfl
        exact field
      exact ⟨_, read_eq_ok_iff.mpr ⟨rfl, Or.inr field⟩, notVoid, ih.mpr ⟨rfl, fields⟩⟩

/-- A parenthesis in a descriptor is one in the name of its class. -/
theorem parenthesis_mem_descriptor {token : TypeToken} :
    ')' ∈ token.descriptor ↔ ∃ name ∈ token.elementClass, ')' ∈ name.toList := by
  induction token with
  | objectRef name => simp [descriptor, elementClass]
  | arrayOf element ih => simpa [descriptor, elementClass] using ih
  | _ => simp [descriptor, elementClass]

end TypeToken

namespace MethodSignature

open TypeToken

/-- A signature that a descriptor can write: arguments are types of fields, whose classes have no closing parenthesis in their
names, the return type is `void` or the type of a field, and no type has more than 255 dimensions. -/
def IsProper (signature : MethodSignature) : Prop :=
  (∀ argument ∈ signature.arguments, argument.IsField ∧ argument.depth ≤ 255 ∧
      ∀ name ∈ argument.elementClass, ')' ∉ name.toList) ∧
    (signature.returnType = void ∨ signature.returnType.IsField) ∧ signature.returnType.depth ≤ 255

instance (signature : MethodSignature) : Decidable signature.IsProper :=
  inferInstanceAs (Decidable (_ ∧ _ ∧ _))

/-! ## Pieces of a descriptor -/

/-- A method descriptor is divided at its first closing parenthesis. -/
theorem splitText_eq_ok_iff {text block returnText : List Char} :
    splitText text = .ok (block, returnText) ↔ text = '(' :: (block ++ ')' :: returnText) ∧ ')' ∉ block ∧ returnText ≠ [] := by
  unfold splitText
  constructor
  · intro divided
    split at divided
    · rename_i inner
      split at divided
      · cases divided
      · rename_i c after found
        split at divided
        · cases divided
        · rename_i nonempty
          obtain ⟨whole, closed⟩ := eq_append_delimiter found
          cases divided
          exact ⟨by rw [← whole], closed, by simpa using nonempty⟩
    · cases divided
  · rintro ⟨rfl, closed, nonempty⟩
    obtain ⟨front, back⟩ := span_delimiter closed returnText
    simp only [front, back]
    exact if_neg (by simpa using nonempty)

/-- A descriptor is divided where its first closing parenthesis stands. -/
theorem split_eq_ok_iff {descriptor block returnText : String} :
    split descriptor = .ok (block, returnText) ↔
      descriptor.toList = '(' :: (block.toList ++ ')' :: returnText.toList) ∧ ')' ∉ block.toList ∧ returnText ≠ "" := by
  unfold split
  constructor
  · intro divided
    cases found : splitText descriptor.toList with
    | error fault =>
      rw [found] at divided
      cases divided
    | ok parts =>
      rw [found] at divided
      cases divided
      obtain ⟨whole, closed, nonempty⟩ := splitText_eq_ok_iff.mp found
      rw [String.toList_ofList, String.toList_ofList]
      exact ⟨whole, closed, fun empty => nonempty (by simpa using congrArg String.toList empty)⟩
  · rintro ⟨whole, closed, nonempty⟩
    have parts : splitText descriptor.toList = .ok (block.toList, returnText.toList) :=
      splitText_eq_ok_iff.mpr ⟨whole, closed, fun nil => nonempty (String.toList_eq_nil_iff.mp nil)⟩
    simp [parts]

theorem argumentTypes_eq_ok_iff {block : String} {tokens : List TypeToken} :
    argumentTypes block = .ok tokens ↔ readArguments block.toList = .ok tokens := by
  unfold argumentTypes
  cases readArguments block.toList <;> simp [Except.mapError]

/-- The pieces of an argument block are the descriptors of its arguments. -/
theorem splitArguments_eq_ok_iff {block : String} {pieces : List String} :
    splitArguments block = .ok pieces ↔ ∃ tokens, readArguments block.toList = .ok tokens ∧
      pieces = tokens.map fun token => String.ofList token.descriptor := by
  unfold splitArguments argumentTypes
  cases readArguments block.toList with
  | error fault => simp [Except.mapError, Except.map]
  | ok tokens => simp [Except.mapError, Except.map, eq_comm]

/-- A return type is read where its descriptor is the whole text. -/
theorem readReturn_eq_ok_iff {text : List Char} {token : TypeToken} :
    readReturn text = .ok token ↔ text = token.descriptor ∧ (token = void ∨ token.IsField) := by
  have whole := @read_eq_ok_iff text [] token
  rw [List.append_nil] at whole
  rw [← whole, readReturn]
  split
  · rename_i found read
    simp [read]
  · rename_i other
    exact ⟨nofun, fun read => absurd read (other token)⟩

/-! ## Whole descriptors -/

/-- A signature is shallow when each of its types is. -/
theorem isShallow_iff {signature : MethodSignature} :
    signature.isShallow = true ↔
      (∀ argument ∈ signature.arguments, argument.depth ≤ 255) ∧ signature.returnType.depth ≤ 255 := by
  simp only [isShallow, Bool.and_eq_true, List.all_eq_true, decide_eq_true_eq]
  rfl

/-- The closing parenthesis that ends the arguments is the first one exactly where no argument has one in its class. -/
theorem parenthesis_mem_arguments {arguments : List TypeToken} :
    ')' ∉ arguments.flatMap TypeToken.descriptor ↔
      ∀ argument ∈ arguments, ∀ name ∈ argument.elementClass, ')' ∉ name.toList := by
  simp only [List.mem_flatMap, parenthesis_mem_descriptor, not_exists, not_and]

/-- The descriptor of a signature is divided into the descriptors of its arguments and that of its return type, unless an
argument has a closing parenthesis in its class. -/
theorem split_descriptor {text : String} {signature : MethodSignature} (whole : text.toList = signature.descriptor)
    (closed : ∀ argument ∈ signature.arguments, ∀ name ∈ argument.elementClass, ')' ∉ name.toList) :
    split text = .ok (String.ofList (signature.arguments.flatMap TypeToken.descriptor),
      String.ofList signature.returnType.descriptor) := by
  rw [split_eq_ok_iff, String.toList_ofList, String.toList_ofList]
  refine ⟨whole, parenthesis_mem_arguments.mpr closed, fun empty => ?_⟩
  exact signature.returnType.descriptor_ne_nil (by simpa using congrArg String.toList empty)

/-- The descriptors of types side by side are read back. -/
theorem readArguments_descriptors {arguments : List TypeToken} (fields : ∀ argument ∈ arguments, argument.IsField) :
    readArguments (String.ofList (arguments.flatMap TypeToken.descriptor)).toList = .ok arguments :=
  readArguments_eq_ok_iff.mpr ⟨String.toList_ofList, fields⟩

/-- A text parses as a signature exactly when it is the descriptor of it and the signature is proper. -/
theorem parse_signature_eq_ok_iff {text : String} {signature : MethodSignature} :
    parse text = .ok signature ↔ text.toList = signature.descriptor ∧ signature.IsProper := by
  unfold parse
  constructor
  · intro parsed
    obtain ⟨⟨block, returnText⟩, divided, parsed⟩ := bind_eq_ok.mp parsed
    obtain ⟨arguments, block_eq, parsed⟩ := bind_eq_ok.mp parsed
    obtain ⟨returnType, return_eq, parsed⟩ := bind_eq_ok.mp parsed
    obtain ⟨whole, closed, -⟩ := split_eq_ok_iff.mp divided
    obtain ⟨written, fields⟩ := readArguments_eq_ok_iff.mp (argumentTypes_eq_ok_iff.mp block_eq)
    have returned : readReturn returnText.toList = .ok returnType := by
      cases read : readReturn returnText.toList <;> simp_all [Except.mapError]
    obtain ⟨return_text, form⟩ := readReturn_eq_ok_iff.mp returned
    dsimp only at parsed
    split at parsed
    · rename_i shallow
      cases parsed
      obtain ⟨depths, depth⟩ := isShallow_iff.mp shallow
      rw [written] at closed
      refine ⟨by rw [whole, written, return_text]; rfl, fun argument mem => ?_, form, depth⟩
      exact ⟨fields argument mem, depths argument mem, parenthesis_mem_arguments.mp closed argument mem⟩
    · cases parsed
  · rintro ⟨whole, proper, form, depth⟩
    have divided := split_descriptor whole fun argument mem => (proper argument mem).2.2
    have arguments := readArguments_descriptors fun argument mem => (proper argument mem).1
    have returned : readReturn (String.ofList signature.returnType.descriptor).toList = .ok signature.returnType :=
      readReturn_eq_ok_iff.mpr ⟨String.toList_ofList, form⟩
    have shallow : signature.isShallow = true := isShallow_iff.mpr ⟨fun argument mem => (proper argument mem).2.1, depth⟩
    refine bind_eq_ok.mpr ⟨_, divided, bind_eq_ok.mpr ⟨_, argumentTypes_eq_ok_iff.mpr arguments, ?_⟩⟩
    refine bind_eq_ok.mpr ⟨signature.returnType, ?_, if_pos shallow⟩
    rw [returned]
    rfl

/-- Decoding a method descriptor mentions the classes of the arguments in order, then that of the return type. -/
theorem yields_decode_signature_iff {text : String} {names : List String} {signature : MethodSignature} :
    (decode text).Yields names signature ↔ names = signature.classes ∧ parse text = .ok signature := by
  unfold decode
  cases parsed : parse text with
  | error fault => simp
  | ok found =>
    rw [Mentioning.yields_iff]
    simp only [Except.ok.injEq]
    constructor
    · rintro ⟨rfl, rfl⟩
      exact ⟨rfl, rfl⟩
    · rintro ⟨rfl, rfl⟩
      exact ⟨rfl, rfl⟩

/-! ## Descriptors decoded piece by piece -/

/-- The signature of a method descriptor, with each piece of it decoded as a type. -/
def decodePieces (descriptor : String) : Mentioning MethodSignature := do
  let parts ← Mentioning.ofExcept (split descriptor)
  let pieces ← Mentioning.ofExcept (splitArguments parts.1)
  let arguments ← pieces.mapM TypeToken.decode
  let returnType ← TypeToken.decode parts.2
  pure ⟨returnType, arguments⟩

/-- The descriptor of a type decodes to that type, unless it has too many dimensions. -/
theorem yields_decode_descriptor_iff {token found : TypeToken} {names : List String} (form : token = void ∨ token.IsField) :
    (TypeToken.decode (String.ofList token.descriptor)).Yields names found ↔
      found = token ∧ names = token.classes ∧ token.depth ≤ 255 := by
  rw [yields_decode_iff, String.toList_ofList, TypeToken.parse_eq_ok_iff]
  constructor
  · rintro ⟨rfl, written, form', shallow⟩
    obtain rfl := descriptor_injective form' form written
    exact ⟨rfl, rfl, shallow⟩
  · rintro ⟨rfl, rfl, shallow⟩
    exact ⟨rfl, rfl, form, shallow⟩

/-- The descriptors of some types decode to these types, unless one has too many dimensions. -/
theorem yields_decode_descriptors_iff {tokens found : List TypeToken} {names : List String}
    (fields : ∀ token ∈ tokens, token.IsField) :
    ((tokens.map fun token => String.ofList token.descriptor).mapM TypeToken.decode).Yields names found ↔
      found = tokens ∧ names = tokens.flatMap TypeToken.classes ∧ ∀ token ∈ tokens, token.depth ≤ 255 := by
  induction tokens generalizing found names with
  | nil => simp [and_comm]
  | cons token tokens ih =>
    obtain ⟨field, others⟩ := List.forall_mem_cons.mp fields
    rw [List.map_cons, List.mapM_cons, Mentioning.yields_bind]
    constructor
    · rintro ⟨_, _, _, first, more, rfl⟩
      obtain ⟨rfl, rfl, shallow⟩ := (yields_decode_descriptor_iff (Or.inr field)).mp first
      obtain ⟨_, _, _, rest, last, rfl⟩ := Mentioning.yields_bind.mp more
      obtain ⟨rfl, rfl, depths⟩ := (ih others).mp rest
      obtain ⟨rfl, rfl⟩ := Mentioning.yields_pure.mp last
      exact ⟨rfl, by simp, List.forall_mem_cons.mpr ⟨shallow, depths⟩⟩
    · rintro ⟨rfl, rfl, depths⟩
      obtain ⟨shallow, depths⟩ := List.forall_mem_cons.mp depths
      refine ⟨token, token.classes, tokens.flatMap TypeToken.classes, (yields_decode_descriptor_iff (Or.inr field)).mpr
        ⟨rfl, rfl, shallow⟩, ?_, by simp⟩
      exact Mentioning.yields_bind.mpr ⟨tokens, tokens.flatMap TypeToken.classes, [], (ih others).mpr ⟨rfl, rfl, depths⟩,
        Mentioning.yields_pure.mpr ⟨rfl, rfl⟩, by simp⟩

/-- A descriptor decodes piece by piece exactly as it does in one go. -/
theorem yields_decodePieces_iff {text : String} {names : List String} {signature : MethodSignature} :
    (decodePieces text).Yields names signature ↔ names = signature.classes ∧ parse text = .ok signature := by
  unfold decodePieces
  constructor
  · intro decoded
    obtain ⟨⟨block, returnText⟩, _, _, first, second, rfl⟩ := Mentioning.yields_bind.mp decoded
    obtain ⟨rfl, divided⟩ := Mentioning.yields_ofExcept.mp first
    obtain ⟨pieces, _, _, first, third, rfl⟩ := Mentioning.yields_bind.mp second
    obtain ⟨rfl, divided'⟩ := Mentioning.yields_ofExcept.mp first
    obtain ⟨arguments, _, _, decodedArguments, fourth, rfl⟩ := Mentioning.yields_bind.mp third
    obtain ⟨returnType, _, _, decodedReturn, last, rfl⟩ := Mentioning.yields_bind.mp fourth
    obtain ⟨rfl, rfl⟩ := Mentioning.yields_pure.mp last
    obtain ⟨whole, closed, -⟩ := split_eq_ok_iff.mp divided
    obtain ⟨tokens, read, rfl⟩ := splitArguments_eq_ok_iff.mp divided'
    obtain ⟨written, fields⟩ := readArguments_eq_ok_iff.mp read
    obtain ⟨rfl, rfl, depths⟩ := (yields_decode_descriptors_iff fields).mp decodedArguments
    obtain ⟨rfl, parsed⟩ := yields_decode_iff.mp decodedReturn
    obtain ⟨returned, form, depth⟩ := TypeToken.parse_eq_ok_iff.mp parsed
    dsimp only at written
    rw [written] at closed
    refine ⟨by simp [MethodSignature.classes, TypeToken.classes],
      parse_signature_eq_ok_iff.mpr ⟨?_, fun argument mem => ?_, form, depth⟩⟩
    · rw [whole, written, ← returned]
      rfl
    · exact ⟨fields argument mem, depths argument mem, parenthesis_mem_arguments.mp closed argument mem⟩
  · rintro ⟨rfl, parsed⟩
    obtain ⟨whole, proper, form, depth⟩ := parse_signature_eq_ok_iff.mp parsed
    have fields : ∀ argument ∈ signature.arguments, argument.IsField := fun argument mem => (proper argument mem).1
    have divided := split_descriptor whole fun argument mem => (proper argument mem).2.2
    have read := splitArguments_eq_ok_iff.mpr ⟨_, readArguments_descriptors fields, rfl⟩
    have arguments := (yields_decode_descriptors_iff fields).mpr ⟨rfl, rfl, fun argument mem => (proper argument mem).2.1⟩
    have returned := (yields_decode_descriptor_iff form).mpr ⟨rfl, rfl, depth⟩
    refine Mentioning.yields_bind.mpr ⟨_, [], _, Mentioning.yields_ofExcept.mpr ⟨rfl, divided⟩, ?_, rfl⟩
    refine Mentioning.yields_bind.mpr ⟨_, [], _, Mentioning.yields_ofExcept.mpr ⟨rfl, read⟩, ?_, rfl⟩
    refine Mentioning.yields_bind.mpr ⟨_, _, _, arguments, ?_, rfl⟩
    exact Mentioning.yields_bind.mpr ⟨_, _, [], returned, Mentioning.yields_pure.mpr ⟨rfl, rfl⟩, by simp⟩

end MethodSignature

end JvmUnits
