import JvmUnits.Proofs.Signatures

/-!
# Dividing argument blocks

The descriptors of arguments stand side by side without separators. `FieldDescriptor` is their grammar, said of texts alone. An
argument block is divided into pieces exactly if it is their concatenation and each of them is one such descriptor, so dividing
undoes concatenation and divides a concatenation of blocks part by part (`MethodSignature.splitArguments_inverse`).

`Division.turn` is one turn of a loop that cuts one piece after the other off the text. Every turn takes at least one
character, so the loop ends after at most one turn for each character and one more, with the pieces that dividing gives
(`Division.turns_of_length`).
-/

namespace JvmUnits

/-- The text is the descriptor of one type that a field may have. -/
inductive FieldDescriptor : List Char → Prop where
  | primitive {tag : Char} (known : tag ∈ ['B', 'C', 'D', 'F', 'I', 'J', 'S', 'Z']) : FieldDescriptor [tag]
  | object {name : List Char} (nonempty : name ≠ []) (closed : ';' ∉ name) : FieldDescriptor ('L' :: (name ++ [';']))
  | array {element : List Char} (single : FieldDescriptor element) : FieldDescriptor ('[' :: element)

namespace TypeToken

/-- The descriptor of a type of a field is one in the sense of the grammar. -/
theorem fieldDescriptor_of_isField {token : TypeToken} (field : token.IsField) : FieldDescriptor token.descriptor := by
  induction token with
  | void => exact field.elim
  | objectRef name =>
    obtain ⟨nonempty, closed⟩ := field
    exact .object (fun empty => nonempty (String.toList_eq_nil_iff.mp empty)) closed
  | arrayOf element ih => exact .array (ih field)
  | _ => exact .primitive (by decide)

/-- The grammar has no other texts than the descriptors of types of fields. -/
theorem fieldDescriptor_iff {text : List Char} :
    FieldDescriptor text ↔ ∃ token : TypeToken, token.IsField ∧ token.descriptor = text := by
  constructor
  · intro single
    induction single with
    | @primitive tag known =>
      simp only [List.mem_cons, List.not_mem_nil, or_false] at known
      rcases known with rfl | rfl | rfl | rfl | rfl | rfl | rfl | rfl
      · exact ⟨byte, trivial, rfl⟩
      · exact ⟨char, trivial, rfl⟩
      · exact ⟨double, trivial, rfl⟩
      · exact ⟨float, trivial, rfl⟩
      · exact ⟨int, trivial, rfl⟩
      · exact ⟨long, trivial, rfl⟩
      · exact ⟨short, trivial, rfl⟩
      · exact ⟨boolean, trivial, rfl⟩
    | @object name nonempty closed =>
      refine ⟨objectRef (String.ofList name), ⟨fun empty => nonempty ?_, ?_⟩, ?_⟩
      · simpa using congrArg String.toList empty
      · rwa [String.toList_ofList]
      · rw [descriptor, String.toList_ofList, List.cons_append]
    | array _ ih =>
      obtain ⟨element, field, rfl⟩ := ih
      exact ⟨arrayOf element, field, rfl⟩
  · rintro ⟨token, field, rfl⟩
    exact fieldDescriptor_of_isField field

/-- The text is read as one element type, with nothing left. -/
def isElement (text : List Char) : Bool :=
  match readElement text with
  | .ok (_, []) => true
  | _ => false

theorem isElement_iff {text : List Char} : isElement text = true ↔ FieldDescriptor text := by
  have whole {token : TypeToken} : readElement text = .ok (token, []) ↔ token.IsField ∧ token.descriptor = text := by
    rw [readElement_eq_ok_iff, List.append_nil, and_comm, eq_comm]
  rw [fieldDescriptor_iff, isElement]
  split
  · rename_i token read
    exact iff_of_true rfl ⟨token, whole.mp read⟩
  · rename_i other
    refine iff_of_false Bool.false_ne_true ?_
    rintro ⟨token, field⟩
    exact other token (whole.mpr field)

instance : DecidablePred FieldDescriptor := fun _ => decidable_of_iff _ isElement_iff

/-- Texts that are descriptors one by one are the descriptors of some types. -/
theorem exists_tokens_of_descriptors {pieces : List String} (single : ∀ piece ∈ pieces, FieldDescriptor piece.toList) :
    ∃ tokens : List TypeToken, (∀ token ∈ tokens, token.IsField) ∧
      pieces = tokens.map fun token => String.ofList token.descriptor := by
  induction pieces with
  | nil => exact ⟨[], by simp, rfl⟩
  | cons piece rest ih =>
    obtain ⟨first, others⟩ := List.forall_mem_cons.mp single
    obtain ⟨token, field, written⟩ := fieldDescriptor_iff.mp first
    obtain ⟨tokens, fields, rfl⟩ := ih others
    exact ⟨token :: tokens, List.forall_mem_cons.mpr ⟨field, fields⟩, by simp [written]⟩

theorem join_descriptors (tokens : List TypeToken) :
    (String.join (tokens.map fun token => String.ofList token.descriptor)).toList = tokens.flatMap descriptor := by
  induction tokens with
  | nil => rfl
  | cons token tokens ih => simp [String.toList_append, ih]

/-- Behind a first argument the others are read from the rest. -/
theorem readArguments_of_read {text after : List Char} {token : TypeToken} (found : read text = .ok (token, after))
    (notVoid : token ≠ void) : readArguments text = (readArguments after).map (token :: ·) := by
  have nonempty : text ≠ [] := by
    rintro rfl
    cases found
  rw [readArguments, if_neg (by simpa using nonempty)]
  split
  · rename_i fault failed
    rw [found] at failed
    cases failed
  · rename_i other rest again
    rw [found] at again
    cases again
    rw [if_neg notVoid]

theorem readArguments_of_void {text after : List Char} (found : read text = .ok (void, after)) :
    readArguments text = .error .voidArgument := by
  have nonempty : text ≠ [] := by
    rintro rfl
    cases found
  rw [readArguments, if_neg (by simpa using nonempty)]
  split
  · rename_i fault failed
    rw [found] at failed
    cases failed
  · rename_i other rest again
    rw [found] at again
    cases again
    rw [if_pos rfl]

theorem readArguments_of_error {text : List Char} {fault : DescriptorFault} (nonempty : text ≠ [])
    (failed : read text = .error fault) : readArguments text = .error .argumentType := by
  rw [readArguments, if_neg (by simpa using nonempty)]
  split
  · rfl
  · rename_i other rest again
    rw [failed] at again
    cases again

end TypeToken

namespace MethodSignature

open TypeToken

/-- A block is divided into pieces exactly if it is their concatenation and each of them is one descriptor. -/
theorem splitArguments_eq_ok_iff_join {block : String} {pieces : List String} :
    splitArguments block = .ok pieces ↔ String.join pieces = block ∧ ∀ piece ∈ pieces, FieldDescriptor piece.toList := by
  rw [splitArguments_eq_ok_iff]
  constructor
  · rintro ⟨tokens, read, rfl⟩
    obtain ⟨written, fields⟩ := readArguments_eq_ok_iff.mp read
    refine ⟨?_, fun piece mem => ?_⟩
    · rw [← String.toList_inj, join_descriptors, written]
    · obtain ⟨token, among, rfl⟩ := List.mem_map.mp mem
      rw [String.toList_ofList]
      exact fieldDescriptor_of_isField (fields token among)
  · rintro ⟨rfl, single⟩
    obtain ⟨tokens, fields, rfl⟩ := exists_tokens_of_descriptors single
    exact ⟨tokens, readArguments_eq_ok_iff.mpr ⟨join_descriptors tokens, fields⟩, rfl⟩

/-- A block that is refused is named whole in the error. -/
theorem exists_fault_of_splitArguments {block : String} (refused : ∀ pieces, splitArguments block ≠ .ok pieces) :
    ∃ fault, splitArguments block = .error (.malformedDescriptor block fault) := by
  unfold splitArguments argumentTypes at refused ⊢
  cases read : readArguments block.toList with
  | error fault => exact ⟨fault, rfl⟩
  | ok tokens => exact absurd (by rw [read]; rfl) (refused _)

/-! ## The loop that divides -/

/-- The loop between two turns: the pieces that were cut off, and the text that is left. -/
structure Division where
  pieces : List String
  rest : List Char
  deriving DecidableEq, Repr

/-- What a turn of the loop comes to. -/
inductive Division.Turn where
  | goOn (division : Division)
  | ended (outcome : Except DescriptorFault (List String))

namespace Division

/-- One turn: the loop ends with the text, and otherwise cuts off the characters of the type that is read at its start. -/
def turn (division : Division) : Turn :=
  if division.rest.isEmpty then .ended (.ok division.pieces)
  else match read division.rest with
    | .error _ => .ended (.error .argumentType)
    | .ok (token, after) =>
      if token = void then .ended (.error .voidArgument)
      else
        let piece := division.rest.take (division.rest.length - after.length)
        .goOn ⟨division.pieces ++ [String.ofList piece], after⟩

/-- Some number of turns, or fewer if the loop ends before. -/
def turns : Nat → Division → Turn
  | 0, division => .goOn division
  | n + 1, division =>
    match division.turn with
    | .goOn next => turns n next
    | .ended outcome => .ended outcome

/-- What the loop is to come to: the pieces that were cut off and those of the text that is left. -/
def outcome (division : Division) : Except DescriptorFault (List String) :=
  (readArguments division.rest).map fun tokens => division.pieces ++ tokens.map fun token => String.ofList token.descriptor

/-- The characters that a type takes are those of its descriptor. -/
theorem take_of_read {text after : List Char} {token : TypeToken} (found : read text = .ok (token, after)) :
    text.take (text.length - after.length) = token.descriptor := by
  obtain ⟨rfl, -⟩ := read_eq_ok_iff.mp found
  simp

/-- A turn with which the loop goes on takes at least one character off the text and leaves what the loop comes to as it is. -/
theorem turn_eq_goOn {division next : Division} (went : division.turn = .goOn next) :
    next.rest.length < division.rest.length ∧ next.outcome = division.outcome := by
  obtain ⟨pieces, text⟩ := division
  unfold turn at went
  dsimp only at went
  split at went
  · cases went
  · split at went
    · cases went
    · rename_i token after found
      split at went
      · cases went
      · rename_i notVoid
        cases went
        refine ⟨read_length found, ?_⟩
        simp only [outcome, take_of_read found, readArguments_of_read found notVoid]
        cases readArguments after with
        | error fault => rfl
        | ok tokens => simp [Except.map]

/-- The loop ends with what it was to come to. -/
theorem turn_eq_ended {division : Division} {result : Except DescriptorFault (List String)}
    (ended : division.turn = .ended result) : result = division.outcome := by
  obtain ⟨pieces, text⟩ := division
  unfold turn at ended
  dsimp only at ended
  split at ended
  · rename_i empty
    cases ended
    obtain rfl : text = [] := by simpa using empty
    simp [outcome, readArguments_eq_nil_iff.mpr rfl, Except.map]
  · rename_i nonempty
    split at ended
    · rename_i fault failed
      cases ended
      rw [outcome, readArguments_of_error (by simpa using nonempty) failed]
      rfl
    · rename_i token after found
      split at ended
      · rename_i same
        cases ended
        subst same
        rw [outcome, readArguments_of_void found]
        rfl
      · cases ended

/-- The loop ends after one turn for each character of the text and one more, or before. -/
theorem turns_of_length {count : Nat} {division : Division} (enough : division.rest.length < count) :
    division.turns count = .ended division.outcome := by
  induction count generalizing division with
  | zero => exact absurd enough (Nat.not_lt_zero _)
  | succ count ih =>
    rw [turns]
    cases went : division.turn with
    | goOn next =>
      obtain ⟨shorter, same⟩ := turn_eq_goOn went
      rw [← same]
      exact ih (Nat.lt_of_lt_of_le shorter (Nat.le_of_lt_succ enough))
    | ended result =>
      rw [turn_eq_ended went]

end Division

/-- What the loop comes to from a whole block is what dividing the block gives. -/
theorem splitArguments_eq_outcome (block : String) :
    splitArguments block = (Division.outcome ⟨[], block.toList⟩).mapError (.malformedDescriptor block) := by
  unfold splitArguments argumentTypes Division.outcome
  cases readArguments block.toList <;> rfl

/-! ## Dividing undoes concatenation -/

/-- Dividing a block gives pieces exactly if they are descriptors of types of fields, one each, and the block is their
concatenation; any other block is refused. It comes to an end on every block, in at most one turn for each character and one
more. Two blocks that are divided side by side give the pieces of the first and then those of the second. -/
theorem splitArguments_inverse (block : String) :
    (∀ pieces, splitArguments block = .ok pieces ↔
        String.join pieces = block ∧ ∀ piece ∈ pieces, FieldDescriptor piece.toList) ∧
      ((¬ ∃ pieces, String.join pieces = block ∧ ∀ piece ∈ pieces, FieldDescriptor piece.toList) →
        ∃ fault, splitArguments block = .error (.malformedDescriptor block fault)) ∧
      (∃ outcome, Division.turns (block.length + 1) ⟨[], block.toList⟩ = .ended outcome ∧
        splitArguments block = outcome.mapError (.malformedDescriptor block)) ∧
      ∀ other pieces more, splitArguments block = .ok pieces → splitArguments other = .ok more →
        splitArguments (block ++ other) = .ok (pieces ++ more) := by
  refine ⟨fun pieces => splitArguments_eq_ok_iff_join, fun apart => ?_, ⟨_, Division.turns_of_length ?_, ?_⟩, ?_⟩
  · exact exists_fault_of_splitArguments fun pieces divided => apart ⟨pieces, splitArguments_eq_ok_iff_join.mp divided⟩
  · exact Nat.lt_succ_of_le (Nat.le_of_eq String.length_toList)
  · exact splitArguments_eq_outcome block
  · intro other pieces more first second
    obtain ⟨rfl, singles⟩ := splitArguments_eq_ok_iff_join.mp first
    obtain ⟨rfl, others⟩ := splitArguments_eq_ok_iff_join.mp second
    exact splitArguments_eq_ok_iff_join.mpr ⟨String.join_append, List.forall_mem_append.mpr ⟨singles, others⟩⟩

/-- A class name may look like tags and brackets. An array that is not finished is refused, and so is `void`. -/
theorem splitArguments_tags :
    splitArguments "[[ILV[(I;" = .ok ["[[I", "LV[(I;"] ∧
      splitArguments ("[[ILV[(I;" ++ "J[LJ;") = .ok (["[[I", "LV[(I;"] ++ ["J", "[LJ;"]) ∧
      (∃ fault, splitArguments "I[" = .error (.malformedDescriptor "I[" fault)) ∧
      ∃ fault, splitArguments "IV" = .error (.malformedDescriptor "IV" fault) := by
  have first := ((splitArguments_inverse "[[ILV[(I;").1 ["[[I", "LV[(I;"]).mpr (by decide)
  have second := ((splitArguments_inverse "J[LJ;").1 ["J", "[LJ;"]).mpr (by decide)
  have stopped {block : String} {fault : DescriptorFault}
      (ended : Division.turns (block.length + 1) ⟨[], block.toList⟩ = .ended (.error fault)) :
      ¬ ∃ pieces, String.join pieces = block ∧ ∀ piece ∈ pieces, FieldDescriptor piece.toList := by
    rintro ⟨pieces, joined⟩
    obtain ⟨accepted, -, ⟨outcome, again, same⟩, -⟩ := splitArguments_inverse block
    rw [ended] at again
    cases again
    rw [(accepted pieces).mpr joined] at same
    cases same
  refine ⟨first, (splitArguments_inverse "[[ILV[(I;").2.2.2 _ _ _ first second, ?_, ?_⟩
  · exact (splitArguments_inverse "I[").2.1 (stopped rfl)
  · exact (splitArguments_inverse "IV").2.1 (stopped rfl)

end MethodSignature

end JvmUnits
