import JvmUnits.Descriptor.Reader
import JvmUnits.Proofs.Mention
import Mathlib.Data.List.TakeWhile

/-!
# The grammar of descriptors

A type descriptor is read in exactly one way: what is read at the start of a text is a type whose descriptor the text starts
with, and every such type is read (`TypeToken.read_eq_ok_iff`). So parsing accepts exactly the descriptors of `void` and of
the types that a field may have, and it gives back the type that was written (`TypeToken.parse_eq_ok_iff`).
-/

namespace JvmUnits

namespace TypeToken

/-- A type that a field may have: `void` is none, nor is an array of `void`, and a class has a name without the semicolon that
ends its descriptor. -/
def IsField : TypeToken → Prop
  | void => False
  | objectRef name => name ≠ "" ∧ ';' ∉ name.toList
  | arrayOf element => element.IsField
  | _ => True

instance decidableIsField : (token : TypeToken) → Decidable token.IsField
  | void => .isFalse id
  | objectRef name => inferInstanceAs (Decidable (name ≠ "" ∧ ';' ∉ name.toList))
  | arrayOf element => decidableIsField element
  | boolean | byte | char | short | int | long | float | double => .isTrue trivial

/-! ## One type at the start of a text -/

/-- A text is read up to the first occurrence of a delimiter. -/
theorem span_delimiter {delimiter : Char} {front : List Char} (free : delimiter ∉ front) (after : List Char) :
    (front ++ delimiter :: after).takeWhile (· ≠ delimiter) = front ∧
      (front ++ delimiter :: after).dropWhile (· ≠ delimiter) = delimiter :: after := by
  have inside : ∀ c ∈ front, decide (c ≠ delimiter) = true := by
    intro c mem
    exact decide_eq_true fun same => free (same ▸ mem)
  constructor
  · rw [List.takeWhile_append_of_pos inside, List.takeWhile_cons_of_neg (by simp), List.append_nil]
  · rw [List.dropWhile_append_of_pos inside, List.dropWhile_cons_of_neg (by simp)]

/-- A text is its part up to the first occurrence of a delimiter, the delimiter, and what stands behind it. -/
theorem eq_append_delimiter {delimiter c : Char} {text after : List Char}
    (found : text.dropWhile (· ≠ delimiter) = c :: after) :
    text = text.takeWhile (· ≠ delimiter) ++ delimiter :: after ∧ delimiter ∉ text.takeWhile (· ≠ delimiter) := by
  have same : c = delimiter := by
    have stopped := List.head?_dropWhile_not (· ≠ delimiter) text
    rw [found] at stopped
    simpa using stopped
  subst same
  refine ⟨?_, fun mem => ?_⟩
  · rw [← found, List.takeWhile_append_dropWhile]
  · simpa using List.mem_takeWhile_imp mem

/-- The descriptor of a type that is no array is read back. -/
theorem readBase_of_isField {tag : Char} {rest after : List Char} {token : TypeToken} (field : token.IsField)
    (flat : token.depth = 0) (text : tag :: rest = token.descriptor ++ after) : readBase tag rest = .ok (token, after) := by
  cases token with
  | void => exact field.elim
  | arrayOf element => cases flat
  | objectRef name =>
    obtain ⟨nonempty, closed⟩ := field
    obtain ⟨rfl, rfl⟩ : tag = 'L' ∧ rest = name.toList ++ ';' :: after := by simpa [descriptor] using text
    obtain ⟨name_eq, after_eq⟩ := span_delimiter closed after
    simp only [readBase, after_eq, name_eq]
    rw [if_neg (by simpa using nonempty), String.ofList_toList]
  | _ =>
    obtain ⟨rfl, rfl⟩ := List.cons.inj text
    rfl

/-- What is read as a type that is no array has that type's descriptor. -/
theorem isField_of_readBase {tag : Char} {rest after : List Char} {token : TypeToken}
    (read : readBase tag rest = .ok (token, after)) : tag :: rest = token.descriptor ++ after ∧ token.IsField := by
  unfold readBase at read
  split at read
  case h_9 =>
    split at read
    · cases read
    · rename_i c more found
      obtain ⟨text, closed⟩ := eq_append_delimiter found
      dsimp only at read
      split at read
      · cases read
      · rename_i nonempty
        cases read
        refine ⟨by simpa [descriptor] using text, ?_, by rwa [String.toList_ofList]⟩
        intro empty
        exact nonempty (by simpa [← String.toList_inj] using empty)
  case h_10 => cases read
  all_goals
    cases read
    exact ⟨rfl, trivial⟩

/-- An array is read where its element is read behind the bracket. -/
theorem map_arrayOf_eq_ok_iff {read : Except DescriptorFault (TypeToken × List Char)} {token : TypeToken}
    {after : List Char} :
    read.map (fun found => (arrayOf found.1, found.2)) = .ok (token, after) ↔
      ∃ element, token = arrayOf element ∧ read = .ok (element, after) := by
  cases read with
  | error fault => simp [Except.map]
  | ok found =>
    obtain ⟨element, rest⟩ := found
    simp only [Except.map, Except.ok.injEq, Prod.mk.injEq]
    exact ⟨fun ⟨same, rest⟩ => ⟨element, same.symm, rfl, rest⟩, fun ⟨_, same, found, rest⟩ => ⟨found ▸ same.symm, rest⟩⟩

/-- An element type is read where the text starts with the descriptor of a type that a field may have. -/
theorem readElement_eq_ok_iff {text after : List Char} {token : TypeToken} :
    readElement text = .ok (token, after) ↔ text = token.descriptor ++ after ∧ token.IsField := by
  induction text generalizing token with
  | nil =>
    constructor
    · intro read
      cases read
    · rintro ⟨text, -⟩
      cases token <;> cases text
  | cons c rest ih =>
    rw [readElement]
    by_cases array : c = '['
    · subst array
      rw [if_pos rfl, map_arrayOf_eq_ok_iff]
      constructor
      · rintro ⟨element, rfl, read⟩
        obtain ⟨rfl, field⟩ := ih.mp read
        exact ⟨rfl, field⟩
      · rintro ⟨text, field⟩
        cases token with
        | arrayOf element => exact ⟨element, rfl, ih.mpr ⟨(List.cons.inj text).2, field⟩⟩
        | _ => cases text
    · rw [if_neg array]
      constructor
      · intro read
        split at read
        · cases read
        · exact isField_of_readBase read
      · rintro ⟨text, field⟩
        have flat : token.depth = 0 := by
          cases token with
          | arrayOf element => exact absurd (List.cons.inj text).1 array
          | _ => rfl
        have named : c ≠ 'V' := by
          rintro rfl
          cases token <;> cases text
          exact field
        rw [if_neg named]
        exact readBase_of_isField field flat text

/-- What is read at the start of a text is `void`, or a type that may be an element as well. -/
theorem read_eq_ok_iff_readElement {text after : List Char} {token : TypeToken} :
    read text = .ok (token, after) ↔ (text = 'V' :: after ∧ token = void) ∨ readElement text = .ok (token, after) := by
  cases text with
  | nil => simp [read, readElement]
  | cons c rest =>
    rw [read, readElement]
    by_cases array : c = '['
    · simp [array]
    · by_cases nothing : c = 'V'
      · subst nothing
        simp [and_comm, eq_comm]
      · simp [array, nothing]

/-- A type is read where the text starts with its descriptor; only `void` and the types of fields are. -/
theorem read_eq_ok_iff {text after : List Char} {token : TypeToken} :
    read text = .ok (token, after) ↔ text = token.descriptor ++ after ∧ (token = void ∨ token.IsField) := by
  rw [read_eq_ok_iff_readElement, readElement_eq_ok_iff, and_or_left]
  refine or_congr_left ⟨?_, ?_⟩
  · rintro ⟨rfl, rfl⟩
    exact ⟨rfl, rfl⟩
  · rintro ⟨rfl, rfl⟩
    exact ⟨rfl, rfl⟩

/-! ## Whole texts -/

/-- A text parses as a type exactly when it is the descriptor of a type that has one, with no more dimensions than there may be.
-/
theorem parse_eq_ok_iff {text : List Char} {token : TypeToken} :
    parse text = .ok token ↔ token.descriptor = text ∧ (token = void ∨ token.IsField) ∧ token.depth ≤ maxDepth := by
  unfold parse
  constructor
  · intro parsed
    obtain ⟨⟨found, rest⟩, first, checked⟩ := bind_eq_ok.mp parsed
    obtain ⟨rfl, form⟩ := read_eq_ok_iff.mp first
    dsimp only at checked
    split at checked
    · cases checked
    · rename_i ended
      split at checked
      · cases checked
      · rename_i shallow
        cases checked
        have nothing : rest = [] := by simpa using ended
        exact ⟨by rw [nothing, List.append_nil], form, Nat.le_of_not_lt shallow⟩
  · rintro ⟨rfl, form, shallow⟩
    refine bind_eq_ok.mpr ⟨(token, []), read_eq_ok_iff.mpr ⟨(List.append_nil _).symm, form⟩, ?_⟩
    simp [Nat.not_lt.mpr shallow]

/-- Decoding a descriptor mentions the class of the type that it gives. -/
theorem yields_decode_iff {text : String} {names : List String} {token : TypeToken} :
    (decode text).Yields names token ↔ names = token.elementClass.toList ∧ parse text.toList = .ok token := by
  unfold decode
  cases parsed : parse text.toList with
  | error fault => simp
  | ok found =>
    rw [Mentioning.yields_iff]
    simp only [Except.ok.injEq]
    constructor
    · rintro ⟨rfl, rfl⟩
      exact ⟨rfl, rfl⟩
    · rintro ⟨rfl, rfl⟩
      exact ⟨rfl, rfl⟩

theorem isField_objectRef_iff {name : String} :
    (objectRef name).IsField ↔ ¬ (name.isEmpty || name.toList.contains ';') = true := by
  simp [IsField]

/-- A name that is no array gives the class with this name, unless no class can have it. -/
theorem yields_decodeInternalName_iff {name : String} (plain : name.toList.head? ≠ some '[') {names : List String}
    {token : TypeToken} :
    (decodeInternalName name).Yields names token ↔ names = [name] ∧ token = objectRef name ∧ (objectRef name).IsField := by
  rw [decodeInternalName, if_neg plain, isField_objectRef_iff]
  split
  · rename_i unfit
    exact iff_of_false Mentioning.not_yields_fail fun ⟨_, _, fits⟩ => fits unfit
  · rename_i fits
    rw [Mentioning.yields_iff, Except.ok.injEq, eq_comm, @eq_comm _ (objectRef name)]
    exact ⟨fun ⟨one, two⟩ => ⟨one, two, fits⟩, fun ⟨one, two, _⟩ => ⟨one, two⟩⟩

/-- The descriptor of a class gives this class, unless no class can have the name. -/
theorem yields_decode_class_iff {name : String} {names : List String} {token : TypeToken} :
    (decode ("L" ++ name ++ ";")).Yields names token ↔
      names = [name] ∧ token = objectRef name ∧ (objectRef name).IsField := by
  have text : ("L" ++ name ++ ";").toList = (objectRef name).descriptor := by simp [descriptor, String.toList_append]
  rw [yields_decode_iff, parse_eq_ok_iff, text]
  constructor
  · rintro ⟨rfl, same, form, -⟩
    cases token with
    | objectRef other =>
      obtain rfl : other = name := by simpa [descriptor, String.toList_inj] using same
      exact ⟨rfl, rfl, form.resolve_left nofun⟩
    | _ => cases same
  · rintro ⟨rfl, rfl, field⟩
    exact ⟨rfl, rfl, Or.inr field, Nat.zero_le _⟩

end TypeToken

end JvmUnits
