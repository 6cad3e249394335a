import JvmUnits.Proofs.ClassRoundTrip

/-!
# Where a class file ends

No class file is the start of another one (`ClassFile.parse_prefix_free`): with bytes behind its end it is refused for these
bytes, and a file that is cut short is refused because its bytes run out.

`Reader.Extends` compares two readers, the second with more bytes behind those of the first: they give the same answer and leave
the same bytes, unless the first one runs out. It holds of every number and block, of a check that a block is there, and is kept
when readers are put together. Attributes and the values of annotations nest to a depth that depends on the length of the file,
so there the second reader is the one that may go deeper.
-/

namespace JvmUnits

/-- The bytes have run out. -/
def LayoutFault.isPastEnd : LayoutFault → Bool
  | numberPastEnd _ => true
  | blockPastEnd _ _ => true
  | _ => false

namespace Reader

variable {α β : Type}

/-- Where more bytes follow, the second reader does what the first one does without them, as long as that one does not run out
of bytes. -/
structure Extends (first second : Reader α) : Prop where
  value {bytes rest : Bytes} {a : α} (more : Bytes) (read : first bytes = .ok (a, rest)) :
    second (bytes ++ more) = .ok (a, rest ++ more)
  fault {bytes : Bytes} {fault : LayoutFault} (more : Bytes) (failed : first bytes = .error fault)
    (other : fault.isPastEnd = false) : second (bytes ++ more) = .error fault

/-! ## Readers put together -/

namespace Extends

/-- A reader that takes no bytes does not notice what follows. -/
theorem pure (a : α) : Extends (pure a : Reader α) (pure a) where
  value more read := by
    cases read
    rfl
  fault more failed _ := by cases failed

/-- A reader that fails at once fails with more bytes as well. -/
theorem fail (fault : LayoutFault) : Extends (fail fault : Reader α) (fail fault) where
  value more read := by cases read
  fault more failed _ := by
    cases failed
    rfl

/-- Two readings in a row: the second one starts with what the first one has left, and with the same bytes behind that. -/
theorem bind {first second : Reader α} {next after : α → Reader β} (head : Extends first second)
    (tail : ∀ a, Extends (next a) (after a)) : Extends (first >>= next) (second >>= after) where
  value {bytes rest b} more read := by
    change (first bytes).bind (fun found => next found.1 found.2) = _ at read
    change (second (bytes ++ more)).bind (fun found => after found.1 found.2) = _
    cases one : first bytes with
    | error fault =>
      rw [one] at read
      cases read
    | ok found =>
      rw [one] at read
      rw [head.value more one]
      exact (tail found.1).value more read
  fault {bytes fault} more failed other := by
    change (first bytes).bind (fun found => next found.1 found.2) = _ at failed
    change (second (bytes ++ more)).bind (fun found => after found.1 found.2) = _
    cases one : first bytes with
    | error early =>
      rw [one] at failed
      cases failed
      rw [head.fault more one other]
      rfl
    | ok found =>
      rw [one] at failed
      rw [head.value more one]
      exact (tail found.1).fault more failed other

theorem bind_pure {first second : Reader α} (f : α → β) (head : Extends first second) :
    Extends (first >>= fun a => Pure.pure (f a)) (second >>= fun a => Pure.pure (f a)) :=
  head.bind fun a => pure (f a)

/-- Readers whose results are changed in the same way. -/
theorem map {first second : Reader α} (f : α → β) (head : Extends first second) :
    Extends (f <$> first) (f <$> second) := head.bind_pure f

/-- A choice that does not depend on the bytes. -/
theorem ite {c : Prop} [Decidable c] {first second other another : Reader α} (yes : Extends first second)
    (no : Extends other another) : Extends (if c then first else other) (if c then second else another) := by
  split
  · exact yes
  · exact no

/-- The same reading several times over. -/
theorem times {first second : Reader α} (item : Extends first second) (count : Nat) :
    Extends (times first count) (times second count) := by
  induction count with
  | zero => exact pure []
  | succ count ih => exact item.bind fun _ => ih.bind_pure _

end Extends

/-! ## Numbers and blocks -/

/-- A reader that takes a fixed number of bytes, or runs out. -/
structure Takes (read : Reader α) (size : Nat) (meaning : Bytes → α) : Prop where
  enough {bytes : Bytes} (there : size ≤ bytes.length) : read bytes = .ok (meaning (bytes.take size), bytes.drop size)
  short {bytes : Bytes} (missing : bytes.length < size) : ∃ fault, read bytes = .error fault ∧ fault.isPastEnd = true

/-- What takes a fixed number of bytes runs out of them, or takes the same ones with more behind them. -/
theorem Takes.extends {read : Reader α} {size : Nat} {meaning : Bytes → α} (takes : Takes read size meaning) :
    Extends read read where
  value {bytes rest a} more read := by
    by_cases there : size ≤ bytes.length
    · rw [takes.enough there] at read
      cases read
      have still : size ≤ (bytes ++ more).length := by
        rw [List.length_append]
        omega
      rw [takes.enough still, List.take_append_of_le_length there, List.drop_append_of_le_length there]
    · obtain ⟨fault, failed, _⟩ := takes.short (Nat.lt_of_not_le there)
      rw [failed] at read
      cases read
  fault {bytes fault} more failed other := by
    by_cases there : size ≤ bytes.length
    · rw [takes.enough there] at failed
      cases failed
    · obtain ⟨found, again, past⟩ := takes.short (Nat.lt_of_not_le there)
      rw [again] at failed
      cases failed
      rw [past] at other
      cases other

/-- A number of one byte is the byte itself. -/
theorem takes_u1 : Takes u1 1 (·.headD 0) where
  enough {bytes} there := by
    rcases bytes with _ | ⟨a, bytes⟩
    · simp at there
    · rfl
  short {bytes} missing := by
    rcases bytes with _ | ⟨a, bytes⟩
    · exact ⟨_, rfl, rfl⟩
    · simp at missing

/-- A number of two bytes has the high one first; so have those of four and eight bytes. -/
theorem takes_u2 : Takes u2 2 fun bytes => UInt16.ofNat (bigEndian bytes) where
  enough {bytes} there := by
    rcases bytes with _ | ⟨a, _ | ⟨b, bytes⟩⟩
    case cons.cons => rfl
    all_goals simp at there
  short {bytes} missing := by
    rcases bytes with _ | ⟨a, _ | ⟨b, bytes⟩⟩
    case cons.cons =>
      simp only [List.length_cons] at missing
      omega
    all_goals exact ⟨_, rfl, rfl⟩

theorem takes_u4 : Takes u4 4 bigEndian where
  enough {bytes} there := by
    rcases bytes with _ | ⟨a, _ | ⟨b, _ | ⟨c, _ | ⟨d, bytes⟩⟩⟩⟩
    case cons.cons.cons.cons => rfl
    all_goals simp at there
  short {bytes} missing := by
    rcases bytes with _ | ⟨a, _ | ⟨b, _ | ⟨c, _ | ⟨d, bytes⟩⟩⟩⟩
    case cons.cons.cons.cons =>
      simp only [List.length_cons] at missing
      omega
    all_goals exact ⟨_, rfl, rfl⟩

theorem takes_u8 : Takes u8 8 bigEndian where
  enough {bytes} there := by
    rcases bytes with _ | ⟨a, _ | ⟨b, _ | ⟨c, _ | ⟨d, _ | ⟨e, _ | ⟨f, _ | ⟨g, _ | ⟨h, bytes⟩⟩⟩⟩⟩⟩⟩⟩
    case cons.cons.cons.cons.cons.cons.cons.cons => rfl
    all_goals simp at there
  short {bytes} missing := by
    rcases bytes with _ | ⟨a, _ | ⟨b, _ | ⟨c, _ | ⟨d, _ | ⟨e, _ | ⟨f, _ | ⟨g, _ | ⟨h, bytes⟩⟩⟩⟩⟩⟩⟩⟩
    case cons.cons.cons.cons.cons.cons.cons.cons =>
      simp only [List.length_cons] at missing
      omega
    all_goals exact ⟨_, rfl, rfl⟩

/-- A block is its bytes. -/
theorem takes_block (size : Nat) : Takes (block size) size id where
  enough {bytes} there := by
    have whole : ¬ (bytes.take size).length < size := by
      rw [List.length_take]
      omega
    exact if_neg whole
  short {bytes} missing := by
    have short : (bytes.take size).length < size := by
      rw [List.length_take]
      omega
    exact ⟨_, if_pos short, rfl⟩

/-- A block that is there without the bytes behind is there with them. -/
theorem extends_expectBlock (size : Nat) : Extends (expectBlock size) (expectBlock size) where
  value {bytes rest a} more read := by
    unfold expectBlock at read
    split at read
    · cases read
    · rename_i whole
      cases read
      have still : ¬ ((bytes ++ more).take size).length < size := by
        simp only [List.length_take, List.length_append] at whole ⊢
        omega
      exact if_neg still
  fault {bytes fault} more failed other := by
    unfold expectBlock at failed
    split at failed
    · cases failed
      cases other
    · cases failed

/-- Numbers that are passed over. -/
theorem extends_skip (count : Nat) : Extends (skip count) (skip count) := (takes_u2.extends.times count).bind_pure _

/-- Two indices. -/
theorem extends_indexPair (make : UInt16 → UInt16 → α) : Extends (indexPair make) (indexPair make) :=
  takes_u2.extends.bind fun _ => takes_u2.extends.bind_pure _

namespace Extends

variable {first second : Reader α}

/-- Items behind their number, which takes two bytes. -/
theorem counted (item : Extends first second) : Extends (counted first) (counted second) :=
  takes_u2.extends.bind fun _ => item.times _

/-- Items behind their number, which takes one byte. -/
theorem countedShort (item : Extends first second) : Extends (countedShort first) (countedShort second) :=
  takes_u1.extends.bind fun _ => item.times _

theorem skipCounted {first second : Reader Unit} (item : Extends first second) :
    Extends (skipCounted first) (skipCounted second) := item.counted.bind_pure _

theorem skipCountedShort {first second : Reader Unit} (item : Extends first second) :
    Extends (skipCountedShort first) (skipCountedShort second) := item.countedShort.bind_pure _

end Extends

/-! ## The constant pool -/

/-- A constant: its tag tells what follows. -/
theorem extends_constant : Extends constant constant := by
  refine takes_u1.extends.bind fun tag => ?_
  split
  · exact takes_u2.extends.bind fun size => (takes_block _).extends.bind_pure _
  · exact takes_u4.extends.bind_pure _
  · exact (takes_block 4).extends.bind_pure _
  · exact takes_u8.extends.bind_pure _
  · exact (takes_block 8).extends.bind_pure _
  · exact takes_u2.extends.map _
  · exact takes_u2.extends.map _
  · exact extends_indexPair _
  · exact extends_indexPair _
  · exact extends_indexPair _
  · exact extends_indexPair _
  · exact takes_u1.extends.bind fun kind => takes_u2.extends.bind_pure _
  · exact takes_u2.extends.map _
  · exact extends_indexPair _
  · exact extends_indexPair _
  · exact takes_u2.extends.map _
  · exact takes_u2.extends.map _
  · exact .fail _

/-- The slots of a pool, of which some take up two. -/
theorem extends_slots (count : Nat) : Extends (slots count) (slots count) := by
  induction count using slots.induct with
  | case1 => exact .pure []
  | case2 => exact extends_constant.bind_pure _
  | case3 count wide narrow =>
    exact extends_constant.bind fun entry => .ite (wide.bind_pure _) (narrow.bind_pure _)

theorem extends_pool : Extends pool pool :=
  takes_u2.extends.bind fun _ => .ite (.pure _) ((extends_slots _).bind_pure _)

/-- The name of an attribute is a text of the pool. -/
theorem extends_attributeName (pool : Pool) : Extends (attributeName pool) (attributeName pool) := by
  refine takes_u2.extends.bind fun index => ?_
  split
  · exact .fail _
  · exact .pure _
  · exact .fail _

/-! ## Rows of tables -/

/-- A row of each of the tables has a fixed number of fields. -/
theorem extends_handlerRow : Extends handlerRow handlerRow :=
  takes_u2.extends.bind fun _ => takes_u2.extends.bind fun _ => takes_u2.extends.bind fun _ => takes_u2.extends.bind_pure _

theorem extends_localRow : Extends localRow localRow :=
  takes_u2.extends.bind fun _ => takes_u2.extends.bind fun _ => takes_u2.extends.bind fun _ =>
    takes_u2.extends.bind fun _ => takes_u2.extends.bind_pure _

theorem extends_parameterRow : Extends parameterRow parameterRow :=
  takes_u2.extends.bind fun _ => takes_u2.extends.bind_pure _

/-! ## Annotations and frames -/

/-- An annotation is a type and pairs of a name and a value. -/
theorem Extends.annotationItem {first second : Reader Unit} (value : Extends first second) :
    Extends (skipAnnotationItem first) (skipAnnotationItem second) :=
  (extends_skip 1).bind fun _ => .skipCounted ((extends_skip 1).bind fun _ => value)

/-- A reader that has come to the end of its depth reports that the bytes have run out. -/
theorem extends_exhausted (deeper : Reader α) : Extends (fun bytes => .error (.numberPastEnd bytes.length)) deeper where
  value more read := by cases read
  fault more failed other := by
    cases failed
    cases other

/-- A value of an annotation may have others inside it; a greater depth allows what a smaller one does. -/
theorem extends_skipValue {depth deeper : Nat} (within : depth ≤ deeper) : Extends (skipValue depth) (skipValue deeper) := by
  induction depth generalizing deeper with
  | zero => exact extends_exhausted _
  | succ depth ih =>
    obtain ⟨deeper, rfl⟩ : ∃ less, deeper = less + 1 := ⟨deeper - 1, by omega⟩
    have inner := ih (Nat.le_of_succ_le_succ within)
    refine takes_u1.extends.bind fun tag => ?_
    split
    case h_11 => exact extends_skip 2
    case h_12 => exact inner.annotationItem
    case h_13 => exact inner.skipCounted
    case h_14 => exact .fail _
    all_goals exact extends_skip 1

/-- The target of a type annotation: its kind tells what follows. -/
theorem extends_skipTarget : Extends skipTarget skipTarget := by
  refine takes_u1.extends.bind fun target => ?_
  split
  case h_1 | h_2 | h_3 => exact takes_u1.extends.bind_pure _
  case h_4 | h_5 | h_6 | h_7 | h_8 | h_9 | h_10 => exact extends_skip 1
  case h_11 | h_12 => exact takes_u1.extends.bind fun _ => takes_u1.extends.bind_pure _
  case h_13 | h_14 | h_15 => exact .pure _
  case h_16 | h_17 => exact (extends_skip 3).skipCounted
  case h_18 | h_19 | h_20 | h_21 | h_22 => exact (extends_skip 1).bind fun _ => takes_u1.extends.bind_pure _
  case h_23 => exact .fail _

/-- A type annotation has a target, a path and an annotation. -/
theorem extends_skipTypeAnnotationItem {depth deeper : Nat} (within : depth ≤ deeper) :
    Extends (skipTypeAnnotationItem depth) (skipTypeAnnotationItem deeper) :=
  extends_skipTarget.bind fun _ =>
    (Extends.skipCountedShort (takes_u1.extends.bind fun _ => takes_u1.extends.bind_pure _)).bind fun _ =>
      (extends_skipValue within).annotationItem

/-- A verification type has an operand if it is one of two kinds. -/
theorem extends_skipVerificationType : Extends skipVerificationType skipVerificationType :=
  takes_u1.extends.bind fun _ => .ite (.pure _) (.ite (extends_skip 1) (.fail _))

/-- A frame of a stack map: its kind tells which lists follow. -/
theorem extends_skipFrame : Extends skipFrame skipFrame :=
  takes_u1.extends.bind fun _ =>
    .ite (.pure _) <| .ite extends_skipVerificationType <| .ite (.fail _) <|
      .ite ((extends_skip 1).bind fun _ => extends_skipVerificationType) <|
      .ite (extends_skip 1) <|
      .ite ((extends_skip 1).bind fun _ => (extends_skipVerificationType.times _).bind_pure _) <|
      (extends_skip 1).bind fun _ =>
        extends_skipVerificationType.skipCounted.bind fun _ => extends_skipVerificationType.skipCounted

/-! ## Attributes -/

/-- The body of an attribute that is passed over, by its name. -/
theorem extends_skipBody {first second : Reader Attribute} (inner : Extends first second) {depth deeper : Nat}
    (within : depth ≤ deeper) (size : Nat) (name : String) :
    Extends (skipBody first depth size name) (skipBody second deeper size name) := by
  have value := extends_skipValue within
  unfold skipBody
  split
  case h_1 | h_2 => exact .pure _
  case h_3 | h_4 | h_5 => exact extends_skip 1
  case h_6 => exact extends_skip 2
  case h_7 => exact (extends_skip 2).skipCounted
  case h_8 => exact (extends_skip 5).skipCounted
  case h_9 => exact (extends_skip 4).skipCounted
  case h_10 | h_11 => exact (extends_skip 1).skipCounted
  case h_12 => exact .skipCounted ((extends_skip 1).bind fun _ => (extends_skip 1).skipCounted)
  case h_13 => exact .skipCounted ((extends_skip 2).bind fun _ => inner.counted.bind_pure _)
  case h_14 => exact (takes_block size).extends.bind_pure _
  case h_15 => exact (extends_expectBlock size).bind fun _ => value.annotationItem.skipCounted
  case h_16 => exact value.annotationItem.skipCounted
  case h_17 | h_18 => exact value.annotationItem.skipCounted.skipCountedShort
  case h_19 | h_20 => exact (extends_skipTypeAnnotationItem within).skipCounted
  case h_21 => exact (extends_expectBlock size).bind fun _ => value
  case h_22 => exact extends_skipFrame.skipCounted
  case h_23 => exact .fail _

/-- An attribute: a code attribute has others inside it, to a depth that is given. -/
theorem extends_attributeEntry (pool : Pool) {depth deeper : Nat} (within : depth ≤ deeper) :
    Extends (attributeEntry pool depth) (attributeEntry pool deeper) := by
  induction depth generalizing deeper with
  | zero => exact extends_exhausted _
  | succ depth ih =>
    obtain ⟨deeper, rfl⟩ : ∃ less, deeper = less + 1 := ⟨deeper - 1, by omega⟩
    have shallower := Nat.le_of_succ_le_succ within
    have inner := ih shallower
    refine (extends_attributeName pool).bind fun name => takes_u4.extends.bind fun size => ?_
    split
    · exact takes_u2.extends.map _
    · exact (extends_skip 2).bind fun _ => takes_u4.extends.bind fun length => (takes_block length).extends.bind fun _ =>
        extends_handlerRow.counted.bind fun _ => inner.counted.bind_pure _
    · exact takes_u2.extends.counted.map _
    · exact extends_parameterRow.countedShort.map _
    · exact extends_localRow.counted.map _
    · exact (extends_skipBody inner shallower size name).bind_pure _

/-! ## The whole file -/

/-- A member has attributes. -/
theorem extends_member (site : AccessSite) (pool : Pool) {depth deeper : Nat} (within : depth ≤ deeper) :
    Extends (member site pool depth) (member site pool deeper) :=
  takes_u2.extends.bind fun _ => takes_u2.extends.bind fun _ => takes_u2.extends.bind fun _ =>
    (extends_attributeEntry pool within).counted.bind_pure _

/-- What follows the pool: the class, its interfaces, its members and its attributes. -/
theorem extends_classBody (entries : Pool) {depth deeper : Nat} (within : depth ≤ deeper) :
    Extends (classBody entries depth) (classBody entries deeper) :=
  (extends_skip 1).bind fun _ => takes_u2.extends.bind fun _ => takes_u2.extends.bind fun _ =>
    takes_u2.extends.counted.bind fun _ => (extends_member .field entries within).counted.bind fun _ =>
    (extends_member .method entries within).counted.bind fun _ =>
    (extends_attributeEntry entries within).counted.bind_pure _

/-- A whole class file. -/
theorem extends_classLayout {depth deeper : Nat} (within : depth ≤ deeper) :
    Extends (classLayout depth) (classLayout deeper) := by
  have behind := (extends_skip 2).bind fun _ => extends_pool.bind fun entries => extends_classBody entries within
  rw [classLayout_eq, classLayout_eq]
  exact takes_u4.extends.bind fun opening => .ite ((Extends.fail _).bind fun _ => behind) behind

end Reader

namespace ClassLayout

variable {bytes more shorter : Bytes} {layout : ClassLayout}

/-- A file is read when its bytes are used up. -/
theorem read_eq_ok_iff : read bytes = .ok layout ↔ Reader.classLayout bytes.length bytes = .ok (layout, []) := by
  unfold read
  rcases Reader.classLayout bytes.length bytes with fault | ⟨other, _ | ⟨next, rest⟩⟩
  · simp [bind, Except.bind]
  · simp [bind, Except.bind]
  · simp [bind, Except.bind]

/-- Behind the end of a file there is nothing left to read. -/
theorem read_append (whole : read bytes = .ok layout) (nonempty : more ≠ []) :
    read (bytes ++ more) = .error (.bytesLeft more.length) := by
  have within : bytes.length ≤ (bytes ++ more).length := by simp
  have found := (Reader.extends_classLayout within).value more (read_eq_ok_iff.mp whole)
  unfold read
  rw [found]
  simp [bind, Except.bind, nonempty]

/-- A file that is cut short runs out of bytes. -/
theorem read_of_append (whole : read (shorter ++ more) = .ok layout) (nonempty : more ≠ []) :
    ∃ fault, read shorter = .error fault ∧ fault.isPastEnd = true := by
  have within : shorter.length ≤ (shorter ++ more).length := by simp
  have extension := Reader.extends_classLayout within
  have ended := read_eq_ok_iff.mp whole
  rcases found : Reader.classLayout shorter.length shorter with fault | ⟨other, rest⟩
  · have failed : read shorter = .error fault := by
      rw [read, found]
      rfl
    refine ⟨fault, failed, ?_⟩
    by_contra other
    rw [extension.fault more found (eq_false_of_ne_true other)] at ended
    cases ended
  · -- without the missing bytes the file would have ended before them
    rw [extension.value more found] at ended
    have empty : rest ++ more = [] := congrArg Prod.snd (Except.ok.inj ended)
    exact absurd (List.append_eq_nil_iff.mp empty).2 nonempty

end ClassLayout

/-- A class file is the layout that its bytes have, with its names resolved. -/
theorem ClassFile.exists_layout_of_parse {bytes : Bytes} {file : ClassFile} (parsed : parse bytes = .ok file) :
    ∃ layout, ClassLayout.read bytes = .ok layout ∧ resolve layout = .ok file := by
  unfold parse at parsed
  cases found : ClassLayout.read bytes with
  | error fault =>
    rw [found] at parsed
    cases parsed
  | ok layout =>
    rw [found] at parsed
    exact ⟨layout, rfl, parsed⟩

/-- A class file that is accepted is refused with anything behind it, and refused when it is cut short anywhere: in the first
case because bytes are left over, in the second because the bytes run out. -/
theorem ClassFile.parse_prefix_free {bytes : Bytes} {file : ClassFile} (accepted : parse bytes = .ok file) :
    (∀ more, more ≠ [] → parse (bytes ++ more) =
      .error (.malformedClassFile (.layout (bytes.length + more.length) (.bytesLeft more.length)))) ∧
    ∀ shorter, shorter <+: bytes → shorter ≠ bytes → ∃ fault, fault.isPastEnd = true ∧
      parse shorter = .error (.malformedClassFile (.layout shorter.length fault)) := by
  obtain ⟨layout, whole⟩ : ∃ layout, ClassLayout.read bytes = .ok layout := by
    unfold parse at accepted
    cases found : ClassLayout.read bytes with
    | error fault =>
      rw [found] at accepted
      cases accepted
    | ok layout => exact ⟨layout, rfl⟩
  refine ⟨fun more nonempty => ?_, ?_⟩
  · rw [parse, ClassLayout.read_append whole nonempty, List.length_append]
  · rintro shorter ⟨more, rfl⟩ other
    have nonempty : more ≠ [] := by
      rintro rfl
      exact other (List.append_nil _).symm
    obtain ⟨fault, failed, past⟩ := ClassLayout.read_of_append whole nonempty
    exact ⟨fault, past, by rw [parse, failed]⟩

/-! ## A class with an annotation -/

namespace AnnotatedClass

/-- A class `A` with an annotation, and lengths of attributes that tell nothing about where these end. -/
def bytes : Bytes :=
  [0xCA, 0xFE, 0xBA, 0xBE, 0, 0, 0, 52, 0, 5, 1, 0, 1, 65, 7, 0, 1, 1, 0, 25, 82, 117, 110, 116, 105, 109, 101, 86, 105, 115,
    105, 98, 108, 101, 65, 110, 110, 111, 116, 97, 116, 105, 111, 110, 115, 1, 0, 9, 83, 121, 110, 116, 104, 101, 116, 105, 99,
    0, 33, 0, 2, 0, 0, 0, 0, 0, 0, 0, 0, 0, 2, 0, 3, 0, 0, 0, 1, 0, 1, 0, 1, 0, 1, 0, 1, 73, 0, 0,
    0, 4, 0xFF, 0xFF, 0xFF, 0xFF]

/-- The class that the bytes describe. -/
def file : ClassFile where
  pool := ⟨#[.unused, .utf8 "A", .classRef 1, .utf8 "RuntimeVisibleAnnotations", .utf8 "Synthetic"]⟩
  name := "A"
  superName := none
  interfaces := []
  fields := []
  methods := []

/-- The class is accepted, refused with one more byte, and refused without its last byte. -/
theorem parse_bytes_only : ClassFile.parse bytes = .ok file ∧
    ClassFile.parse (bytes ++ [0]) = .error (.malformedClassFile (.layout 95 (.bytesLeft 1))) ∧
      ∃ fault, fault.isPastEnd = true ∧
        ClassFile.parse bytes.dropLast = .error (.malformedClassFile (.layout 93 fault)) := by
  have accepted : ClassFile.parse bytes = .ok file := by decide +kernel
  obtain ⟨longer, shorter⟩ := ClassFile.parse_prefix_free accepted
  exact ⟨accepted, longer [0] (by decide), shorter bytes.dropLast (List.dropLast_prefix _) (by decide)⟩

end AnnotatedClass

end JvmUnits
