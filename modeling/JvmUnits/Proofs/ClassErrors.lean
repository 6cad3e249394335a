import JvmUnits.Proofs.Labels
import JvmUnits.Unit.Basic

/-!
# Errors of class files

A class can fail to compile before its class file is looked at: the file is missing, or can not be read. Any other error lies
inside the file. `Reports` says of which kind the errors of some work are. Parsing a class file and walking over its methods
report only that its bytes are malformed or that its code has an instruction which no unit has. Translating it reports these,
and errors of the operands that it names; besides, a flag word may have unknown bits, and an opcode may have no mnemonic. So an
error of translating a class is of a kind that includes the first two if the latter, for the flag words and the opcodes of this
class, are of this kind as well (`ClassFile.reports_translate`).
-/

namespace JvmUnits

namespace Error

/-- The error lies inside a class file that has been found and read. -/
def isInside : Error → Bool
  | classNotFound _ => false
  | file _ _ => false
  | _ => true

/-- The bytes of a class file are malformed. -/
def isMalformed : Error → Bool
  | malformedClassFile _ => true
  | _ => false

/-- The error is one of reading: bytes are malformed, or code has an instruction that no unit has. -/
def isOfReading : Error → Bool
  | malformedClassFile _ => true
  | unsupportedConstruct .invokeDynamic => true
  | unsupportedConstruct (.opcodeAt _ _) => true
  | _ => false

/-- The error is one of an operand: a descriptor that is malformed, or a constant that no unit has. -/
def isOfOperand : Error → Bool
  | malformedDescriptor _ _ => true
  | unsupportedConstant _ _ => true
  | unsupportedConstruct (.arrayClassLiteral _) => true
  | _ => false

/-- Malformed bytes are an error of reading. -/
theorem isOfReading_of_isMalformed (e : Error) (malformed : e.isMalformed = true) : e.isOfReading = true := by
  cases e with
  | malformedClassFile fault => rfl
  | _ => cases malformed

end Error

/-- The work reports nothing but errors of a kind. -/
def Reports {α : Type} (kind : Error → Bool) (result : Except Error α) : Prop := ∀ e, result = .error e → kind e = true

namespace Reports

variable {α β : Type} {kind : Error → Bool}

/-- A result is no error. -/
theorem ok (a : α) : Reports kind (.ok a) := by
  intro e h
  cases h

/-- A failure reports its error. -/
theorem error {e : Error} (known : kind e = true) : Reports kind (.error e : Except Error α) := by
  intro other h
  cases h
  exact known

/-- What reports errors of a kind reports errors of any wider kind. -/
theorem mono {wider : Error → Bool} {result : Except Error α} (reports : Reports kind result)
    (within : ∀ e, kind e = true → wider e = true) : Reports wider result :=
  fun e failed => within e (reports e failed)

/-- Work in two steps reports what its steps report. -/
theorem bind {first : Except Error α} {next : α → Except Error β} (head : Reports kind first)
    (tail : ∀ a, Reports kind (next a)) : Reports kind (first >>= next) := by
  cases first with
  | error e => exact error (head e rfl)
  | ok a => exact tail a

/-- Going on with a result reports nothing new. -/
theorem map {first : Except Error α} (f : α → β) (head : Reports kind first) : Reports kind (f <$> first) := by
  cases first with
  | error e => exact error (head e rfl)
  | ok a => exact ok (f a)

/-- Work on a list reports what the work on its items reports. -/
theorem mapM {f : α → Except Error β} (each : ∀ item, Reports kind (f item)) (items : List α) :
    Reports kind (items.mapM f) := by
  induction items with
  | nil => exact ok []
  | cons item items ih =>
    rw [List.mapM_cons]
    exact bind (each item) fun _ => bind ih fun _ => ok _

/-- A loop reports what its steps report. -/
theorem foldlM {f : β → α → Except Error β} (each : ∀ value item, Reports kind (f value item)) (items : List α)
    (value : β) : Reports kind (items.foldlM f value) := by
  induction items generalizing value with
  | nil => exact ok value
  | cons item items ih =>
    rw [List.foldlM_cons]
    exact bind (each value item) ih

/-- A fault that is made an error reports that error. -/
theorem mapError {ε : Type} {result : Except ε α} {f : ε → Error} (known : ∀ fault, kind (f fault) = true) :
    Reports kind (result.mapError f) := by
  cases result with
  | error fault => exact error (known fault)
  | ok a => exact ok a

end Reports

/-! ## Parsing -/

namespace Pool

variable (pool : Pool)

/-- A slot of the pool is there, or the class file is malformed. -/
theorem reports_get (index : UInt16) : Reports Error.isMalformed (pool.get index) := by
  unfold get
  split
  · exact .error rfl
  · split
    · exact .ok _
    · exact .error rfl

/-- The text at a slot is there, or the class file is malformed. -/
theorem reports_text (index : UInt16) : Reports Error.isMalformed (pool.text index) := by
  refine .bind (pool.reports_get index) fun found => ?_
  split
  · exact .ok _
  · exact .error rfl

/-- The name of a class is looked up through its slot. -/
theorem reports_className (index : UInt16) : Reports Error.isMalformed (pool.className index) := by
  refine .bind (pool.reports_get index) fun found => ?_
  split
  · exact pool.reports_text _
  · exact .error rfl

theorem reports_className? (index : UInt16) : Reports Error.isMalformed (pool.className? index) := by
  unfold className?
  split
  · exact .ok _
  · exact .map _ (pool.reports_className index)

theorem reports_nameAndType (index : UInt16) : Reports Error.isMalformed (pool.nameAndType index) := by
  refine .bind (pool.reports_get index) fun found => ?_
  split
  · exact .bind (pool.reports_text _) fun _ => .bind (pool.reports_text _) fun _ => .ok _
  · exact .error rfl

/-- A member is looked up by its class, its name and its type. -/
theorem reports_member (classIndex nameAndTypeIndex : UInt16) (inInterface : Bool) :
    Reports Error.isMalformed (pool.member classIndex nameAndTypeIndex inInterface) :=
  .bind (pool.reports_className classIndex) fun _ => .bind (pool.reports_nameAndType nameAndTypeIndex) fun _ => .ok _

/-- A reference to a member is of one of three kinds; any other slot is malformed. -/
theorem reports_memberRef (index : UInt16) : Reports Error.isMalformed (pool.memberRef index) := by
  refine .bind (pool.reports_get index) fun found => ?_
  split
  · exact pool.reports_member _ _ _
  · exact pool.reports_member _ _ _
  · exact pool.reports_member _ _ _
  · exact .error rfl

/-- A slot that can not be loaded is malformed. -/
theorem reports_loadable (index : UInt16) : Reports Error.isMalformed (pool.loadable index) := by
  refine .bind (pool.reports_get index) fun found => ?_
  split
  case h_1 | h_6 => exact .map _ (pool.reports_text _)
  all_goals exact .ok _

/-- A handler may name the class that it catches. -/
theorem reports_handler (row : HandlerRow) : Reports Error.isMalformed (pool.handler row) :=
  .bind (pool.reports_className? row.catchIndex) fun _ => .ok _

theorem reports_localVariable (row : LocalRow) : Reports Error.isMalformed (pool.localVariable row) :=
  .bind (pool.reports_text row.nameIndex) fun _ => .bind (pool.reports_text row.descriptorIndex) fun _ => .ok _

/-- A parameter may have a name. -/
theorem reports_parameter (row : ParameterRow) : Reports Error.isMalformed (pool.parameter row) := by
  unfold parameter
  split
  · exact .ok _
  · exact .bind (.map _ (pool.reports_text row.nameIndex)) fun _ => .ok _

/-- An attribute of a method is resolved through the pool. -/
theorem reports_add (parts : MethodParts) (part : Attribute) : Reports Error.isMalformed (parts.add pool part) := by
  unfold MethodParts.add
  split
  · rename_i bytes handlers attributes
    have resolved : Reports Error.isMalformed (CodeInfo.resolve pool bytes handlers attributes) :=
      .bind (.mapM pool.reports_handler handlers) fun _ => .bind (.mapM pool.reports_localVariable _) fun _ => .ok _
    exact .bind resolved fun _ => .ok _
  · exact .bind (.mapM pool.reports_className _) fun _ => .ok _
  · exact .bind (.mapM pool.reports_parameter _) fun _ => .ok _
  · exact .ok _

/-- A field is resolved through the pool. -/
theorem reports_field (layout : MemberLayout) : Reports Error.isMalformed (FieldInfo.resolve pool layout) :=
  .bind (pool.reports_text layout.nameIndex) fun _ => .bind (pool.reports_text layout.descriptorIndex) fun _ => .ok _

/-- A method is resolved through the pool, attribute by attribute. -/
theorem reports_method (layout : MemberLayout) : Reports Error.isMalformed (MethodInfo.resolve pool layout) :=
  .bind (.foldlM pool.reports_add layout.attributes _) fun _ =>
    .bind (pool.reports_text layout.nameIndex) fun _ =>
      .bind (pool.reports_text layout.descriptorIndex) fun _ => .ok _

end Pool

/-- Bytes that are no class file are refused for what they are. -/
theorem ClassFile.reports_parse (bytes : Bytes) : Reports Error.isOfReading (ClassFile.parse bytes) := by
  unfold ClassFile.parse
  split
  · exact .error rfl
  · rename_i layout _
    have resolved : Reports Error.isMalformed (resolve layout) :=
      .bind (layout.pool.reports_className layout.classIndex) fun _ =>
        .bind (layout.pool.reports_className? layout.superIndex) fun _ =>
          .bind (.mapM layout.pool.reports_className layout.interfaceIndices) fun _ =>
            .bind (.mapM layout.pool.reports_field layout.fields) fun _ =>
              .bind (.mapM layout.pool.reports_method layout.methods) fun _ => .ok _
    exact resolved.mono Error.isOfReading_of_isMalformed

/-! ## Decoding code -/

namespace Operands

/-- Wherever the cursor stands, reading reports nothing but errors of reading. -/
def Reports {α : Type} (read : Operands α) : Prop := ∀ cursor, JvmUnits.Reports Error.isOfReading (read cursor)

namespace Reports

variable {α β : Type}

theorem pure (a : α) : Reports (pure a : Operands α) := fun _ => .ok _

theorem malformed (fault : ClassFault) : Reports (malformed fault : Operands α) := fun _ => .error rfl

/-- Reading two things reports what reading each of them reports. -/
theorem bind {read : Operands α} {next : α → Operands β} (head : Reports read) (tail : ∀ a, Reports (next a)) :
    Reports (read >>= next) :=
  fun cursor => .bind (head cursor) fun found => tail found.1 found.2

theorem map {read : Operands α} (f : α → β) (head : Reports read) : Reports (f <$> read) :=
  bind head fun a => pure (f a)

/-- A constant that is looked up while code is read is an error of reading where it is not found. -/
theorem lookUp {found : Except Error α} (head : JvmUnits.Reports Error.isMalformed found) : Reports (lookUp found) := by
  cases found with
  | error e => exact fun _ => .error (Error.isOfReading_of_isMalformed e (head e rfl))
  | ok value => exact pure value

/-- A reader that goes one of two ways reports what both report. -/
theorem ite {c : Prop} [Decidable c] {yes no : Operands α} (hy : Reports yes) (hn : Reports no) :
    Reports (if c then yes else no) := by
  split
  · exact hy
  · exact hn

/-- Reading something several times reports what reading it once reports. -/
theorem times {read : Operands α} (head : Reports read) (count : Nat) : Reports (times read count) := by
  induction count with
  | zero => exact pure []
  | succ n ih => exact bind head fun _ => bind ih fun _ => pure _

end Reports

/-- Code that ends inside an instruction is malformed. -/
theorem reports_byte : Reports byte := by
  rintro ⟨offset, _ | ⟨b, rest⟩⟩
  · exact .error rfl
  · exact .ok _

theorem reports_pass (count : Nat) : Reports (pass count) := fun _ => .ok _

/-- Operands of several bytes report what the bytes of them report. -/
theorem reports_word : Reports word := .bind reports_byte fun _ => .bind reports_byte fun _ => .pure _

theorem reports_signedByte : Reports signedByte := .bind reports_byte fun _ => .pure _

theorem reports_signedWord : Reports signedWord := .bind reports_word fun _ => .pure _

theorem reports_signedDouble : Reports signedDouble :=
  .bind reports_word fun _ => .bind reports_word fun _ => .pure _

/-- A branch to a place outside the code is malformed. -/
theorem reports_target (length base : Nat) (distance : Int) : Reports (target length base distance) :=
  .bind (.pure _) fun _ => .ite (.malformed _) (.pure _)

/-- A target of four bytes is an offset that is read, and then a branch. -/
theorem reports_wideTarget (length base : Nat) : Reports (wideTarget length base) :=
  .bind reports_signedDouble fun _ => reports_target _ _ _

/-- A table that is longer than the code is malformed. -/
theorem reports_expectEntries (kind : SwitchKind) (length count width : Nat) :
    Reports (expectEntries kind length count width) := by
  intro cursor
  rw [expectEntries_apply]
  split
  · exact .error rfl
  · exact .ok _

/-- The entries of a table report what an entry reports, besides the length of the table. -/
theorem reports_entries {α : Type} (kind : SwitchKind) (length count width : Nat) {entry : Operands α}
    (each : Reports entry) : Reports (entries kind length count width entry) :=
  .bind (reports_expectEntries _ _ _ _) fun _ => .bind (.pure _) fun _ => .times each count

/-- A table switch reads its bounds and then its targets. -/
theorem reports_tableSwitch (length base : Nat) : Reports (tableSwitch length base) :=
  .bind (reports_pass _) fun _ => .bind (reports_wideTarget _ _) fun _ =>
    .bind reports_signedDouble fun _ => .bind reports_signedDouble fun _ => .bind (.pure _) fun _ =>
      .ite (.malformed _) (.bind (reports_entries _ _ _ _ (reports_wideTarget _ _)) fun _ => .pure _)

/-- A key goes before its target. -/
theorem reports_keyedTarget (length base : Nat) : Reports (keyedTarget length base) :=
  .bind reports_signedDouble fun _ => .bind (reports_wideTarget _ _) fun _ => .pure _

/-- A lookup switch reads the number of its pairs and then the pairs. -/
theorem reports_lookupSwitch (length base : Nat) : Reports (lookupSwitch length base) :=
  .bind (reports_pass _) fun _ => .bind (reports_wideTarget _ _) fun _ =>
    .bind reports_signedDouble fun _ => .ite (.malformed _)
      (.bind (reports_entries _ _ _ _ (reports_keyedTarget _ _)) fun _ => .pure _)

theorem reports_wide : Reports wide :=
  .bind reports_byte fun _ => .bind reports_word fun _ =>
    .ite (.bind reports_signedWord fun _ => .pure _) (.ite (.pure _) (.malformed _))

/-- An instruction of any opcode reports errors of reading only. -/
theorem reports_instruction (pool : Pool) (length base : Nat) (opcode : UInt8) :
    Reports (instruction pool length base opcode) := by
  have loaded (index : UInt16) : Reports (lookUp (pool.loadable index)) := .lookUp (pool.reports_loadable index)
  have member (index : UInt16) : Reports (lookUp (pool.memberRef index)) := .lookUp (pool.reports_memberRef index)
  have named (index : UInt16) : Reports (lookUp (pool.className index)) := .lookUp (pool.reports_className index)
  unfold instruction
  cases Opcode.format opcode with
  | plain | impliedSlot => exact .pure _
  | byte => exact .map _ reports_signedByte
  | short => exact .map _ reports_signedWord
  | unsignedByte | slot => exact .bind reports_byte fun _ => .pure _
  | constant => exact .bind reports_byte fun _ => .bind (loaded _) fun _ => .pure _
  | wideConstant => exact .bind reports_word fun _ => .bind (loaded _) fun _ => .pure _
  | increment => exact .bind reports_byte fun _ => .bind reports_signedByte fun _ => .pure _
  | branch => exact .bind reports_signedWord fun _ => .map _ (reports_target _ _ _)
  | wideBranch => exact .map _ (reports_wideTarget _ _)
  | tableSwitch => exact reports_tableSwitch _ _
  | lookupSwitch => exact reports_lookupSwitch _ _
  | field | method => exact .bind reports_word fun _ => .bind (member _) fun _ => .pure _
  | interfaceMethod =>
    exact .bind reports_word fun _ => .bind (member _) fun _ => .bind (reports_pass _) fun _ => .pure _
  | dynamic | reserved => exact fun _ => .error rfl
  | type => exact .bind reports_word fun _ => .map _ (named _)
  | multiArray => exact .bind reports_word fun _ => .bind (named _) fun _ => .bind reports_byte fun _ => .pure _
  | wide => exact reports_wide

end Operands

namespace Instruction

/-- An instruction that is decoded reports errors of reading only; an opcode that is not in use is one of them. -/
theorem reports_decode (pool : Pool) (length offset : Nat) (opcode : UInt8) (bytes : Bytes) :
    Reports Error.isOfReading (decode pool length offset opcode bytes) := by
  have operands := Operands.reports_instruction pool length offset opcode ⟨offset + 1, bytes⟩
  unfold decode
  split
  · rename_i e failed
    exact .error (operands e failed)
  · split
    · exact .error rfl
    · exact .ok _

/-- All instructions of a code array report errors of reading only. -/
theorem reports_sweep (pool : Pool) (length offset : Nat) (bytes : Bytes) :
    Reports Error.isOfReading (sweep pool length offset bytes) := by
  fun_induction sweep pool length offset bytes with
  | case1 offset => exact .ok _
  | case2 offset opcode operands e failed => exact .error (reports_decode pool length offset opcode operands e failed)
  | case3 offset opcode operands instruction after decoded shorter ih => exact .map _ ih

end Instruction

/-! ## Walking methods -/

namespace Walk

/-- The walk is cut short by nothing but errors of reading. -/
def Reports (walk : Walk) : Prop := ∀ e, walk.failure = some e → e.isOfReading = true

/-- A walk that starts with a step reports what the step reports, and then what the rest of the walk does. -/
theorem reports_andThen {α : Type} {value : Except Error α} {next : α → Walk} (head : JvmUnits.Reports Error.isOfReading value)
    (tail : ∀ a, Reports (next a)) : Reports (andThen value next) := by
  cases value with
  | error e =>
    rintro _ ⟨⟩
    exact head e rfl
  | ok a => exact tail a

/-- A label that no instruction stands at is an error of reading. -/
theorem reports_misaligned (offset : Nat) : Reports (failed (misaligned offset)) := by
  rintro _ ⟨⟩
  rfl

/-- A label that is left over behind the instructions is that of the end of the code, or an error of reading. -/
theorem reports_trailingLabels (length : Nat) (offsets : List Nat) : Reports (trailingLabels length offsets) := by
  induction offsets with
  | nil => exact nofun
  | cons offset offsets ih =>
    unfold trailingLabels
    split
    · exact ih
    · exact reports_misaligned offset

/-- Weaving labels between instructions reports nothing but labels without an instruction. -/
theorem reports_weave (length : Nat) (offsets : List Nat) (placed : List (Nat × Instruction)) :
    Reports (weave length offsets placed) := by
  fun_induction weave length offsets placed with
  | case1 offsets => exact reports_trailingLabels length offsets
  | case2 place instruction rest ih => exact ih
  | case3 offset offsets place instruction rest passed => exact reports_misaligned offset
  | case4 offset offsets instruction rest passed ih => exact ih
  | case5 offset offsets place instruction rest passed other ih => exact ih

/-- Events that go before a walk do not change what it reports. -/
theorem reports_before {walk : Walk} (events : List Event) (inside : Reports walk) :
    Reports (walk.before events) := by
  unfold before
  split
  · exact nofun
  · rename_i e failed
    rintro _ ⟨⟩
    exact inside e failed

/-- A row of a table names a place in the code, or is malformed. -/
theorem reports_mark (length : Nat) (offset : UInt16) : JvmUnits.Reports Error.isOfReading (mark length offset) := by
  unfold mark
  split
  · exact .error rfl
  · exact .ok _

/-- A guarded range has three places in the code. -/
theorem reports_guardEvent (length : Nat) (row : Handler) : JvmUnits.Reports Error.isOfReading (guardEvent length row) :=
  .bind (reports_mark length row.start) fun _ => .bind (reports_mark length row.stop) fun _ =>
    .bind (reports_mark length row.handler) fun _ => .ok _

/-- The range of a local variable ends inside the code, or at its end. -/
theorem reports_localEvent (length : Nat) (row : LocalVariable) : JvmUnits.Reports Error.isOfReading (localEvent length row) := by
  refine .bind (reports_mark length row.start) fun _ => ?_
  dsimp only
  split
  · exact .error rfl
  · exact .ok _

/-- The walk over a method reports errors of reading only. -/
theorem reports_ofMethod (pool : Pool) (method : MethodInfo) : Reports (ofMethod pool method) := by
  unfold ofMethod
  cases method.code with
  | none => exact nofun
  | some code =>
    exact reports_andThen (Instruction.reports_sweep pool code.bytes.length 0 code.bytes) fun _ =>
      reports_andThen (.mapM (reports_guardEvent code.bytes.length) code.handlers) fun _ =>
        reports_andThen (.mapM (reports_localEvent code.bytes.length) code.locals) fun _ =>
          reports_before _ (reports_weave _ _ _)

end Walk

/-! ## Translating -/

/-- The kind includes the errors of reading and those of operands. -/
def Error.Common (kind : Error → Bool) : Prop := ∀ e : Error, e.isOfReading = true ∨ e.isOfOperand = true → kind e = true

namespace Mentioning

/-- The work reports nothing but errors of a kind. -/
def Reports {α : Type} (kind : Error → Bool) (work : Mentioning α) : Prop := JvmUnits.Reports kind work.outcome

namespace Reports

variable {α β : Type} {kind : Error → Bool}

theorem pure (a : α) : Reports kind (pure a : Mentioning α) := .ok a

theorem fail {e : Error} (known : kind e = true) : Reports kind (fail e : Mentioning α) := .error known

/-- Work in two steps that mentions classes reports what its steps report. -/
theorem bind {work : Mentioning α} {next : α → Mentioning β} (head : Reports kind work) (tail : ∀ a, Reports kind (next a)) :
    Reports kind (work >>= next) := by
  obtain ⟨mentions, e | a⟩ := work
  · exact .error (head e rfl)
  · exact tail a

theorem map {work : Mentioning α} (f : α → β) (head : Reports kind work) : Reports kind (f <$> work) :=
  bind head fun a => pure (f a)

/-- Work on a list that mentions classes reports what the work on its items reports. -/
theorem mapM {f : α → Mentioning β} {items : List α} (each : ∀ item ∈ items, Reports kind (f item)) :
    Reports kind (items.mapM f) := by
  induction items with
  | nil => exact pure []
  | cons item items ih =>
    obtain ⟨here, later⟩ := List.forall_mem_cons.mp each
    rw [List.mapM_cons]
    exact bind here fun _ => bind (ih later) fun _ => pure _

end Reports

end Mentioning

/-- A descriptor that is refused is an error of an operand. -/
theorem TypeToken.reports_decode (descriptor : String) : (TypeToken.decode descriptor).Reports Error.isOfOperand := by
  unfold TypeToken.decode
  split
  · exact .fail rfl
  · exact .ok _

/-- A class name that is refused is an error of an operand. -/
theorem TypeToken.reports_decodeInternalName (name : String) : (decodeInternalName name).Reports Error.isOfOperand := by
  unfold decodeInternalName
  split
  · exact reports_decode name
  · split
    · exact .fail rfl
    · exact .ok _

/-- The descriptor of a method that is refused is an error of an operand, whichever part of it is at fault. -/
theorem MethodSignature.reports_decode (descriptor : String) :
    (MethodSignature.decode descriptor).Reports Error.isOfOperand := by
  have divided : Reports Error.isOfOperand (split descriptor) := by
    unfold split
    split
    · exact .error rfl
    · exact .ok _
  have parsed : Reports Error.isOfOperand (parse descriptor) := by
    refine .bind divided fun _ => .bind (.mapError fun _ => rfl) fun _ => .bind (.mapError fun _ => rfl) fun _ => ?_
    dsimp only
    split
    · exact .ok _
    · exact .error rfl
  unfold MethodSignature.decode
  split
  · rename_i e failed
    exact .fail (parsed e failed)
  · exact .ok _

namespace Naming

variable (naming : Naming)

/-- Operands under runtime names report what reading them reports. -/
theorem reports_typeToken (descriptor : String) : (naming.typeToken descriptor).Reports Error.isOfOperand :=
  .bind (TypeToken.reports_decode descriptor) fun _ => .pure _

theorem reports_classToken (name : String) : (naming.classToken name).Reports Error.isOfOperand :=
  .bind (TypeToken.reports_decodeInternalName name) fun _ => .pure _

theorem reports_methodSignature (descriptor : String) : (naming.methodSignature descriptor).Reports Error.isOfOperand :=
  .bind (MethodSignature.reports_decode descriptor) fun _ => .pure _

/-- A constant that can not be loaded is an error of an operand. -/
theorem reports_literal (index : UInt16) (constant : Loadable) : (naming.literal index constant).Reports Error.isOfOperand := by
  cases constant with
  | string | integer | float | long | double => exact .pure _
  | classRef name =>
    unfold literal
    dsimp only
    split
    · exact .fail rfl
    · exact .map _ (.ok _)
  | other kind => exact .fail rfl

end Naming

/-- A flag word is divided into flags, or has bits that are left over. -/
theorem AccessSite.reports_decompose {kind : Error → Bool}
    (known : ∀ site word leftover, kind (.corruptAccessFlags site word leftover) = true) (site : AccessSite) (word : Nat) :
    Reports kind (site.decompose word) := by
  unfold decompose
  dsimp only
  split
  · exact .ok _
  · exact .error (known _ _ _)

/-- An opcode has a mnemonic, or no unit has the instruction. -/
theorem Opcode.reports_mnemonic {kind : Error → Bool} (known : ∀ opcode, kind (.unsupportedConstruct (.opcode opcode)) = true)
    (opcode : UInt8) : (mnemonic opcode).Reports kind := by
  unfold mnemonic
  split
  · exact .pure _
  · exact .fail (known _)

/-- The opcode whose mnemonic stands in the node of an instruction. -/
def Instruction.opcode? : Instruction → Option UInt8
  | plain opcode => some opcode
  | int opcode _ => some opcode
  | var opcode _ => some opcode
  | type opcode _ => some opcode
  | field opcode _ _ _ => some opcode
  | method opcode _ _ _ _ => some opcode
  | jump opcode _ => some opcode
  | _ => none

/-! ### What a walk meets -/

/-- The event is neither a parameter nor an instruction. -/
def Event.isMark : Event → Bool
  | parameter _ _ => false
  | instruction _ => false
  | _ => true

namespace Walk

variable {property : Event → Prop} (marks : ∀ event : Event, event.isMark = true → property event)

include marks

/-- What holds of marks holds of the labels behind the code. -/
theorem forall_trailingLabels (length : Nat) (offsets : List Nat) :
    ∀ event ∈ (trailingLabels length offsets).events, property event := by
  induction offsets with
  | nil => simp [trailingLabels]
  | cons offset offsets ih =>
    unfold trailingLabels
    split
    · exact List.forall_mem_cons.mpr ⟨marks _ rfl, ih⟩
    · simp [failed]

/-- What holds of marks and of the instructions holds of everything that weaving gives. -/
theorem forall_weave {length : Nat} {offsets : List Nat} {placed : List (Nat × Instruction)}
    (instructions : ∀ entry ∈ placed, property (.instruction entry.2)) :
    ∀ event ∈ (weave length offsets placed).events, property event := by
  fun_induction weave length offsets placed with
  | case1 offsets => exact forall_trailingLabels marks length offsets
  | case2 place instruction rest ih =>
    obtain ⟨here, later⟩ := List.forall_mem_cons.mp instructions
    exact List.forall_mem_cons.mpr ⟨here, ih later⟩
  | case3 offset offsets place instruction rest passed => simp [failed]
  | case4 offset offsets instruction rest passed ih =>
    obtain ⟨here, later⟩ := List.forall_mem_cons.mp instructions
    exact List.forall_mem_cons.mpr ⟨marks _ rfl, List.forall_mem_cons.mpr ⟨here, ih later⟩⟩
  | case5 offset offsets place instruction rest passed other ih =>
    obtain ⟨here, later⟩ := List.forall_mem_cons.mp instructions
    exact List.forall_mem_cons.mpr ⟨here, ih later⟩

/-- Whether or not it fails, a walk over code meets the instructions that are decoded from it, and else only marks. -/
theorem forall_ofCode {pool : Pool} {code : CodeInfo} (instructions : ∀ placed, Instruction.Linear pool code.bytes 0 placed →
      ∀ entry ∈ placed, property (.instruction entry.2)) : ∀ event ∈ (ofCode pool code).events, property event := by
  unfold ofCode andThen
  dsimp only
  split
  · simp [failed]
  rename_i placed decoded
  split
  · simp [failed]
  rename_i guards handled
  split
  · simp [failed]
  rename_i locals declared
  obtain rfl := eq_map_of_mapM eq_of_guardEvent handled
  obtain rfl := eq_map_of_mapM eq_of_localEvent declared
  have woven : ∀ event ∈ (weave code.bytes.length (offsets (code.referring placed)) placed).events, property event :=
    forall_weave marks (instructions placed (Instruction.decodeAll_eq_ok_iff.mp decoded))
  refine List.forall_mem_append.mpr ⟨List.forall_mem_map.mpr fun row _ => marks _ rfl, ?_⟩
  unfold before
  split
  · refine List.forall_mem_append.mpr ⟨woven, List.forall_mem_append.mpr ⟨List.forall_mem_map.mpr fun row _ => marks _ rfl, ?_⟩⟩
    exact List.forall_mem_singleton.mpr (marks _ rfl)
  · exact woven

/-- What holds of marks, of the parameters and of the instructions of its code holds of all events of a method. -/
theorem forall_ofMethod {pool : Pool} {method : MethodInfo}
    (parameters : ∀ row ∈ method.parameters, property (.parameter row.name row.flags))
    (instructions : ∀ code, method.code = some code → ∀ placed, Instruction.Linear pool code.bytes 0 placed →
      ∀ entry ∈ placed, property (.instruction entry.2)) : ∀ event ∈ (ofMethod pool method).events, property event := by
  refine List.forall_mem_append.mpr ⟨List.forall_mem_map.mpr parameters, ?_⟩
  cases given : method.code with
  | none => exact List.forall_mem_singleton.mpr (marks _ rfl)
  | some code => exact forall_ofCode marks (instructions code given)

end Walk

/-! ### What units may report -/

/-- If the mnemonic of an instruction is missing or the flags of a parameter are unknown, this is an error of the kind. -/
def Event.Admits (kind : Error → Bool) : Event → Prop
  | parameter _ flags => Reports kind (AccessSite.parameter.decompose flags.toNat)
  | instruction i => ∀ opcode, i.opcode? = some opcode → (Opcode.mnemonic opcode).Reports kind
  | _ => True

/-- Of the events that a walk meets, it is enough to look at the parameters of the method and at the instructions of its code. -/
theorem MethodInfo.admits_events {kind : Error → Bool} {pool : Pool} {method : MethodInfo}
    (parameters : ∀ row ∈ method.parameters, Reports kind (AccessSite.parameter.decompose row.flags.toNat))
    (opcodes : ∀ code, method.code = some code → ∀ placed, Instruction.Linear pool code.bytes 0 placed →
      ∀ entry ∈ placed, ∀ opcode, entry.2.opcode? = some opcode → (Opcode.mnemonic opcode).Reports kind) :
    ∀ event ∈ (Walk.ofMethod pool method).events, event.Admits kind := by
  refine Walk.forall_ofMethod (fun event mark => ?_) parameters opcodes
  cases event with
  | parameter | instruction => cases mark
  | _ => trivial

/-- If the flags of a method, of its parameters or a mnemonic are unknown, this is an error of the kind. The parameters and the
code of a native method do not count. -/
structure MethodInfo.Admits (kind : Error → Bool) (pool : Pool) (method : MethodInfo) : Prop where
  flags : Reports kind (AccessSite.method.decompose method.flags.toNat)
  events : isNativeWord method.flags.toNat = false → ∀ event ∈ (Walk.ofMethod pool method).events, event.Admits kind

section

variable {kind : Error → Bool} (common : Error.Common kind) {naming : Naming}

include common

/-- An instruction reports errors of a kind if its mnemonic does: its operands report common errors. -/
theorem Instruction.reports_translate {i : Instruction}
    (named : ∀ opcode, i.opcode? = some opcode → (Opcode.mnemonic opcode).Reports kind) :
    (i.translate naming).Reports kind := by
  have operand {α : Type} {work : Mentioning α} (reports : work.Reports Error.isOfOperand) : work.Reports kind :=
    reports.mono fun e known => common e (.inr known)
  have classToken (name : String) := operand (naming.reports_classToken name)
  have typeToken (descriptor : String) := operand (naming.reports_typeToken descriptor)
  cases i with
  | plain | int | var | jump => exact .bind (named _ rfl) fun _ => .pure _
  | type => exact .bind (named _ rfl) fun _ => .bind (classToken _) fun _ => .pure _
  | field =>
    exact .bind (named _ rfl) fun _ => .bind (classToken _) fun _ => .bind (typeToken _) fun _ => .pure _
  | method =>
    exact .bind (named _ rfl) fun _ => .bind (classToken _) fun _ =>
      .bind (.bind (operand (naming.reports_methodSignature _)) fun _ => .pure _) fun _ => .pure _
  | load => exact .map _ (operand (naming.reports_literal _ _))
  | increment | tableSwitch | lookupSwitch => exact .pure _
  | multiArray => exact .bind (typeToken _) fun _ => .pure _

/-- An event reports errors of a kind if its flags and its opcode admit no others. -/
theorem Event.reports_translate {event : Event} (admits : event.Admits kind) : (event.translate naming).Reports kind := by
  cases event with
  | parameter name flags => exact .bind admits fun _ => .pure _
  | guard start stop handler catchType =>
    refine .bind ?_ fun _ => .pure _
    cases catchType with
    | none => exact .pure _
    | some name => exact .map _ (.ok _)
  | label | finish => exact .pure _
  | instruction i => exact i.reports_translate common admits
  | localVariable name descriptor =>
    exact .bind ((naming.reports_typeToken descriptor).mono fun e known => common e (.inr known)) fun _ => .pure _

/-- A body is cut short by the error of an event, or by the one that is known already. -/
theorem Body.reports_ofEvents {failure : Option Error} (known : ∀ e, failure = some e → kind e = true) {events : List Event}
    (admitted : ∀ event ∈ events, event.Admits kind) :
    ∀ e, (Body.ofEvents naming failure events).failure = some e → kind e = true := by
  induction events with
  | nil => exact known
  | cons event rest ih =>
    obtain ⟨here, later⟩ := List.forall_mem_cons.mp admitted
    unfold Body.ofEvents
    dsimp only
    split
    · rename_i e failed
      rintro _ ⟨⟩
      exact event.reports_translate common here e failed
    · exact ih later

/-- What cuts the nodes of a method short is an error of walking over it or of one of its events. -/
theorem Body.reports_ofWalk {pool : Pool} {method : MethodInfo}
    (admitted : ∀ event ∈ (Walk.ofMethod pool method).events, event.Admits kind) :
    ∀ e, (Body.ofWalk naming (Walk.ofMethod pool method)).failure = some e → kind e = true :=
  reports_ofEvents common (fun e failed => common e (.inl (Walk.reports_ofMethod pool method e failed))) admitted

/-- The value of a field that is a constant reports common errors. -/
theorem Pool.reports_fieldValue (pool : Pool) (index : Option UInt16) : Reports kind (pool.fieldValue index) := by
  cases index with
  | none => exact .ok _
  | some index =>
    have loaded := (pool.reports_loadable index).mono Error.isOfReading_of_isMalformed
    refine .bind (loaded.mono fun e known => common e (.inl known)) fun constant => .map _ ?_
    cases constant with
    | string | integer | float | long | double => exact .ok _
    | classRef | other => exact .error (common _ (.inr rfl))

/-- A field reports errors of a kind if its flags do. -/
theorem FieldInfo.reports_translate {pool : Pool} {field : FieldInfo}
    (flags : Reports kind (AccessSite.field.decompose field.flags.toNat)) : (field.translate naming pool).Reports kind :=
  .bind ((naming.reports_typeToken field.descriptor).mono fun e known => common e (.inr known)) fun _ =>
    .bind (pool.reports_fieldValue common _) fun _ => .bind flags fun _ => .pure _

/-- A method reports errors of a kind if its flags and its events admit no others. -/
theorem MethodInfo.reports_translate {pool : Pool} {runtimeName : String} {method : MethodInfo}
    (admits : method.Admits kind pool) : (method.translate naming pool runtimeName).Reports kind := by
  refine .bind ((naming.reports_methodSignature method.descriptor).mono fun e known => common e (.inr known)) fun _ =>
    .bind (.ok _) fun _ => .bind admits.flags fun _ => .bind ?_ fun _ => .pure _
  unfold MethodInfo.implementation
  split
  · exact .pure _
  · rename_i own
    refine .map _ ?_
    unfold Body.finished Mentioning.Reports
    dsimp only
    split
    · exact .ok _
    · rename_i e failed
      exact .error (Body.reports_ofWalk common (admits.events (Bool.eq_false_iff.mpr own)) e failed)

/-- The errors of translating a class are of a kind that includes those of reading and of operands, if unknown flags and missing
mnemonics in this class are errors of the kind. -/
theorem ClassFile.reports_translate {file : ClassFile}
    (fields : ∀ field ∈ file.fields, Reports kind (AccessSite.field.decompose field.flags.toNat))
    (methods : ∀ method ∈ file.methods, method.Admits kind file.pool) : Reports kind (file.translate naming) := by
  have members : (file.members naming).Reports kind :=
    .bind (.ok _) fun _ => .bind (.mapM fun field mem => FieldInfo.reports_translate common (fields field mem)) fun _ =>
      .bind (.mapM fun method mem => MethodInfo.reports_translate common (methods method mem)) fun _ => .pure _
  exact .map _ members

end

/-! ## Errors inside class files -/

/-- Errors of reading and errors of operands lie inside the class file. -/
theorem Error.isInside_common : Error.Common Error.isInside := by
  intro e known
  cases e with
  | classNotFound | file => rcases known with known | known <;> cases known
  | _ => rfl

/-- Whatever its flags and its opcode are, the errors of an event lie inside the class file. -/
theorem Event.admits_inside (event : Event) : event.Admits Error.isInside := by
  cases event with
  | parameter => exact AccessSite.reports_decompose (fun _ _ _ => rfl) _ _
  | instruction i => exact fun opcode _ => Opcode.reports_mnemonic (fun _ => rfl) opcode
  | _ => trivial

/-- The errors of parsing lie inside the class file. -/
theorem ClassFile.inside_parse (bytes : Bytes) : Reports Error.isInside (ClassFile.parse bytes) :=
  (reports_parse bytes).mono fun e known => Error.isInside_common e (.inl known)

/-- A class file that can not be translated is to blame itself. -/
theorem ClassFile.inside_translate (naming : Naming) (file : ClassFile) : Reports Error.isInside (file.translate naming) :=
  reports_translate Error.isInside_common (fun _ _ => AccessSite.reports_decompose (fun _ _ _ => rfl) _ _) fun _ _ =>
    ⟨AccessSite.reports_decompose (fun _ _ _ => rfl) _ _, fun _ event _ => event.admits_inside⟩

end JvmUnits
