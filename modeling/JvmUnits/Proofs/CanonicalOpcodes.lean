import JvmUnits.Proofs.BranchTargets
import JvmUnits.Proofs.ClassErrors
import JvmUnits.Proofs.ControlFlow
import JvmUnits.Proofs.Encoding
import JvmUnits.Proofs.InstructionLengths

/-!
# Canonical opcodes

An instruction may be written in several forms. Its node has the mnemonic of the canonical one: a node on a local variable never
has that of a short or of a wide form, and likewise for loads of constants and for jumps. Which mnemonics a node may carry
depends on its kind (`NodeKind.mnemonics`). Every opcode whose operands can be read leads to an opcode that has one of these
(`Opcode.mem_opcodes_of_format`), so each node of a unit carries a mnemonic of its kind, and no instruction that is decoded
lacks one.

Dynamic calls and reserved opcodes have no nodes. Where one of them starts an instruction, the code array can not be decoded and
the class has no unit; only the code of a native method is not looked at.
-/

namespace JvmUnits

open Mentioning

/-! ## The mnemonics of each kind of node -/

/-- The kinds of nodes that carry a mnemonic. -/
inductive NodeKind where
  | plain | int | var | type | field | method | jump
  deriving DecidableEq, Repr

namespace NodeKind

/-- The mnemonics that nodes of a kind may carry. -/
def mnemonics : NodeKind → List String
  | plain =>
    ["NOP", "ACONST_NULL", "ICONST_M1", "ICONST_0", "ICONST_1", "ICONST_2", "ICONST_3", "ICONST_4", "ICONST_5", "LCONST_0",
      "LCONST_1", "FCONST_0", "FCONST_1", "FCONST_2", "DCONST_0", "DCONST_1", "IALOAD", "LALOAD", "FALOAD", "DALOAD", "AALOAD",
      "BALOAD", "CALOAD", "SALOAD", "IASTORE", "LASTORE", "FASTORE", "DASTORE", "AASTORE", "BASTORE", "CASTORE", "SASTORE",
      "POP", "POP2", "DUP", "DUP_X1", "DUP_X2", "DUP2", "DUP2_X1", "DUP2_X2", "SWAP", "IADD", "LADD", "FADD", "DADD", "ISUB",
      "LSUB", "FSUB", "DSUB", "IMUL", "LMUL", "FMUL", "DMUL", "IDIV", "LDIV", "FDIV", "DDIV", "IREM", "LREM", "FREM", "DREM",
      "INEG", "LNEG", "FNEG", "DNEG", "ISHL", "LSHL", "ISHR", "LSHR", "IUSHR", "LUSHR", "IAND", "LAND", "IOR", "LOR", "IXOR",
      "LXOR", "I2L", "I2F", "I2D", "L2I", "L2F", "L2D", "F2I", "F2L", "F2D", "D2I", "D2L", "D2F", "I2B", "I2C", "I2S", "LCMP",
      "FCMPL", "FCMPG", "DCMPL", "DCMPG", "IRETURN", "LRETURN", "FRETURN", "DRETURN", "ARETURN", "RETURN", "ARRAYLENGTH",
      "ATHROW", "MONITORENTER", "MONITOREXIT"]
  | int => ["BIPUSH", "SIPUSH", "NEWARRAY"]
  | var => ["ILOAD", "LLOAD", "FLOAD", "DLOAD", "ALOAD", "ISTORE", "LSTORE", "FSTORE", "DSTORE", "ASTORE", "RET"]
  | type => ["NEW", "ANEWARRAY", "CHECKCAST", "INSTANCEOF"]
  | field => ["GETSTATIC", "PUTSTATIC", "GETFIELD", "PUTFIELD"]
  | method => ["INVOKEVIRTUAL", "INVOKESPECIAL", "INVOKESTATIC", "INVOKEINTERFACE"]
  | jump =>
    ["IFEQ", "IFNE", "IFLT", "IFGE", "IFGT", "IFLE", "IF_ICMPEQ", "IF_ICMPNE", "IF_ICMPLT", "IF_ICMPGE", "IF_ICMPGT",
      "IF_ICMPLE", "IF_ACMPEQ", "IF_ACMPNE", "GOTO", "JSR", "IFNULL", "IFNONNULL"]

/-- The numbers of the opcodes with these mnemonics, in the same order. -/
def opcodes : NodeKind → List Nat
  | plain =>
    List.range' 0x00 16 ++ List.range' 0x2e 8 ++ List.range' 0x4f 53 ++ List.range' 0x85 20 ++ List.range' 0xac 6 ++
      [0xbe, 0xbf, 0xc2, 0xc3]
  | int => [0x10, 0x11, 0xbc]
  | var => List.range' 0x15 5 ++ List.range' 0x36 5 ++ [0xa9]
  | type => [0xbb, 0xbd, 0xc0, 0xc1]
  | field => List.range' 0xb2 4
  | method => List.range' 0xb6 4
  | jump => List.range' 0x99 16 ++ [0xc6, 0xc7]

/-- The opcodes of a kind of node have the mnemonics of the kind, in the same order. -/
theorem mnemonics_of_opcodes (kind : NodeKind) :
    (kind.opcodes.map fun number => Opcode.mnemonics[number]?) = kind.mnemonics.map some := by
  cases kind <;> decide +kernel

/-- An opcode of a kind has a mnemonic of the kind. -/
theorem exists_mnemonic {kind : NodeKind} {opcode : UInt8} (mem : opcode.toNat ∈ kind.opcodes) :
    ∃ name ∈ kind.mnemonics, Opcode.mnemonic? opcode = some name := by
  have named : Opcode.mnemonic? opcode ∈ kind.mnemonics.map some := by
    rw [← mnemonics_of_opcodes]
    exact List.mem_map.mpr ⟨opcode.toNat, mem, rfl⟩
  obtain ⟨name, listed, same⟩ := List.mem_map.mp named
  exact ⟨name, listed, same.symm⟩

end NodeKind

namespace Opcode

/-- The mnemonics of the short forms of instructions on local variables. -/
def shortForms : List String :=
  ["ILOAD", "LLOAD", "FLOAD", "DLOAD", "ALOAD", "ISTORE", "LSTORE", "FSTORE", "DSTORE", "ASTORE"].flatMap fun name =>
    ["_0", "_1", "_2", "_3"].map (name ++ ·)

/-- Mnemonics of no canonical opcode: of short, wide and long forms, of dynamic calls, and of reserved opcodes. -/
def uncanonical : List String :=
  shortForms ++ ["WIDE", "LDC_W", "LDC2_W", "GOTO_W", "JSR_W", "INVOKEDYNAMIC", "BREAKPOINT", "IMPDEP1", "IMPDEP2"]

end Opcode

/-- No kind of node has the mnemonic of an opcode that is not canonical. -/
theorem NodeKind.canonical (kind : NodeKind) : ∀ name ∈ kind.mnemonics, name ∉ Opcode.uncanonical := by
  cases kind <;> decide +kernel

/-- The kind of a node and the mnemonic that it carries. -/
def Node.carried? : Node → Option (NodeKind × String)
  | plain mnemonic => some (.plain, mnemonic)
  | int mnemonic _ => some (.int, mnemonic)
  | var mnemonic _ => some (.var, mnemonic)
  | type mnemonic _ => some (.type, mnemonic)
  | field mnemonic _ _ _ => some (.field, mnemonic)
  | method mnemonic _ _ _ _ => some (.method, mnemonic)
  | jump mnemonic _ => some (.jump, mnemonic)
  | _ => none

/-! ## Opcodes of instructions -/

/-- The kind of node that an instruction has, and the opcode whose mnemonic the node carries. -/
def Instruction.carried? : Instruction → Option (NodeKind × UInt8)
  | plain opcode => some (.plain, opcode)
  | int opcode _ => some (.int, opcode)
  | var opcode _ => some (.var, opcode)
  | type opcode _ => some (.type, opcode)
  | field opcode _ _ _ => some (.field, opcode)
  | method opcode _ _ _ _ => some (.method, opcode)
  | jump opcode _ => some (.jump, opcode)
  | _ => none

/-- What the format of an opcode tells of the instruction. -/
def OperandFormat.carried? (opcode : UInt8) : OperandFormat → Option (NodeKind × UInt8)
  | plain => some (.plain, opcode)
  | byte | short | unsignedByte => some (.int, opcode)
  | slot => some (.var, opcode)
  | impliedSlot canonical _ => some (.var, canonical)
  | branch => some (.jump, opcode)
  | wideBranch canonical => some (.jump, canonical)
  | field => some (.field, opcode)
  | method | interfaceMethod => some (.method, opcode)
  | type => some (.type, opcode)
  | _ => none

namespace Opcode

/-- An opcode leads by its format to one of the right kind. -/
theorem mem_opcodes_of_format : ∀ opcode, ∀ carried ∈ (format opcode).carried? opcode, carried.2.toNat ∈ carried.1.opcodes :=
  forall_of_fin (by decide +kernel)

theorem mem_opcodes_of_namesVariable : ∀ opcode, namesVariable opcode = true → opcode.toNat ∈ NodeKind.var.opcodes :=
  forall_of_fin (by decide +kernel)

theorem format_of_reserved : ∀ opcode, 0xca ≤ opcode → format opcode = .reserved :=
  forall_of_fin (by decide +kernel)

end Opcode

/-- The opcode of the instruction is one of the kind of its node. -/
def Instruction.Canonical (i : Instruction) : Prop :=
  ∀ kind opcode, i.carried? = some (kind, opcode) → opcode.toNat ∈ kind.opcodes

/-- The format of an opcode tells the kind of the instruction, unless the form is wide. -/
theorem Operands.gives_carried (pool : Pool) (length base : Nat) (opcode : UInt8) :
    Gives (instruction pool length base opcode : Operands Instruction) fun i =>
      i.carried? = (Opcode.format opcode).carried? opcode ∨
        ∃ other, Opcode.namesVariable other = true ∧ i.carried? = some (.var, other) := by
  unfold instruction
  cases Opcode.format opcode with
  | plain | impliedSlot => exact .pure (.inl rfl)
  | byte | short | unsignedByte | slot | wideBranch => exact .after fun _ => .pure (.inl rfl)
  | constant | wideConstant | increment | branch | field | method | type => exact .after fun _ => .after fun _ => .pure (.inl rfl)
  | interfaceMethod | multiArray => exact .after fun _ => .after fun _ => .after fun _ => .pure (.inl rfl)
  | tableSwitch =>
    exact .after fun _ => .after fun _ => .after fun _ => .after fun _ => .after fun _ =>
      .ite (.error _) (.after fun _ => .pure (.inl rfl))
  | lookupSwitch =>
    exact .after fun _ => .after fun _ => .after fun _ => .ite (.error _) (.after fun _ => .pure (.inl rfl))
  | wide =>
    -- the opcode of a wide form is a byte of its operands, so the format does not tell it
    refine .after fun other => .after fun slot => .ite (.after fun _ => .pure (.inl rfl)) ?_
    split
    · rename_i named
      exact .pure (.inr ⟨other, named, rfl⟩)
    · exact .error _
  | dynamic | reserved => exact .error _

/-- All instructions that are decoded are canonical. -/
theorem Instruction.Linear.canonical {pool : Pool} {code : Bytes} {offset : Nat} {placed : List (Nat × Instruction)}
    (linear : Linear pool code offset placed) : ∀ entry ∈ placed, entry.2.Canonical := by
  refine linear.forall_of_gives fun offset opcode cursor i after read kind named carried => ?_
  rcases Operands.gives_carried pool code.length offset opcode cursor i after read with same | ⟨other, onVariable, same⟩
  · exact Opcode.mem_opcodes_of_format opcode (kind, named) (same ▸ carried)
  · rw [carried] at same
    cases same
    exact Opcode.mem_opcodes_of_namesVariable named onVariable

/-! ## Nodes -/

/-- A node carries the mnemonic of the opcode of its instruction. -/
theorem Instruction.Translated.carried {naming : Naming} {i : Instruction} {names : List String} {node : Node}
    (made : i.Translated naming names node) {kind : NodeKind} {mnemonic : String}
    (carried : node.carried? = some (kind, mnemonic)) :
    ∃ opcode, i.carried? = some (kind, opcode) ∧ Opcode.mnemonic? opcode = some mnemonic := by
  cases made with
  | plain spelled | int spelled | var spelled | type spelled | field spelled | method spelled | jump spelled =>
    cases carried
    exact ⟨_, rfl, spelled⟩
  | _ => cases carried

/-- The event is no instruction, or a canonical one. -/
def Event.Canonical : Event → Prop
  | instruction i => i.Canonical
  | _ => True

/-- Every instruction of a method is in canonical form. -/
theorem Walk.canonical_ofMethod (pool : Pool) (method : MethodInfo) :
    ∀ event ∈ (ofMethod pool method).events, event.Canonical := by
  refine forall_ofMethod (fun event mark => ?_) (fun _ _ => trivial) fun code given placed linear => linear.canonical
  cases event with
  | instruction => cases mark
  | _ => trivial

/-- A canonical event becomes a node with a mnemonic of the kind of the node, if it has one. -/
theorem Event.mnemonic_of_becomes {naming : Naming} {event : Event} {node : Node} (canonical : event.Canonical)
    (h : event.Becomes naming node) {kind : NodeKind} {mnemonic : String} (carried : node.carried? = some (kind, mnemonic)) :
    mnemonic ∈ kind.mnemonics := by
  obtain ⟨names, made⟩ := h.translated
  cases made with
  | instruction made =>
    obtain ⟨opcode, same, named⟩ := made.carried carried
    obtain ⟨name, listed, found⟩ := NodeKind.exists_mnemonic (canonical kind opcode same)
    rw [named] at found
    cases found
    exact listed
  | _ => cases carried

/-! ## Instructions without a mnemonic -/

/-- The error is that an opcode has no mnemonic. -/
def Error.isOfMnemonic : Error → Bool
  | unsupportedConstruct (.opcode _) => true
  | _ => false

/-- Neither errors of reading nor errors of operands are about mnemonics. -/
theorem Error.common_not_isOfMnemonic : Error.Common fun e => !e.isOfMnemonic := by
  intro e known
  cases e with
  | unsupportedConstruct construct =>
    cases construct with
    | opcode => rcases known with known | known <;> cases known
    | _ => rfl
  | _ => rfl

/-- A canonical instruction has a mnemonic. -/
theorem Instruction.Canonical.reports {i : Instruction} (canonical : i.Canonical) {opcode : UInt8}
    (carried : i.opcode? = some opcode) (kind : Error → Bool) : (Opcode.mnemonic opcode).Reports kind := by
  have named : ∃ name, Opcode.mnemonic? opcode = some name := by
    cases i with
    | plain | int | var | type | field | method | jump =>
      cases carried
      obtain ⟨name, -, found⟩ := NodeKind.exists_mnemonic (canonical _ opcode rfl)
      exact ⟨name, found⟩
    | _ => cases carried
  obtain ⟨name, found⟩ := named
  unfold Opcode.mnemonic
  rw [found]
  exact .pure _

/-- No method that is walked over has an instruction without a mnemonic. -/
theorem Body.reports_not_isOfMnemonic (naming : Naming) (pool : Pool) (method : MethodInfo) :
    ∀ e, (ofWalk naming (Walk.ofMethod pool method)).failure = some e → (!e.isOfMnemonic) = true := by
  refine reports_ofWalk Error.common_not_isOfMnemonic (method.admits_events (fun row _ => ?_) ?_)
  · exact AccessSite.reports_decompose (fun _ _ _ => rfl) _ _
  · intro code _ placed linear entry mem opcode carried
    exact (linear.canonical entry mem).reports carried _

/-! ## Instructions without a node -/

/-- Dynamic calls and reserved opcodes are not decoded. -/
theorem Instruction.decode_of_unsupported {pool : Pool} {length offset : Nat} {opcode : UInt8} {operands : Bytes}
    (unsupported : opcode = 0xba ∨ 0xca ≤ opcode) : ∃ e, decode pool length offset opcode operands = .error e := by
  have format : Opcode.format opcode = .dynamic ∨ Opcode.format opcode = .reserved := by
    rcases unsupported with rfl | reserved
    · exact .inl (by decide)
    · exact .inr (Opcode.format_of_reserved opcode reserved)
  unfold decode Operands.instruction
  rcases format with format | format
  · rw [format]
    exact ⟨_, rfl⟩
  · rw [format]
    exact ⟨_, rfl⟩

/-- Code in which such an opcode starts an instruction is not walked over to its end. -/
theorem Walk.failure_of_unsupported {pool : Pool} {method : MethodInfo} {code : CodeInfo} (given : method.code = some code)
    {offset : Nat} {opcode : UInt8} (start : Instruction.Starts code.bytes offset) (here : code.bytes[offset]? = some opcode)
    (unsupported : opcode = 0xba ∨ 0xca ≤ opcode) : (ofMethod pool method).failure ≠ none := by
  intro walked
  unfold ofMethod at walked
  simp only [given, failure_after] at walked
  obtain ⟨placed, linear, -⟩ := events_of_ofCode walked
  obtain ⟨rest, later⟩ := Instruction.linear_of_starts linear start
  obtain ⟨inside, found⟩ := List.getElem?_eq_some_iff.mp here
  have split : code.bytes.drop offset = opcode :: code.bytes.drop (offset + 1) := by
    rw [List.drop_eq_getElem_cons inside, found]
  obtain ⟨instruction, after, -, decoded, -⟩ := Instruction.decode_of_linear later split
  obtain ⟨e, failed⟩ := Instruction.decode_of_unsupported unsupported
  rw [decoded] at failed
  cases failed

namespace ClassFile

/-- Every mnemonic in a unit is one of the kind of its node. -/
theorem mnemonic_of_translate {naming : Naming} {file : ClassFile} {unit : ClassUnit}
    (translated : file.translate naming = .ok unit) {method : MethodUnit} (mem : method ∈ unit.methods) {nodes : List Node}
    (given : method.implementation = .nodes nodes) {node : Node} (among : node ∈ nodes) {kind : NodeKind} {mnemonic : String}
    (carried : node.carried? = some (kind, mnemonic)) : mnemonic ∈ kind.mnemonics := by
  obtain ⟨info, names, yields⟩ := exists_of_mem_of_forall₂ (methods_of_translate translated) mem
  obtain ⟨-, same⟩ | ⟨-, _, same, -, becomes⟩ := MethodInfo.implementation_cases yields
  · rw [given] at same
    cases same
  rw [given] at same
  cases same
  have both := (List.forall₂_and_left _ _).mpr ⟨Walk.canonical_ofMethod file.pool info, becomes⟩
  obtain ⟨event, canonical, becomes⟩ := exists_of_mem_of_forall₂ both among
  exact Event.mnemonic_of_becomes canonical becomes carried

/-- All nodes of a unit carry canonical mnemonics of their kind, and no method that is walked over has an instruction without a
mnemonic. A class has no unit if a dynamic call or a reserved opcode starts an instruction of one of its methods. Native methods
are excepted: their code does not count. -/
theorem opcodes_canonical (naming : Naming) (file : ClassFile) :
    (∀ unit, file.translate naming = .ok unit → ∀ method ∈ unit.methods, ∀ nodes, method.implementation = .nodes nodes →
      ∀ node ∈ nodes, ∀ kind mnemonic, node.carried? = some (kind, mnemonic) →
        mnemonic ∈ kind.mnemonics ∧ mnemonic ∉ Opcode.uncanonical) ∧
    (∀ pool method opcode,
      (Body.ofWalk naming (Walk.ofMethod pool method)).failure ≠ some (.unsupportedConstruct (.opcode opcode))) ∧
    (∀ method ∈ file.methods, isNativeWord method.flags.toNat = false → ∀ code, method.code = some code →
      ∀ offset opcode, Instruction.Starts code.bytes offset → code.bytes[offset]? = some opcode →
        opcode = 0xba ∨ 0xca ≤ opcode → ∃ e, file.translate naming = .error e) ∧
    ∀ (pool : Pool) (runtimeName : String) (method : MethodInfo), isNativeWord method.flags.toNat = true → ∀ code,
      MethodInfo.translate naming pool runtimeName { method with code := code } =
        method.translate naming pool runtimeName := by
  refine ⟨?_, ?_, ?_, ?_⟩
  · intro unit translated method mem nodes given node among kind mnemonic carried
    have listed := mnemonic_of_translate translated mem given among carried
    exact ⟨listed, kind.canonical mnemonic listed⟩
  · intro pool method opcode failed
    cases Body.reports_not_isOfMnemonic naming pool method _ failed
  · intro method mem own code given offset opcode start here unsupported
    cases translated : file.translate naming with
    | error e => exact ⟨e, rfl⟩
    | ok unit =>
      obtain ⟨methodUnit, names, yields⟩ := exists_of_mem_of_forall₂ (methods_of_translate translated).flip mem
      obtain ⟨native, -⟩ | ⟨-, _, -, walked, -⟩ := MethodInfo.implementation_cases yields
      · rw [own] at native
        cases native
      · exact absurd walked (Walk.failure_of_unsupported given start here unsupported)
  · intro pool runtimeName method native code
    unfold MethodInfo.translate MethodInfo.implementation
    simp only [native, if_true]

end ClassFile

/-! ## Long forms and a reserved opcode -/

namespace LongForms

/-- Loads of local variables in the short and in the wide form, and a long jump. -/
def code : CodeInfo := ⟨[0x1b, 0xc4, 0x17, 1, 0, 0xc8, 0, 0, 0, 5, 0xb1], [], []⟩

/-- A switch without entries, whose bytes look like other instructions, and a dynamic call behind it. -/
def dynamicCode : CodeInfo := ⟨[0xab, 0, 0, 0, 0, 0, 0, 0xc, 0, 0, 0, 0, 0xba, 0, 1, 0, 0], [], []⟩

/-- One method has nodes; the code of the other does not count, since it is native. -/
def file : ClassFile :=
  ⟨⟨#[]⟩, "A", none, [], [], [⟨8, "f", "(IF)V", [], [], some code⟩, ⟨0x108, "g", "()V", [], [], some dynamicCode⟩]⟩

def nodes : List Node :=
  [.var "ILOAD" 1, .var "FLOAD" 256, .jump "GOTO" ⟨10⟩, .label ⟨10⟩, .plain "RETURN", .finish]

def unit : ClassUnit :=
  ⟨"A", none, [], [], [⟨"f", "(IF)V", ⟨.void, [.int, .float]⟩, [], .nodes nodes, [.isStatic]⟩,
    ⟨"g", "()V", ⟨.void, []⟩, [], .native "A.native.js", [.isStatic, .isNative]⟩], []⟩

/-- The class with the same code in a method that is not native. -/
def dynamicFile : ClassFile := ⟨⟨#[]⟩, "A", none, [], [], [⟨8, "g", "()V", [], [], some dynamicCode⟩]⟩

theorem opcodes_longForms : file.translate ⟨"rt/"⟩ = .ok unit ∧
    (∀ node ∈ nodes, ∀ kind mnemonic, node.carried? = some (kind, mnemonic) →
      mnemonic ∈ kind.mnemonics ∧ mnemonic ∉ Opcode.uncanonical) ∧
    Instruction.Starts dynamicCode.bytes 12 ∧ ∃ e, dynamicFile.translate ⟨"rt/"⟩ = .error e := by
  have translated : file.translate ⟨"rt/"⟩ = .ok unit := by decide +kernel
  have start : Instruction.Starts dynamicCode.bytes 12 := Instruction.Starts.first.next rfl
  refine ⟨translated, ?_, start, ?_⟩
  · exact (ClassFile.opcodes_canonical ⟨"rt/"⟩ file).1 unit translated _ List.mem_cons_self nodes rfl
  · exact (ClassFile.opcodes_canonical ⟨"rt/"⟩ dynamicFile).2.2.1 _ List.mem_cons_self (by decide) dynamicCode rfl 12 0xba start rfl
      (.inl rfl)

end LongForms

end JvmUnits
