import JvmUnits.ClassFile.Basic
import JvmUnits.Proofs.Encoding
import JvmUnits.Proofs.Texts

/-!
# Writing class files

A class file is written from a `ClassSource`: the class with all its names, and what the format asks for besides. Each use of
a name becomes an entry of the constant pool, so a part of the file is written by an `Assembly`, which adds the entries that
it needs and gives the bytes. The pool stands in the file before the parts that use it (`ClassSource.bytes`).

`Assembly.Writes` says what is known of the bytes of a part: entries are only ever added, so what holds in each pool that has
the entries of the part holds in the pool of the whole file (`Pool.holds_ofEntries`).
-/

namespace JvmUnits

/-! ## Numbers and texts -/

/-- A word of eight bytes, the most significant first. -/
def quadBytes (word : UInt64) : Bytes :=
  doubleBytes (UInt32.ofNat (word.toNat / 4294967296)) ++ doubleBytes (UInt32.ofNat word.toNat)

/-- Words of two bytes, one after the other. -/
def words (numbers : List UInt16) : Bytes := numbers.flatMap wordBytes

/-- How texts are written: as the format has it, or as UTF-8, which readers take as well. -/
inductive TextForm where
  | modified | plain
  deriving DecidableEq, Repr

namespace TextForm

/-- The bytes of a text. -/
def encode : TextForm → String → Bytes
  | modified, text => ModifiedUtf8.encode text
  | plain, text => Utf8.encode text

/-- In either form a text is read back. -/
theorem decode_encode (form : TextForm) (text : String) : ModifiedUtf8.decode (form.encode text) = text := by
  cases form with
  | modified => exact ModifiedUtf8.decode_encode text
  | plain => exact ModifiedUtf8.decode_utf8 text

end TextForm

/-! ## Entries of the constant pool -/

namespace Constant

/-- The bytes of an entry: its tag and its parts. A slot that holds nothing is not written. -/
def bytes (form : TextForm) : Constant → Bytes
  | unused => []
  | utf8 text => 1 :: (wordBytes (UInt16.ofNat (form.encode text).length) ++ form.encode text)
  | integer value => 3 :: doubleBytes (Int32.ofInt value).toUInt32
  | float word => 4 :: doubleBytes word
  | long value => 5 :: quadBytes (Int64.ofInt value).toUInt64
  | double word => 6 :: quadBytes word
  | classRef nameIndex => 7 :: wordBytes nameIndex
  | string textIndex => 8 :: wordBytes textIndex
  | fieldRef classIndex nameAndTypeIndex => 9 :: words [classIndex, nameAndTypeIndex]
  | methodRef classIndex nameAndTypeIndex => 10 :: words [classIndex, nameAndTypeIndex]
  | interfaceMethodRef classIndex nameAndTypeIndex => 11 :: words [classIndex, nameAndTypeIndex]
  | nameAndType nameIndex descriptorIndex => 12 :: words [nameIndex, descriptorIndex]
  | methodHandle kind referenceIndex => 15 :: kind :: wordBytes referenceIndex
  | methodType descriptorIndex => 16 :: wordBytes descriptorIndex
  | dynamic bootstrapIndex nameAndTypeIndex => 17 :: words [bootstrapIndex, nameAndTypeIndex]
  | invokeDynamic bootstrapIndex nameAndTypeIndex => 18 :: words [bootstrapIndex, nameAndTypeIndex]
  | moduleRef nameIndex => 19 :: wordBytes nameIndex
  | packageRef nameIndex => 20 :: wordBytes nameIndex

/-- The entry can be written: a text has a length of two bytes, and a number is in the range of its type. -/
def isWritable (form : TextForm) : Constant → Bool
  | unused => false
  | utf8 text => (form.encode text).length < 65536
  | integer value => -2147483648 ≤ value && value < 2147483648
  | long value => -9223372036854775808 ≤ value && value < 9223372036854775808
  | _ => true

/-- The slots that an entry takes. -/
def slots (entry : Constant) : List Constant := if entry.isWide then [entry, unused] else [entry]

theorem slots_head (entry : Constant) : ∃ behind, entry.slots = entry :: behind := by
  unfold slots
  split
  · exact ⟨_, rfl⟩
  · exact ⟨_, rfl⟩

end Constant

namespace Pool

/-- The pool with the given entries, in order. -/
def ofEntries (entries : List Constant) : Pool := ⟨(.unused :: entries.flatMap Constant.slots).toArray⟩

/-- The index of the entry that comes after the given ones. -/
def nextIndex (entries : List Constant) : UInt16 := UInt16.ofNat ((entries.flatMap Constant.slots).length + 1)

/-- The bytes of the pool: the number of its slots, with slot zero, and the entries. -/
def bytes (form : TextForm) (entries : List Constant) : Bytes :=
  wordBytes (nextIndex entries) ++ entries.flatMap (Constant.bytes form)

end Pool

/-! ## Parts of a class file -/

/-- Writes a part of a class file. The state is the list of the entries of the constant pool so far. -/
abbrev Assembly := StateM (List Constant)

namespace Assembly

variable {α : Type}

/-- Adds an entry to the pool and gives its index. -/
def add (entry : Constant) : Assembly UInt16 := fun entries => (Pool.nextIndex entries, entries ++ [entry])

/-- Adds a text. -/
def text (value : String) : Assembly UInt16 := add (.utf8 value)

/-- Adds a class: its name, then the class. -/
def className (name : String) : Assembly UInt16 := do
  let nameIndex ← text name
  add (.classRef nameIndex)

/-- Adds what may be absent; index zero stands for nothing. -/
def optional (write : α → Assembly UInt16) : Option α → Assembly UInt16
  | none => pure 0
  | some value => write value

/-- Writes items one after the other. -/
def each (write : α → Assembly Bytes) : List α → Assembly Bytes
  | [] => pure []
  | item :: items => do
    let first ← write item
    let rest ← each write items
    pure (first ++ rest)

/-- Writes items after a count of two bytes. -/
def counted (write : α → Assembly Bytes) (items : List α) : Assembly Bytes := do
  let bytes ← each write items
  pure (wordBytes (UInt16.ofNat items.length) ++ bytes)

/-- Writes items after a count of one byte. -/
def countedShort (write : α → Assembly Bytes) (items : List α) : Assembly Bytes := do
  let bytes ← each write items
  pure (UInt8.ofNat items.length :: bytes)

/-- Writes an attribute: its name, the length of its body and the body. -/
def named (name : String) (body : Assembly Bytes) : Assembly Bytes := do
  let nameIndex ← text name
  let bytes ← body
  pure (wordBytes nameIndex ++ (doubleBytes (UInt32.ofNat bytes.length) ++ bytes))

end Assembly

open Assembly

/-- Writes a row of the exception table. -/
def Handler.assemble (handler : Handler) : Assembly Bytes := do
  let catchIndex ← optional className handler.catchType
  pure (words [handler.start, handler.stop, handler.handler, catchIndex])

/-- Writes a row of the table of local variables. -/
def LocalVariable.assemble (slot : LocalVariable) : Assembly Bytes := do
  let nameIndex ← text slot.name
  let descriptorIndex ← text slot.descriptor
  pure (words [slot.start, slot.length, nameIndex, descriptorIndex, slot.slot])

/-- Writes a row of the table of parameters. -/
def Parameter.assemble (parameter : Parameter) : Assembly Bytes := do
  let nameIndex ← optional text parameter.name
  pure (words [nameIndex, parameter.flags])

/-- A table that is only written when it has rows. -/
def unlessEmpty {α β : Type} (table : List α → β) : List α → List β
  | [] => []
  | row :: rows => [table (row :: rows)]

theorem mem_unlessEmpty {α β : Type} {table : List α → β} {rows : List α} {part : β}
    (among : part ∈ unlessEmpty table rows) : part = table rows := by
  cases rows with
  | nil => cases among
  | cons row rows => exact List.mem_singleton.mp among

theorem length_unlessEmpty {α β : Type} (table : List α → β) (rows : List α) : (unlessEmpty table rows).length ≤ 1 := by
  cases rows with
  | nil => exact Nat.zero_le 1
  | cons row rows => exact Nat.le_refl 1

/-- An attribute of the code of a method. -/
inductive CodeTable where
  | localVariables (rows : List LocalVariable)
  | lineNumbers
  deriving DecidableEq, Repr

/-- Writes an attribute of the code of a method. The table of line numbers has a single row, for the start of the code. -/
def CodeTable.assemble : CodeTable → Assembly Bytes
  | localVariables rows => named "LocalVariableTable" (counted LocalVariable.assemble rows)
  | lineNumbers => named "LineNumberTable" (pure (words [1, 0, 1]))

/-- The attributes of the code of a method. -/
def CodeInfo.tables (code : CodeInfo) : List CodeTable :=
  unlessEmpty .localVariables code.locals ++ [.lineNumbers]

/-- An attribute with its names resolved. -/
inductive AttributeInfo where
  | constantValue (index : UInt16)
  | code (maxStack maxLocals : UInt16) (info : CodeInfo)
  | exceptions (names : List String)
  | parameters (rows : List Parameter)
  | sourceFile (name : String)
  deriving DecidableEq, Repr

/-- Writes the body of a code attribute. -/
def CodeInfo.assemble (maxStack maxLocals : UInt16) (code : CodeInfo) : Assembly Bytes := do
  let handlers ← counted Handler.assemble code.handlers
  let tables ← counted CodeTable.assemble code.tables
  pure (words [maxStack, maxLocals] ++
    (doubleBytes (UInt32.ofNat code.bytes.length) ++ (code.bytes ++ (handlers ++ tables))))

/-- Writes an attribute. -/
def AttributeInfo.assemble : AttributeInfo → Assembly Bytes
  | constantValue index => named "ConstantValue" (pure (wordBytes index))
  | code maxStack maxLocals info => named "Code" (info.assemble maxStack maxLocals)
  | exceptions names => named "Exceptions" (counted (fun name => wordBytes <$> className name) names)
  | parameters rows => named "MethodParameters" (countedShort Parameter.assemble rows)
  | sourceFile name => named "SourceFile" (wordBytes <$> text name)

/-- Writes a field or a method. -/
def assembleMember (flags : UInt16) (name descriptor : String) (attributes : List AttributeInfo) : Assembly Bytes := do
  let nameIndex ← text name
  let descriptorIndex ← text descriptor
  let attributes ← counted AttributeInfo.assemble attributes
  pure (words [flags, nameIndex, descriptorIndex] ++ attributes)

/-- The attributes of a field. -/
def FieldInfo.attributes (field : FieldInfo) : List AttributeInfo := field.constantIndex.toList.map .constantValue

/-- Writes a field. -/
def FieldInfo.assemble (field : FieldInfo) : Assembly Bytes :=
  assembleMember field.flags field.name field.descriptor field.attributes

/-- What a method is written from: the sizes of the stack and of the frame count only where the method has code. -/
structure MethodSource where
  info : MethodInfo
  maxStack : UInt16
  maxLocals : UInt16
  deriving DecidableEq, Repr

namespace MethodSource

/-- The attributes of a method. -/
def attributes (method : MethodSource) : List AttributeInfo :=
  method.info.code.toList.map (.code method.maxStack method.maxLocals) ++
    (unlessEmpty .exceptions method.info.exceptions ++ unlessEmpty .parameters method.info.parameters)

/-- Writes a method. -/
def assemble (method : MethodSource) : Assembly Bytes :=
  assembleMember method.info.flags method.info.name method.info.descriptor method.attributes

end MethodSource

/-- What is declared before the members: entries of the pool for the code to use, and interfaces. -/
inductive Declaration where
  | entry (constant : Constant)
  | interface (name : String)
  deriving DecidableEq, Repr

namespace Declaration

/-- Adds the entries of a declaration; an interface is written by its index. -/
def assemble : Declaration → Assembly Bytes
  | entry constant => do
    let _ ← add constant
    pure []
  | interface name => wordBytes <$> className name

/-- The name of an interface. -/
def interface? : Declaration → Option String
  | entry _ => none
  | interface name => some name

end Declaration

/-- What a class file is written from. -/
structure ClassSource where
  minorVersion : UInt16
  majorVersion : UInt16
  flags : UInt16
  name : String
  superName : Option String
  declarations : List Declaration
  fields : List FieldInfo
  methods : List MethodSource
  sourceFile : Option String
  deriving DecidableEq, Repr

namespace ClassSource

/-- The interfaces of the class. -/
def interfaces (source : ClassSource) : List String := source.declarations.filterMap Declaration.interface?

/-- Writes all that comes after the constant pool. -/
def assemble (source : ClassSource) : Assembly Bytes := do
  let classIndex ← className source.name
  let superIndex ← optional className source.superName
  let interfaces ← each Declaration.assemble source.declarations
  let fields ← counted FieldInfo.assemble source.fields
  let methods ← counted MethodSource.assemble source.methods
  let attributes ← counted AttributeInfo.assemble (source.sourceFile.toList.map .sourceFile)
  pure (words [source.flags, classIndex, superIndex] ++
    (wordBytes (UInt16.ofNat source.interfaces.length) ++ interfaces ++ (fields ++ (methods ++ attributes))))

/-- The entries of the constant pool. -/
def entries (source : ClassSource) : List Constant := (source.assemble []).2

/-- The bytes of the class file. -/
def bytes (source : ClassSource) (form : TextForm) : Bytes :=
  doubleBytes 0xCAFEBABE ++
    (words [source.minorVersion, source.majorVersion] ++ (Pool.bytes form source.entries ++ (source.assemble []).1))

/-- The class file that the source describes. -/
def classFile (source : ClassSource) : ClassFile where
  pool := Pool.ofEntries source.entries
  name := source.name
  superName := source.superName
  interfaces := source.interfaces
  fields := source.fields
  methods := source.methods.map MethodSource.info

end ClassSource

/-! ## What fits into a class file -/

/-- The word has no bits but those of flags of the site. -/
def AccessSite.Knows (site : AccessSite) (word : UInt16) : Prop :=
  ∀ position < 16, word.toNat.testBit position = true → position ∈ site.table.map AccessFlag.position

instance (site : AccessSite) (word : UInt16) : Decidable (site.Knows word) :=
  inferInstanceAs (Decidable (∀ position < 16, _ → _))

/-- The lengths and counts of a code are in the range of their fields. -/
structure CodeInfo.Fits (code : CodeInfo) : Prop where
  bytes : code.bytes.length < 4294967296
  handlers : code.handlers.length < 65536
  locals : code.locals.length < 65536

instance (code : CodeInfo) : Decidable code.Fits :=
  decidable_of_iff (code.bytes.length < 4294967296 ∧ code.handlers.length < 65536 ∧ code.locals.length < 65536)
    ⟨fun fits => ⟨fits.1, fits.2.1, fits.2.2⟩, fun fits => ⟨fits.bytes, fits.handlers, fits.locals⟩⟩

/-- The count of an attribute is in the range of its field, and its flags are known. -/
def AttributeInfo.Fits : AttributeInfo → Prop
  | code _ _ info => info.Fits
  | exceptions names => names.length < 65536
  | parameters rows => rows.length < 256 ∧ ∀ row ∈ rows, AccessSite.parameter.Knows row.flags
  | _ => True

instance : (info : AttributeInfo) → Decidable info.Fits
  | .code _ _ info => inferInstanceAs (Decidable info.Fits)
  | .exceptions names => inferInstanceAs (Decidable (names.length < 65536))
  | .parameters rows =>
    inferInstanceAs (Decidable (rows.length < 256 ∧ ∀ row ∈ rows, AccessSite.parameter.Knows row.flags))
  | .constantValue _ => .isTrue trivial
  | .sourceFile _ => .isTrue trivial

/-- A class file can be written: the pool has room for the entries, each of them can be written, the counts are in the range of
their fields, and flag words have no unknown bits. -/
structure ClassSource.Fits (source : ClassSource) (form : TextForm) : Prop where
  room : (source.entries.flatMap Constant.slots).length < 65535
  writable : ∀ entry ∈ source.entries, entry.isWritable form = true
  interfaces : source.interfaces.length < 65536
  fields : source.fields.length < 65536
  fieldFlags : ∀ field ∈ source.fields, AccessSite.field.Knows field.flags
  methods : source.methods.length < 65536
  methodFlags : ∀ method ∈ source.methods, AccessSite.method.Knows method.info.flags
  attributes : ∀ method ∈ source.methods, ∀ info ∈ method.attributes, info.Fits

/-! ## What is known of a part -/

namespace Pool

/-- The pool has the entries at the indices at which they were added. -/
def Holds (pool : Pool) (entries : List Constant) : Prop :=
  ∀ before entry, before ++ [entry] <+: entries → pool.get (nextIndex before) = .ok entry

theorem Holds.mono {pool : Pool} {fewer entries : List Constant} (holds : pool.Holds entries) (some : fewer <+: entries) :
    pool.Holds fewer :=
  fun before entry among => holds before entry (among.trans some)

/-- An entry is found at its slot unless a wide one takes the slot in front. -/
theorem get_of_slot {front behind : List Constant} {last entry : Constant} {index : UInt16}
    (place : index.toNat = front.length + 1) (narrow : last.isWide = false) :
    get ⟨(front ++ last :: entry :: behind).toArray⟩ index = .ok entry := by
  simp [get, isUnusable, place, narrow]

/-- The slot in front of the next entry is never that of a wide one. -/
theorem exists_last (entries : List Constant) :
    ∃ front last, Constant.unused :: entries.flatMap Constant.slots = front ++ [last] ∧ last.isWide = false := by
  rcases List.eq_nil_or_concat entries with rfl | ⟨before, entry, rfl⟩
  · exact ⟨[], .unused, rfl, rfl⟩
  · by_cases wide : entry.isWide = true
    · exact ⟨.unused :: before.flatMap Constant.slots ++ [entry], .unused, by simp [Constant.slots, wide], rfl⟩
    · exact ⟨.unused :: before.flatMap Constant.slots, entry, by simp [Constant.slots, wide], eq_false_of_ne_true wide⟩

theorem toNat_nextIndex {entries : List Constant} (room : (entries.flatMap Constant.slots).length < 65535) :
    (nextIndex entries).toNat = (entries.flatMap Constant.slots).length + 1 := by
  rw [nextIndex, UInt16.toNat_ofNat']
  omega

/-- The pool of a class file has the entries at their indices. -/
theorem holds_ofEntries {entries : List Constant} (room : (entries.flatMap Constant.slots).length < 65535) :
    (ofEntries entries).Holds entries := by
  rintro before entry ⟨after, rfl⟩
  obtain ⟨front, last, slots, narrow⟩ := exists_last before
  obtain ⟨behind, first⟩ := entry.slots_head
  have length : (before.flatMap Constant.slots).length = front.length := by
    have both := congrArg List.length slots
    simp only [List.length_cons, List.length_append, List.length_nil] at both
    omega
  have place : (nextIndex before).toNat = front.length + 1 := by
    simp only [List.append_assoc, List.flatMap_append, List.flatMap_cons, first, List.length_append,
      List.length_cons] at room
    rw [toNat_nextIndex (by omega), length]
  have all : .unused :: (before ++ [entry] ++ after).flatMap Constant.slots =
      front ++ last :: entry :: (behind ++ after.flatMap Constant.slots) := by
    rw [List.append_assoc, List.flatMap_append, ← List.cons_append, slots]
    simp [first]
  rw [ofEntries, all]
  exact get_of_slot place narrow

variable {pool : Pool} {index : UInt16} {name : String}

theorem ne_zero_of_get {entry : Constant} (found : pool.get index = .ok entry) : index ≠ 0 := by
  rintro rfl
  cases found

theorem entry_of_get {entry : Constant} (found : pool.get index = .ok entry) : pool.entries[index.toNat]? = some entry := by
  unfold get at found
  split at found
  · cases found
  · split at found
    · rename_i _ _ held
      cases found
      exact held
    · cases found

theorem text_of_get (found : pool.get index = .ok (.utf8 name)) : pool.text index = .ok name := by
  rw [text, found]
  rfl

theorem className_of_get {nameIndex : UInt16} (named : pool.get nameIndex = .ok (.utf8 name))
    (found : pool.get index = .ok (.classRef nameIndex)) : pool.className index = .ok name := by
  rw [className, found]
  exact text_of_get named

end Pool

namespace Assembly

variable {α β : Type}

/-- Whatever was added before, the part only adds entries, and in every pool that has them what it gives has the given
meaning. -/
def Writes (part : Assembly α) (means : Pool → α → Prop) : Prop :=
  ∀ before, before <+: (part before).2 ∧ ∀ pool : Pool, pool.Holds (part before).2 → means pool (part before).1

theorem Writes.pure {value : α} {means : Pool → α → Prop} (known : ∀ pool, means pool value) :
    Writes (pure value) means :=
  fun before => ⟨List.prefix_refl before, fun pool _ => known pool⟩

/-- Of a part that uses another, one may assume what is known of the other. -/
theorem Writes.bind {part : Assembly α} {next : α → Assembly β} {first : Pool → α → Prop} {means : Pool → β → Prop}
    (one : Writes part first) (two : ∀ a, Writes (next a) fun pool b => first pool a → means pool b) :
    Writes (part >>= next) means := by
  intro before
  obtain ⟨grows, known⟩ := one before
  obtain ⟨more, found⟩ := two (part before).1 (part before).2
  exact ⟨grows.trans more, fun pool holds => found pool holds (known pool (holds.mono more))⟩

theorem Writes.mono {part : Assembly α} {first means : Pool → α → Prop} (known : Writes part first)
    (weaker : ∀ pool a, first pool a → means pool a) : Writes part means :=
  fun before => ⟨(known before).1, fun pool holds => weaker pool _ ((known before).2 pool holds)⟩

theorem Writes.map {part : Assembly α} {first : Pool → α → Prop} {means : Pool → β → Prop} {f : α → β}
    (known : Writes part first) (image : ∀ pool a, first pool a → means pool (f a)) : Writes (f <$> part) means :=
  known.bind fun a => .pure fun pool => image pool a

theorem writes_add (entry : Constant) : Writes (add entry) fun pool index => pool.get index = .ok entry :=
  fun before => ⟨List.prefix_append before [entry], fun _ holds => holds before entry (List.prefix_refl _)⟩

theorem writes_text (value : String) : Writes (text value) fun pool index => pool.get index = .ok (.utf8 value) :=
  writes_add (.utf8 value)

theorem writes_className (name : String) :
    Writes (className name) fun pool index => index ≠ 0 ∧ pool.className index = .ok name :=
  (writes_text name).bind fun nameIndex => (writes_add (.classRef nameIndex)).mono fun _ _ found named =>
    ⟨Pool.ne_zero_of_get found, Pool.className_of_get named found⟩

/-- What may be absent is found again where index zero stands for nothing. -/
theorem writes_optional {write : α → Assembly UInt16} {look : Pool → UInt16 → Except Error α}
    (known : ∀ a, Writes (write a) fun pool index => index ≠ 0 ∧ look pool index = .ok a) (value : Option α) :
    Writes (optional write value) fun pool index =>
      (if index = 0 then .ok none else some <$> look pool index) = .ok value := by
  cases value with
  | none => exact .pure fun pool => rfl
  | some a =>
    refine (known a).mono fun pool index found => ?_
    rw [if_neg found.1, found.2]
    rfl

end Assembly

end JvmUnits
