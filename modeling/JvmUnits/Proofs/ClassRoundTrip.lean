import JvmUnits.Proofs.ClassWriter
import Mathlib.Tactic.Ring

/-!
# Class files are read back

Reading a class file gives back what it was written from (`ClassSource.parse_bytes`): the names, the lists in their order and
the constant pool, whichever of the two forms the texts have, as long as all counts and lengths are in the range of their
fields.

`Reader.Reads` says that a reader takes exactly the given bytes, whatever follows, and is kept when readers are put together.
Each part of the file is shown to be read back by a lemma that is named for what writes it: rows of tables, attributes, the
attributes inside code, members, and the class. Such a lemma says that the reader finds something in the bytes which stands, in
each pool that has the entries of the part, for what was written (`Reader.Recovers`).
-/

namespace JvmUnits

/-! ## Flags and numbers -/

/-- Where all bits are known, the reader drops none. -/
theorem AccessSite.Knows.and_mask {site : AccessSite} {word : UInt16} (known : site.Knows word) :
    word &&& site.mask = word := by
  have kept : ∀ position < 16, position ∈ site.table.map AccessFlag.position → site.mask.toNat.testBit position = true := by
    cases site <;> decide
  apply UInt16.toNat_inj.mp
  apply Nat.eq_of_testBit_eq
  intro position
  rw [UInt16.toNat_and, Nat.testBit_and]
  by_cases set : word.toNat.testBit position = true
  · have small : position < 16 := by
      by_contra large
      have power : 2 ^ 16 ≤ 2 ^ position := Nat.pow_le_pow_right (by decide) (Nat.le_of_not_lt large)
      rw [Nat.testBit_lt_two_pow (Nat.lt_of_lt_of_le word.toNat_lt power)] at set
      cases set
    rw [set, kept position small (known position small set)]
    rfl
  · rw [eq_false_of_ne_true set, Bool.false_and]

/-- A number that is read byte by byte starts with what has been read before. -/
theorem foldl_bigEndian (bytes : Bytes) (n : Nat) :
    bytes.foldl (fun n b => n * 256 + b.toNat) n = n * 256 ^ bytes.length + bigEndian bytes := by
  induction bytes generalizing n with
  | nil => simp [bigEndian]
  | cons byte bytes ih =>
    rw [bigEndian, List.foldl_cons, List.foldl_cons, ih (n * 256 + byte.toNat), ih (0 * 256 + byte.toNat), List.length_cons,
      Nat.pow_succ]
    ring

/-- Bytes side by side are two digits of a number, to a base that depends on how many bytes the second one has. -/
theorem bigEndian_append (first second : Bytes) :
    bigEndian (first ++ second) = bigEndian first * 256 ^ second.length + bigEndian second := by
  rw [bigEndian, List.foldl_append, foldl_bigEndian second]
  rfl

/-- A word of 32 bits is the number that its bytes are; so is one of 64 bits. -/
theorem bigEndian_doubleBytes (word : UInt32) : bigEndian (doubleBytes word) = word.toNat := by
  have bound := word.toNat_lt
  rw [doubleBytes, bigEndian_append, bigEndian_wordBytes, bigEndian_wordBytes, length_wordBytes, UInt16.toNat_ofNat',
    UInt16.toNat_ofNat']
  omega

theorem bigEndian_quadBytes (word : UInt64) : bigEndian (quadBytes word) = word.toNat := by
  have bound := word.toNat_lt
  rw [quadBytes, bigEndian_append, bigEndian_doubleBytes, bigEndian_doubleBytes, length_doubleBytes, UInt32.toNat_ofNat',
    UInt32.toNat_ofNat']
  omega

namespace Reader

variable {α β : Type}

/-! ## Reading what was written -/

/-- Reading these bytes gives the value and takes no more than the bytes, whatever follows. -/
def Reads (read : Reader α) (bytes : Bytes) (value : α) : Prop := ∀ rest, read (bytes ++ rest) = .ok (value, rest)

theorem Reads.pure (value : α) : Reads (pure value) [] value := fun _ => rfl

/-- Bytes side by side are read by readers in a row. -/
theorem Reads.bind {read : Reader α} {next : α → Reader β} {first second : Bytes} {a : α} {b : β}
    (one : Reads read first a) (two : Reads (next a) second b) : Reads (read >>= next) (first ++ second) b := by
  intro rest
  rw [List.append_assoc]
  change (read (first ++ (second ++ rest))).bind (fun found => next found.1 found.2) = _
  rw [one (second ++ rest)]
  exact two rest

/-- What is done with the result takes no bytes. -/
theorem Reads.bind_pure {read : Reader α} {bytes : Bytes} {a : α} (f : α → β) (h : Reads read bytes a) :
    Reads (read >>= fun a => Pure.pure (f a)) bytes (f a) := by
  have mapped : Reads (read >>= fun a => Pure.pure (f a)) (bytes ++ []) (f a) := h.bind (Reads.pure (f a))
  rwa [List.append_nil] at mapped

theorem Reads.map {read : Reader α} {bytes : Bytes} {a : α} (f : α → β) (h : Reads read bytes a) :
    Reads (f <$> read) bytes (f a) := h.bind_pure f

theorem reads_u1 (byte : UInt8) : Reads u1 [byte] byte := fun _ => rfl

/-- A word that is written is read back. -/
theorem reads_u2 (word : UInt16) : Reads u2 (wordBytes word) word := by
  intro rest
  change Except.ok (UInt16.ofNat (bigEndian (wordBytes word)), rest) = _
  rw [bigEndian_wordBytes, UInt16.ofNat_toNat]

theorem reads_u4 (word : UInt32) : Reads u4 (doubleBytes word) word.toNat := by
  intro rest
  change Except.ok (bigEndian (doubleBytes word), rest) = _
  rw [bigEndian_doubleBytes]

theorem reads_u8 (word : UInt64) : Reads u8 (quadBytes word) word.toNat := by
  intro rest
  change Except.ok (bigEndian (quadBytes word), rest) = _
  rw [bigEndian_quadBytes]

/-- A block of known length is read back. -/
theorem reads_block (bytes : Bytes) : Reads (block bytes.length) bytes bytes := by
  intro rest
  simp [block]

/-- The first of several words is read. -/
theorem Reads.word {next : UInt16 → Reader β} {number : UInt16} {numbers : List UInt16} {b : β}
    (two : Reads (next number) (words numbers) b) : Reads (u2 >>= next) (words (number :: numbers)) b :=
  (reads_u2 number).bind two

/-- Numbers that are passed over. -/
theorem reads_skip (numbers : List UInt16) : Reads (skip numbers.length) (words numbers) () := by
  have passed : Reads (times u2 numbers.length) (words numbers) numbers := by
    induction numbers with
    | nil => exact .pure []
    | cons number numbers ih => exact .word (ih.bind_pure _)
  exact passed.bind_pure _

/-- Items behind their number are read back, if the number fits in two bytes. -/
theorem reads_counted {item : Reader α} {count : Nat} {bytes : Bytes} {values : List α} (small : count < 65536)
    (read : Reads (times item count) bytes values) :
    Reads (counted item) (wordBytes (UInt16.ofNat count) ++ bytes) values := by
  have number : (UInt16.ofNat count).toNat = count := by
    rw [UInt16.toNat_ofNat']
    omega
  rw [← number] at read
  exact (reads_u2 _).bind read

theorem reads_indexPair (make : UInt16 → UInt16 → α) (first second : UInt16) :
    Reads (indexPair make) (words [first, second]) (make first second) :=
  .word (.word (.pure _))

/-! ## The constant pool -/

/-- A constant that can be written is read back. -/
theorem reads_constant {form : TextForm} {entry : Constant} (writable : entry.isWritable form = true) :
    Reads constant (entry.bytes form) entry := by
  cases entry with
  | unused => cases writable
  | utf8 text =>
    have short : (form.encode text).length < 65536 := of_decide_eq_true writable
    have size : (UInt16.ofNat (form.encode text).length).toNat = (form.encode text).length := by
      rw [UInt16.toNat_ofNat']
      omega
    have content := reads_block (form.encode text)
    rw [← size] at content
    have read : Reads constant (Constant.bytes form (.utf8 text)) (.utf8 (ModifiedUtf8.decode (form.encode text))) :=
      (reads_u1 1).bind ((reads_u2 _).bind (content.bind_pure _))
    rwa [form.decode_encode] at read
  | integer value =>
    obtain ⟨low, high⟩ : -2147483648 ≤ value ∧ value < 2147483648 := by
      simpa [Constant.isWritable] using writable
    have read : Reads constant (Constant.bytes form (.integer value))
        (.integer (signed 32 (Int32.ofInt value).toUInt32.toNat)) := (reads_u1 3).bind ((reads_u4 _).bind_pure _)
    rwa [show signed 32 (Int32.ofInt value).toUInt32.toNat = (Int32.ofInt value).toInt from signed_toNat 31 _,
      Int32.toInt_ofInt_of_le low high] at read
  | float word =>
    have read : Reads constant (Constant.bytes form (.float word)) (.float (UInt32.ofNat (bigEndian (doubleBytes word)))) :=
      (reads_u1 4).bind ((reads_block (doubleBytes word)).bind_pure _)
    rwa [bigEndian_doubleBytes, UInt32.ofNat_toNat] at read
  | long value =>
    obtain ⟨low, high⟩ : -9223372036854775808 ≤ value ∧ value < 9223372036854775808 := by
      simpa [Constant.isWritable] using writable
    have read : Reads constant (Constant.bytes form (.long value))
        (.long (signed 64 (Int64.ofInt value).toUInt64.toNat)) := (reads_u1 5).bind ((reads_u8 _).bind_pure _)
    rwa [show signed 64 (Int64.ofInt value).toUInt64.toNat = (Int64.ofInt value).toInt from signed_toNat 63 _,
      Int64.toInt_ofInt_of_le low high] at read
  | double word =>
    have read : Reads constant (Constant.bytes form (.double word)) (.double (UInt64.ofNat (bigEndian (quadBytes word)))) :=
      (reads_u1 6).bind ((reads_block (quadBytes word)).bind_pure _)
    rwa [bigEndian_quadBytes, UInt64.ofNat_toNat] at read
  | classRef nameIndex => exact (reads_u1 7).bind ((reads_u2 nameIndex).map _)
  | string textIndex => exact (reads_u1 8).bind ((reads_u2 textIndex).map _)
  | fieldRef classIndex nameAndTypeIndex => exact (reads_u1 9).bind (reads_indexPair _ _ _)
  | methodRef classIndex nameAndTypeIndex => exact (reads_u1 10).bind (reads_indexPair _ _ _)
  | interfaceMethodRef classIndex nameAndTypeIndex => exact (reads_u1 11).bind (reads_indexPair _ _ _)
  | nameAndType nameIndex descriptorIndex => exact (reads_u1 12).bind (reads_indexPair _ _ _)
  | methodHandle kind referenceIndex => exact (reads_u1 15).bind ((reads_u1 kind).bind ((reads_u2 referenceIndex).bind_pure _))
  | methodType descriptorIndex => exact (reads_u1 16).bind ((reads_u2 descriptorIndex).map _)
  | dynamic bootstrapIndex nameAndTypeIndex => exact (reads_u1 17).bind (reads_indexPair _ _ _)
  | invokeDynamic bootstrapIndex nameAndTypeIndex => exact (reads_u1 18).bind (reads_indexPair _ _ _)
  | moduleRef nameIndex => exact (reads_u1 19).bind ((reads_u2 nameIndex).map _)
  | packageRef nameIndex => exact (reads_u1 20).bind ((reads_u2 nameIndex).map _)

/-- The entries are read one after the other, and each takes its slots. -/
theorem reads_slots {form : TextForm} {entries : List Constant}
    (writable : ∀ entry ∈ entries, entry.isWritable form = true) :
    Reads (slots (entries.flatMap Constant.slots).length) (entries.flatMap (Constant.bytes form))
      (entries.flatMap Constant.slots) := by
  induction entries with
  | nil => exact .pure []
  | cons entry entries ih =>
    obtain ⟨first, others⟩ := List.forall_mem_cons.mp writable
    have read := reads_constant first
    have rest := ih others
    rw [List.flatMap_cons, List.flatMap_cons, Constant.slots]
    by_cases wide : entry.isWide = true
    · rw [if_pos wide]
      refine read.bind ?_
      rw [if_pos wide]
      exact rest.bind_pure _
    · rw [if_neg wide]
      -- the reader asks whether an entry is wide only where another slot is left
      cases entries with
      | nil => exact read.bind (.pure _)
      | cons next entries =>
        obtain ⟨behind, second⟩ := next.slots_head
        rw [List.flatMap_cons, second] at rest ⊢
        refine read.bind ?_
        rw [if_neg wide]
        exact rest.bind_pure _

/-- A pool is read back: its entries, and the slots behind those that take up two. -/
theorem reads_pool {form : TextForm} {entries : List Constant}
    (room : (entries.flatMap Constant.slots).length < 65535)
    (writable : ∀ entry ∈ entries, entry.isWritable form = true) :
    Reads pool (Pool.bytes form entries) (Pool.ofEntries entries) := by
  have count := Pool.toNat_nextIndex room
  have written : Pool.nextIndex entries ≠ 0 := by
    intro zero
    rw [zero] at count
    cases count
  refine (reads_u2 _).bind ?_
  rw [if_neg written, count, Nat.add_sub_cancel]
  exact (reads_slots writable).bind_pure _

/-! ## Names of attributes -/

/-- The name of an attribute is the text at its index. -/
theorem reads_attributeName {pool : Pool} {index : UInt16} {name : String} (found : pool.get index = .ok (.utf8 name)) :
    Reads (attributeName pool) (wordBytes index) name := by
  have read : Reads (attributeName pool) (wordBytes index ++ []) name := by
    refine (reads_u2 index).bind ?_
    rw [Pool.entry_of_get found]
    exact .pure name
  rwa [List.append_nil] at read

/-- An attribute is read by its name; its length is passed over. -/
theorem reads_named {pool : Pool} {index : UInt16} {name : String} {size : UInt32} {body : Bytes}
    {next : String → Nat → Reader α} {a : α} (found : pool.get index = .ok (.utf8 name))
    (read : Reads (next name size.toNat) body a) :
    Reads (attributeName pool >>= fun name => u4 >>= fun size => next name size)
      (wordBytes index ++ (doubleBytes size ++ body)) a :=
  (reads_attributeName found).bind ((reads_u4 size).bind read)

/-- Reading these bytes, whatever follows, gives something of which the statement holds. -/
def Recovers (read : Reader α) (bytes : Bytes) (means : α → Prop) : Prop := ∃ a, Reads read bytes a ∧ means a

/-- What is found stands for less just as well. -/
theorem Recovers.mono {read : Reader α} {bytes : Bytes} {first means : α → Prop} (found : Recovers read bytes first)
    (weaker : ∀ a, first a → means a) : Recovers read bytes means := by
  obtain ⟨a, reads, holds⟩ := found
  exact ⟨a, reads, weaker a holds⟩

end Reader

namespace Assembly

open Reader

variable {α β : Type} {write : α → Assembly Bytes} {read : Pool → Reader β} {means : Pool → α → β → Prop} {items : List α}

/-- Items that can each be read back are read back one after the other. -/
theorem writes_each (known : ∀ a ∈ items, Writes (write a) fun pool bytes => Recovers (read pool) bytes (means pool a)) :
    Writes (each write items) fun pool bytes =>
      Recovers (times (read pool) items.length) bytes (List.Forall₂ (means pool) items) := by
  induction items with
  | nil => exact .pure fun pool => ⟨[], .pure [], .nil⟩
  | cons item items ih =>
    obtain ⟨first, others⟩ := List.forall_mem_cons.mp known
    refine first.bind fun bytes => (ih others).bind fun rest => .pure fun pool => ?_
    rintro ⟨rows, readRest, meanRest⟩ ⟨row, readFirst, meanFirst⟩
    exact ⟨row :: rows, readFirst.bind (readRest.bind_pure _), .cons meanFirst meanRest⟩

/-- A list that is written behind its length is read back item by item. -/
theorem writes_counted (known : ∀ a ∈ items, Writes (write a) fun pool bytes => Recovers (read pool) bytes (means pool a))
    (fits : items.length < 65536) :
    Writes (counted write items) fun pool bytes =>
      Recovers (Reader.counted (read pool)) bytes (List.Forall₂ (means pool) items) := by
  refine (writes_each known).bind fun bytes => .pure fun pool => ?_
  rintro ⟨rows, readRows, meanRows⟩
  exact ⟨rows, reads_counted fits readRows, meanRows⟩

/-- A list whose length takes one byte is read back item by item. -/
theorem writes_countedShort
    (known : ∀ a ∈ items, Writes (write a) fun pool bytes => Recovers (read pool) bytes (means pool a))
    (fits : items.length < 256) :
    Writes (countedShort write items) fun pool bytes =>
      Recovers (Reader.countedShort (read pool)) bytes (List.Forall₂ (means pool) items) := by
  have count : (UInt8.ofNat items.length).toNat = items.length := by
    rw [UInt8.toNat_ofNat']
    omega
  refine (writes_each known).bind fun bytes => .pure fun pool => ?_
  rintro ⟨rows, readRows, meanRows⟩
  rw [← count] at readRows
  exact ⟨rows, (reads_u1 _).bind readRows, meanRows⟩

/-- The index of a class leads to the name of the class. -/
theorem writes_classIndex (name : String) :
    Writes (wordBytes <$> className name) fun pool bytes =>
      Recovers u2 bytes fun index => pool.className index = .ok name :=
  (writes_className name).map fun _ index found => ⟨index, reads_u2 index, found.2⟩

/-- An attribute is read back when it is by its name. -/
theorem writes_named {name : String} {body : Assembly Bytes} {depth : Nat} {means : Pool → Attribute → Prop}
    (known : Writes body fun pool bytes => ∀ index (size : UInt32), pool.get index = .ok (.utf8 name) →
      Recovers (attributeEntry pool depth) (wordBytes index ++ (doubleBytes size ++ bytes)) (means pool)) :
    Writes (named name body) fun pool bytes => Recovers (attributeEntry pool depth) bytes (means pool) :=
  (writes_text name).bind fun index => known.bind fun _ => .pure fun _ found named => found index _ named

end Assembly

/-- Rows that each stand for an item are resolved to the items. -/
theorem mapM_of_forall₂ {α β : Type} {resolve : β → Except Error α} {items : List α} {rows : List β}
    (each : List.Forall₂ (fun item row => resolve row = .ok item) items rows) : rows.mapM resolve = .ok items := by
  induction each with
  | nil => rfl
  | cons first _ ih =>
    rw [List.mapM_cons, first, ih]
    rfl

open Assembly Reader

/-- The row of a handler is read back. -/
theorem Handler.writes (handler : Handler) :
    Writes handler.assemble fun pool bytes => Recovers handlerRow bytes fun row => pool.handler row = .ok handler := by
  refine (writes_optional writes_className handler.catchType).bind fun catchIndex => .pure fun pool found => ?_
  have resolved : pool.handler ⟨handler.start, handler.stop, handler.handler, catchIndex⟩ = .ok handler := by
    rw [Pool.handler, Pool.className?, found]
    rfl
  exact ⟨_, .word (.word (.word (.word (.pure _)))), resolved⟩

/-- The row of a local variable is read back. -/
theorem LocalVariable.writes (slot : LocalVariable) :
    Writes slot.assemble fun pool bytes => Recovers localRow bytes fun row => pool.localVariable row = .ok slot := by
  refine (writes_text slot.name).bind fun nameIndex => (writes_text slot.descriptor).bind fun descriptorIndex =>
    .pure fun pool described named => ?_
  have resolved :
      pool.localVariable ⟨slot.start, slot.length, nameIndex, descriptorIndex, slot.slot⟩ = .ok slot := by
    rw [Pool.localVariable, Pool.text_of_get named, Pool.text_of_get described]
    rfl
  exact ⟨_, .word (.word (.word (.word (.word (.pure _))))), resolved⟩

/-- The row of a parameter is read back, if all bits of its flags are known. -/
theorem Parameter.writes (parameter : Parameter) (known : AccessSite.parameter.Knows parameter.flags) :
    Writes parameter.assemble fun pool bytes =>
      Recovers parameterRow bytes fun row => pool.parameter row = .ok parameter := by
  have named : ∀ name, Writes (text name) fun pool index => index ≠ 0 ∧ pool.text index = .ok name := fun name =>
    (writes_text name).mono fun pool index found => ⟨Pool.ne_zero_of_get found, Pool.text_of_get found⟩
  refine (writes_optional named parameter.name).bind fun nameIndex => .pure fun pool found => ?_
  have resolved : pool.parameter ⟨nameIndex, parameter.flags &&& AccessSite.parameter.mask⟩ = .ok parameter := by
    have spread : pool.parameter ⟨nameIndex, parameter.flags &&& AccessSite.parameter.mask⟩ =
        (if nameIndex = 0 then .ok none else some <$> pool.text nameIndex) >>= fun name =>
          .ok ⟨name, parameter.flags &&& AccessSite.parameter.mask⟩ := by
      by_cases none : nameIndex = 0 <;> simp only [Pool.parameter, none, if_true, if_false]
    rw [spread, found, known.and_mask]
    rfl
  exact ⟨_, .word (.word (.pure _)), resolved⟩

/-! ## Attributes -/

namespace CodeTable

/-- The local variables of a table. -/
def locals : CodeTable → List LocalVariable
  | localVariables rows => rows
  | lineNumbers => []

/-- A table inside code gives back its local variables, if it has any. -/
theorem writes (table : CodeTable) (fits : table.locals.length < 65536) (depth : Nat) :
    Writes table.assemble fun pool bytes => Recovers (attributeEntry pool (depth + 1)) bytes fun part =>
      part.localRows.mapM pool.localVariable = .ok table.locals := by
  cases table with
  | localVariables rows =>
    refine writes_named ((writes_counted (fun row _ => row.writes) fits).mono fun pool bytes => ?_)
    rintro ⟨found, read, means⟩ index size named
    exact ⟨.localVariables found, reads_named named (read.map _), mapM_of_forall₂ means⟩
  | lineNumbers =>
    refine writes_named (.pure fun pool index size named => ?_)
    have passed : Reads (skipCounted (skip 2)) (words [1, 0, 1]) () := fun _ => rfl
    exact ⟨.other "LineNumberTable", reads_named named (passed.bind_pure _), rfl⟩

end CodeTable

namespace CodeInfo

/-- The local variables of the tables of a code array are those of the code. -/
theorem locals_tables (code : CodeInfo) : code.tables.flatMap CodeTable.locals = code.locals := by
  unfold tables
  cases code.locals with
  | nil => rfl
  | cons row rows => simp [unlessEmpty, CodeTable.locals]

/-- The rows of all tables of local variables add up. -/
theorem localRows_of_forall₂ {pool : Pool} {tables : List CodeTable} {parts : List Attribute}
    (each : List.Forall₂ (fun table part => part.localRows.mapM pool.localVariable = .ok table.locals) tables parts) :
    (parts.flatMap Attribute.localRows).mapM pool.localVariable = .ok (tables.flatMap CodeTable.locals) := by
  induction each with
  | nil => rfl
  | cons first _ ih =>
    rw [List.flatMap_cons, List.flatMap_cons, List.mapM_append, first, ih]
    rfl

/-- Each table has no more local variables than there may be. -/
theorem fits_of_mem_tables {code : CodeInfo} (fits : code.Fits) :
    ∀ table ∈ code.tables, table.locals.length < 65536 := by
  intro table among
  rcases List.mem_append.mp among with among | among
  · rw [mem_unlessEmpty among]
    exact fits.locals
  · rw [List.mem_singleton.mp among]
    decide

/-- The code of a method is read back: what is known of its tables is used one level down. -/
theorem writes (code : CodeInfo) (fits : code.Fits) (maxStack maxLocals : UInt16) (depth : Nat) :
    Writes (code.assemble maxStack maxLocals) fun pool bytes => ∀ index (size : UInt32),
      pool.get index = .ok (.utf8 "Code") → Recovers (attributeEntry pool (depth + 2))
        (wordBytes index ++ (doubleBytes size ++ bytes)) fun part => ∃ rows parts,
          part = .code code.bytes rows parts ∧ resolve pool code.bytes rows parts = .ok code := by
  have length : (UInt32.ofNat code.bytes.length).toNat = code.bytes.length := by
    have short := fits.bytes
    rw [UInt32.toNat_ofNat']
    omega
  have content := reads_block code.bytes
  rw [← length] at content
  have few : code.tables.length < 65536 := by
    have one := length_unlessEmpty CodeTable.localVariables code.locals
    rw [tables, List.length_append, List.length_singleton]
    omega
  refine (writes_counted (fun row _ => row.writes) fits.handlers).bind fun handlers =>
    (writes_counted (fun table among => table.writes (fits_of_mem_tables fits table among) depth) few).bind fun tables =>
      .pure fun pool => ?_
  rintro ⟨parts, readTables, meanTables⟩ ⟨rows, readHandlers, meanHandlers⟩ index size named
  have resolved : resolve pool code.bytes rows parts = .ok code := by
    rw [resolve, mapM_of_forall₂ meanHandlers, localRows_of_forall₂ meanTables, locals_tables]
    rfl
  refine ⟨.code code.bytes rows parts, reads_named named ?_, rows, parts, rfl, resolved⟩
  exact (reads_skip [maxStack, maxLocals]).bind ((reads_u4 _).bind (content.bind
    (readHandlers.bind (readTables.bind_pure _))))

end CodeInfo

/-- What a method has when an attribute is added. -/
def MethodParts.note (parts : MethodParts) : AttributeInfo → MethodParts
  | .code _ _ info => { parts with code := some info }
  | .exceptions names => { parts with exceptions := parts.exceptions ++ names }
  | .parameters rows => { parts with parameters := parts.parameters ++ rows }
  | _ => parts

namespace AttributeInfo

/-- The constant that a field starts with, if the attribute gives it. -/
def constantIndex? : AttributeInfo → Option UInt16
  | constantValue index => some index
  | _ => none

/-- The attribute as it stands in the file says the same as the one with its names. -/
structure Means (info : AttributeInfo) (pool : Pool) (part : Attribute) : Prop where
  adds : ∀ parts, MethodParts.add pool parts part = .ok (parts.note info)
  starts : part.constantIndex? = info.constantIndex?

/-- Each attribute of a member is read back: its body by its name, and through the pool what it says. -/
theorem writes (info : AttributeInfo) (fits : info.Fits) (depth : Nat) :
    Writes info.assemble fun pool bytes => Recovers (attributeEntry pool (depth + 2)) bytes (info.Means pool) := by
  cases info with
  | constantValue index =>
    refine writes_named (.pure fun pool _ _ named => ?_)
    exact ⟨.constantValue index, reads_named named ((reads_u2 index).map _), ⟨fun _ => rfl, rfl⟩⟩
  | code maxStack maxLocals info =>
    refine writes_named ((info.writes fits maxStack maxLocals depth).mono fun pool bytes known index size named => ?_)
    obtain ⟨part, read, rows, parts, rfl, resolved⟩ := known index size named
    refine ⟨_, read, fun _ => ?_, rfl⟩
    rw [MethodParts.add, resolved]
    rfl
  | exceptions names =>
    refine writes_named ((writes_counted (fun name _ => writes_classIndex name) fits).mono fun pool bytes => ?_)
    rintro ⟨indices, read, means⟩ _ _ named
    refine ⟨.exceptions indices, reads_named named (read.map _), fun _ => ?_, rfl⟩
    rw [MethodParts.add, mapM_of_forall₂ means]
    rfl
  | parameters rows =>
    refine writes_named ((writes_countedShort (fun row among => row.writes (fits.2 row among)) fits.1).mono
      fun pool bytes => ?_)
    rintro ⟨found, read, means⟩ _ _ named
    refine ⟨.parameters found, reads_named named (read.map _), fun _ => ?_, rfl⟩
    rw [MethodParts.add, mapM_of_forall₂ means]
    rfl
  | sourceFile name =>
    refine writes_named ((writes_text name).map fun pool nameIndex _ _ _ named => ?_)
    exact ⟨.other "SourceFile", reads_named named ((reads_skip [nameIndex]).bind_pure _), ⟨fun _ => rfl, rfl⟩⟩

end AttributeInfo

/-! ## Fields, methods and interfaces -/

/-- A member as it stands in the file is the one with its names. -/
structure MemberLayout.Means (layout : MemberLayout) (pool : Pool) (flags : UInt16) (name descriptor : String)
    (attributes : List AttributeInfo) : Prop where
  flags : layout.flags = flags
  name : pool.text layout.nameIndex = .ok name
  descriptor : pool.text layout.descriptorIndex = .ok descriptor
  attributes : List.Forall₂ (fun info part => info.Means pool part) attributes layout.attributes

/-- A member is read back with its flags, its name, its descriptor and its attributes. -/
theorem writes_member {site : AccessSite} {flags : UInt16} {attributes : List AttributeInfo} (known : site.Knows flags)
    (few : attributes.length < 65536) (fits : ∀ info ∈ attributes, info.Fits) (name descriptor : String) (depth : Nat) :
    Writes (assembleMember flags name descriptor attributes) fun pool bytes =>
      Recovers (member site pool (depth + 2)) bytes fun layout => layout.Means pool flags name descriptor attributes := by
  refine (writes_text name).bind fun nameIndex => (writes_text descriptor).bind fun descriptorIndex =>
    (writes_counted (fun info among => info.writes (fits info among) depth) few).bind fun bytes => .pure fun pool => ?_
  rintro ⟨parts, read, means⟩ described named
  refine ⟨⟨flags &&& site.mask, nameIndex, descriptorIndex, parts⟩, ?_, known.and_mask, Pool.text_of_get named,
    Pool.text_of_get described, means⟩
  exact (reads_u2 flags).bind ((reads_u2 nameIndex).bind ((reads_u2 descriptorIndex).bind (read.bind_pure _)))

namespace FieldInfo

/-- The first constant that the attributes give is the one that was written first. -/
theorem constantIndex_of_forall₂ {pool : Pool} {infos : List AttributeInfo} {parts : List Attribute}
    (each : List.Forall₂ (fun info part => info.Means pool part) infos parts) :
    parts.findSome? Attribute.constantIndex? = infos.findSome? AttributeInfo.constantIndex? := by
  induction each with
  | nil => rfl
  | cons first _ ih => rw [List.findSome?_cons, List.findSome?_cons, first.starts, ih]

/-- A field is read back. -/
theorem writes (field : FieldInfo) (known : AccessSite.field.Knows field.flags) (depth : Nat) :
    Writes field.assemble fun pool bytes =>
      Recovers (member .field pool (depth + 2)) bytes fun layout => resolve pool layout = .ok field := by
  have few : field.attributes.length < 65536 := by
    unfold attributes
    cases field.constantIndex <;> simp
  have fits : ∀ info ∈ field.attributes, info.Fits := by
    intro info among
    obtain ⟨index, -, rfl⟩ := List.mem_map.mp among
    trivial
  refine (writes_member known few fits field.name field.descriptor depth).mono fun pool bytes found =>
    found.mono fun layout means => ?_
  have starts : layout.attributes.findSome? Attribute.constantIndex? = field.constantIndex := by
    rw [constantIndex_of_forall₂ means.attributes, attributes]
    cases field.constantIndex <;> rfl
  rw [resolve, means.name, means.descriptor, means.flags, starts]
  rfl

end FieldInfo

namespace MethodSource

/-- What the attributes say adds up in the order in which they were written. -/
theorem foldlM_of_forall₂ {pool : Pool} {infos : List AttributeInfo} {parts : List Attribute}
    (each : List.Forall₂ (fun info part => info.Means pool part) infos parts) (start : MethodParts) :
    parts.foldlM (MethodParts.add pool) start = .ok (infos.foldl MethodParts.note start) := by
  induction each generalizing start with
  | nil => rfl
  | cons first _ ih =>
    rw [List.foldlM_cons, first.adds]
    exact ih _

/-- The attributes that are written for a method are all that is noted of it. -/
theorem foldl_note_attributes (method : MethodSource) :
    method.attributes.foldl MethodParts.note ⟨[], [], none⟩ =
      ⟨method.info.exceptions, method.info.parameters, method.info.code⟩ := by
  unfold attributes
  cases method.info.code <;> cases method.info.exceptions <;> cases method.info.parameters <;> rfl

/-- A method is read back. -/
theorem writes (method : MethodSource) (known : AccessSite.method.Knows method.info.flags)
    (fits : ∀ info ∈ method.attributes, info.Fits) (depth : Nat) :
    Writes method.assemble fun pool bytes =>
      Recovers (member .method pool (depth + 2)) bytes fun layout =>
        MethodInfo.resolve pool layout = .ok method.info := by
  have few : method.attributes.length < 65536 := by
    have exceptions := length_unlessEmpty AttributeInfo.exceptions method.info.exceptions
    have parameters := length_unlessEmpty AttributeInfo.parameters method.info.parameters
    have code : method.info.code.toList.length ≤ 1 := by cases method.info.code <;> simp
    rw [attributes, List.length_append, List.length_append, List.length_map]
    omega
  refine (writes_member known few fits method.info.name method.info.descriptor depth).mono fun pool bytes found =>
    found.mono fun layout means => ?_
  rw [MethodInfo.resolve, foldlM_of_forall₂ means.attributes, foldl_note_attributes, means.name, means.descriptor,
    means.flags]
  rfl

end MethodSource

/-- Interfaces are read back in order; entries for the code write nothing here. -/
theorem writes_declarations (declarations : List Declaration) :
    Writes (each Declaration.assemble declarations) fun pool bytes =>
      Recovers (times u2 (declarations.filterMap Declaration.interface?).length) bytes fun indices =>
        indices.mapM pool.className = .ok (declarations.filterMap Declaration.interface?) := by
  induction declarations with
  | nil => exact .pure fun pool => ⟨[], .pure [], rfl⟩
  | cons declaration declarations ih =>
    cases declaration with
    | entry constant =>
      have nothing : Writes (Declaration.entry constant).assemble fun _ bytes => bytes = [] :=
        (writes_add constant).bind fun _ => .pure fun _ _ => rfl
      refine nothing.bind fun first => ih.bind fun rest => .pure fun pool found empty => ?_
      subst empty
      exact found
    | interface name =>
      refine (writes_classIndex name).bind fun first => ih.bind fun rest => .pure fun pool => ?_
      rintro ⟨indices, readRest, resolved⟩ ⟨index, read, found⟩
      have all : (index :: indices).mapM pool.className =
          .ok (name :: declarations.filterMap Declaration.interface?) := by
        rw [List.mapM_cons, found, resolved]
        rfl
      exact ⟨index :: indices, read.bind (readRest.bind_pure _), all⟩

/-! ## Class files -/

/-- Reads what comes after the constant pool. -/
def Reader.classBody (entries : Pool) (depth : Nat) : Reader ClassLayout := do
  skip 1
  let classIndex ← u2
  let superIndex ← u2
  let interfaceIndices ← Reader.counted u2
  let fields ← Reader.counted (member .field entries depth)
  let methods ← Reader.counted (member .method entries depth)
  let _ ← Reader.counted (attributeEntry entries depth)
  pure ⟨entries, classIndex, superIndex, interfaceIndices, fields, methods⟩

/-- A class file starts with its magic number, its version and its pool. -/
theorem Reader.classLayout_eq (depth : Nat) :
    classLayout depth = (do
      let opening ← u4
      if opening ≠ magicNumber then fail .magic
      skip 2
      let entries ← Reader.pool
      classBody entries depth) := rfl

namespace ClassSource

/-- What comes after the constant pool is read back, in every pool that has the entries. -/
theorem writes (source : ClassSource) {form : TextForm} (fits : source.Fits form) (depth : Nat) :
    Writes source.assemble fun pool bytes => Recovers (classBody pool (depth + 2)) bytes fun layout =>
      ClassFile.resolve layout = .ok ⟨pool, source.name, source.superName, source.interfaces, source.fields,
        source.methods.map MethodSource.info⟩ := by
  have few : (source.sourceFile.toList.map AttributeInfo.sourceFile).length < 65536 := by
    cases source.sourceFile <;> simp
  have free : ∀ info ∈ source.sourceFile.toList.map AttributeInfo.sourceFile, info.Fits := by
    intro info among
    obtain ⟨file, -, rfl⟩ := List.mem_map.mp among
    trivial
  refine (writes_className source.name).bind fun classIndex =>
    (writes_optional writes_className source.superName).bind fun superIndex =>
    (writes_declarations source.declarations).bind fun interfaces =>
    (writes_counted (fun field among => field.writes (fits.fieldFlags field among) depth) fits.fields).bind fun fields =>
    (writes_counted (fun method among => method.writes (fits.methodFlags method among) (fits.attributes method among) depth)
      fits.methods).bind fun methods =>
    (writes_counted (fun info among => info.writes (free info among) depth) few).bind fun attributes => .pure fun pool => ?_
  rintro ⟨parts, readParts, -⟩ ⟨methodRows, readMethods, meanMethods⟩ ⟨fieldRows, readFields, meanFields⟩
    ⟨indices, readIndices, resolved⟩ extended ⟨-, named⟩
  refine ⟨⟨pool, classIndex, superIndex, indices, fieldRows, methodRows⟩, ?_, ?_⟩
  · exact (reads_skip [source.flags]).bind ((reads_u2 classIndex).bind ((reads_u2 superIndex).bind
      ((reads_counted fits.interfaces readIndices).bind (readFields.bind (readMethods.bind (readParts.bind_pure _))))))
  · have methodInfos : methodRows.mapM (MethodInfo.resolve pool) = .ok (source.methods.map MethodSource.info) :=
      mapM_of_forall₂ (List.forall₂_map_left_iff.mpr meanMethods)
    have fieldInfos : fieldRows.mapM (FieldInfo.resolve pool) = .ok source.fields := mapM_of_forall₂ meanFields
    have parent : pool.className? superIndex = .ok source.superName := extended
    simp only [ClassFile.resolve, named, parent, resolved, fieldInfos, methodInfos]
    rfl

/-- A class file that is written from a source is read back as the source describes it. -/
theorem parse_bytes (source : ClassSource) (form : TextForm) (fits : source.Fits form) :
    ClassFile.parse (source.bytes form) = .ok source.classFile := by
  have holds : (Pool.ofEntries source.entries).Holds source.entries := Pool.holds_ofEntries fits.room
  obtain ⟨depth, deep⟩ : ∃ depth, (source.bytes form).length = depth + 2 := by
    refine ⟨(source.bytes form).length - 2, ?_⟩
    rw [bytes, List.length_append, length_doubleBytes]
    omega
  obtain ⟨layout, body, resolved⟩ := (source.writes fits depth []).2 _ holds
  have read : Reads (classLayout (depth + 2)) (source.bytes form) layout := by
    rw [classLayout_eq]
    exact (reads_u4 0xCAFEBABE).bind ((reads_skip [source.minorVersion, source.majorVersion]).bind
      ((reads_pool fits.room fits.writable).bind body))
  have whole : ClassLayout.read (source.bytes form) = .ok layout := by
    have alone := read []
    rw [List.append_nil, ← deep] at alone
    rw [ClassLayout.read, alone]
    rfl
  rw [ClassFile.parse, whole]
  exact resolved

end ClassSource

namespace Sample

/-- Code with a handler for one type and a handler for all. -/
def code : CodeInfo where
  bytes := [0x1A, 0xAC]
  handlers := [⟨0, 1, 1, some "java/lang/Exception"⟩, ⟨0, 1, 1, none⟩]
  locals := [⟨0, 2, "n", "I", 0⟩]

/-- A class with a wide entry in its pool, a text that the two encodings write differently, and a parameter without a name. -/
def source : ClassSource where
  minorVersion := 0
  majorVersion := 52
  flags := 0x0021
  name := "demo/Sample"
  superName := some "java/lang/Object"
  declarations := [.entry (.long (-1)), .interface "demo/Shape", .entry (.utf8 "\x00😀"), .interface "demo/Solid"]
  fields := [⟨0x0019, "LIMIT", "J", some 5⟩, ⟨0x0002, "next", "Ldemo/Sample;", none⟩]
  methods := [
    ⟨⟨0x0401, "area", "(DI)D", ["java/io/IOException"], [⟨some "scale", 0x0010⟩, ⟨none, 0x8000⟩], none⟩, 0, 0⟩,
    ⟨⟨0x0009, "same", "(I)I", [], [], some code⟩, 1, 1⟩]
  sourceFile := some "Sample.java"

/-- The sample fits, in either form of texts. -/
theorem fits (form : TextForm) : source.Fits form where
  room := by decide +kernel
  writable := by cases form <;> decide +kernel
  interfaces := by decide
  fields := by decide
  fieldFlags := by decide +kernel
  methods := by decide
  methodFlags := by decide +kernel
  attributes := by decide +kernel

/-- The sample is read back in either form of texts. -/
theorem parse_source :
    source.Fits .modified ∧ ClassFile.parse (source.bytes .modified) = .ok source.classFile ∧
      source.Fits .plain ∧ ClassFile.parse (source.bytes .plain) = .ok source.classFile :=
  ⟨fits .modified, source.parse_bytes .modified (fits .modified), fits .plain, source.parse_bytes .plain (fits .plain)⟩

end Sample

end JvmUnits
