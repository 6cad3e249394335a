import JvmUnits.ClassFile.Annotation
import JvmUnits.ClassFile.ModifiedUtf8
import JvmUnits.ClassFile.Pool

/-!
# The layout of a class file

A class file as it is written: every name is still an index of the constant pool. Of the attributes, those that a unit needs
are kept and all others are passed over. Attributes are read by their name alone; their written length is not consulted,
except where a block of that length has to be there.
-/

namespace JvmUnits

/-- A row of the exception table of a method. Index zero as the type catches everything. -/
structure HandlerRow where
  start : UInt16
  stop : UInt16
  handler : UInt16
  catchIndex : UInt16
  deriving DecidableEq, Repr

/-- A row of the table of local variables. -/
structure LocalRow where
  start : UInt16
  length : UInt16
  nameIndex : UInt16
  descriptorIndex : UInt16
  slot : UInt16
  deriving DecidableEq, Repr

/-- A row of the table of parameters. Index zero as the name stands for none. -/
structure ParameterRow where
  nameIndex : UInt16
  flags : UInt16
  deriving DecidableEq, Repr

/-- An attribute. -/
inductive Attribute where
  | constantValue (index : UInt16)
  | code (bytes : Bytes) (handlers : List HandlerRow) (attributes : List Attribute)
  | exceptions (classIndices : List UInt16)
  | parameters (rows : List ParameterRow)
  | localVariables (rows : List LocalRow)
  | other (name : String)
  deriving Repr

/-- A field or a method. -/
structure MemberLayout where
  flags : UInt16
  nameIndex : UInt16
  descriptorIndex : UInt16
  attributes : List Attribute
  deriving Repr

/-- A whole class file. Superclass index zero stands for none. -/
structure ClassLayout where
  pool : Pool
  classIndex : UInt16
  superIndex : UInt16
  interfaceIndices : List UInt16
  fields : List MemberLayout
  methods : List MemberLayout
  deriving Repr

/-- The bits of a flag word that are kept at a site. -/
def AccessSite.mask : AccessSite → UInt16
  | field => 0x50DF
  | method => 0x1DFF
  | parameter => 0x9010

namespace Reader

/-- Reads two indices. -/
def indexPair {α : Type} (make : UInt16 → UInt16 → α) : Reader α := do
  let first ← u2
  let second ← u2
  pure (make first second)

/-- Reads an entry of the constant pool. -/
def constant : Reader Constant := do
  let tag ← u1
  match tag.toNat with
  | 1 => do
    let size ← u2
    let bytes ← block size.toNat
    pure (.utf8 (ModifiedUtf8.decode bytes))
  | 3 => do
    let word ← u4
    pure (.integer (signed 32 word))
  | 4 => do
    let bytes ← block 4
    pure (.float (UInt32.ofNat (bigEndian bytes)))
  | 5 => do
    let word ← u8
    pure (.long (signed 64 word))
  | 6 => do
    let bytes ← block 8
    pure (.double (UInt64.ofNat (bigEndian bytes)))
  | 7 => .classRef <$> u2
  | 8 => .string <$> u2
  | 9 => indexPair .fieldRef
  | 10 => indexPair .methodRef
  | 11 => indexPair .interfaceMethodRef
  | 12 => indexPair .nameAndType
  | 15 => do
    let kind ← u1
    let index ← u2
    pure (.methodHandle kind index)
  | 16 => .methodType <$> u2
  | 17 => indexPair .dynamic
  | 18 => indexPair .invokeDynamic
  | 19 => .moduleRef <$> u2
  | 20 => .packageRef <$> u2
  | _ => fail (.constantTag tag)

/-- Reads the entries of a given number of slots. A wide entry takes two, unless only one is left. -/
def slots : Nat → Reader (List Constant)
  | 0 => pure []
  | 1 => do
    let entry ← constant
    pure [entry]
  | n + 2 => do
    let entry ← constant
    if entry.isWide then do
      let rest ← slots n
      pure (entry :: .unused :: rest)
    else do
      let rest ← slots (n + 1)
      pure (entry :: rest)

/-- Reads the constant pool: the number of its slots, of which slot zero is not written, and the entries. -/
def pool : Reader Pool := do
  let count ← u2
  if count = 0 then pure .empty
  else do
    let entries ← slots (count.toNat - 1)
    pure ⟨(Constant.unused :: entries).toArray⟩

/-- The name of an attribute. -/
def attributeName (pool : Pool) : Reader String := do
  let index ← u2
  match pool.entries[index.toNat]? with
  | none => fail (.noAttributeName index)
  | some (.utf8 name) => pure name
  | some other => fail (.attributeNameNotText other)

/-- Reads a row of the exception table. -/
def handlerRow : Reader HandlerRow := do
  let start ← u2
  let stop ← u2
  let handler ← u2
  let catchIndex ← u2
  pure ⟨start, stop, handler, catchIndex⟩

/-- Reads a row of the table of local variables. -/
def localRow : Reader LocalRow := do
  let start ← u2
  let length ← u2
  let nameIndex ← u2
  let descriptorIndex ← u2
  let slot ← u2
  pure ⟨start, length, nameIndex, descriptorIndex, slot⟩

/-- Reads a row of the table of parameters. -/
def parameterRow : Reader ParameterRow := do
  let nameIndex ← u2
  let flags ← u2
  pure ⟨nameIndex, flags &&& AccessSite.parameter.mask⟩

/-- Passes over the body of an attribute that no unit needs, by its name and its written length. The attributes inside it are
read with the reader given. -/
def skipBody (inner : Reader Attribute) (depth size : Nat) (name : String) : Reader Unit :=
  match name with
  | "Synthetic" | "Deprecated" => pure ()
  | "SourceFile" | "Signature" | "NestHost" => skip 1
  | "EnclosingMethod" => skip 2
  | "LineNumberTable" => skipCounted (skip 2)
  | "LocalVariableTypeTable" => skipCounted (skip 5)
  | "InnerClasses" => skipCounted (skip 4)
  | "NestMembers" | "PermittedSubclasses" => skipCounted (skip 1)
  | "BootstrapMethods" => skipCounted do
    skip 1
    skipCounted (skip 1)
  | "Record" => skipCounted do
    skip 2
    let _ ← counted inner
  | "SourceDebugExtension" => do let _ ← block size
  | "RuntimeVisibleAnnotations" => do
    expectBlock size
    skipCounted (skipAnnotationItem (skipValue depth))
  | "RuntimeInvisibleAnnotations" => skipCounted (skipAnnotationItem (skipValue depth))
  | "RuntimeVisibleParameterAnnotations" | "RuntimeInvisibleParameterAnnotations" =>
    skipCountedShort (skipCounted (skipAnnotationItem (skipValue depth)))
  | "RuntimeVisibleTypeAnnotations" | "RuntimeInvisibleTypeAnnotations" => skipCounted (skipTypeAnnotationItem depth)
  | "AnnotationDefault" => do
    expectBlock size
    skipValue depth
  | "StackMapTable" => skipCounted skipFrame
  | _ => fail (.attributeName name)

/-- Reads an attribute. Attributes nest; the depth bounds the nesting, and the number of bytes of the file is always enough,
since every level takes some. -/
def attributeEntry (pool : Pool) : (depth : Nat) → Reader Attribute
  | 0 => fun bytes => .error (.numberPastEnd bytes.length)
  | depth + 1 => do
    let name ← attributeName pool
    let size ← u4
    match name with
    | "ConstantValue" => .constantValue <$> u2
    | "Code" => do
      skip 2
      let length ← u4
      let bytes ← block length
      let handlers ← counted handlerRow
      let attributes ← counted (attributeEntry pool depth)
      pure (.code bytes handlers attributes)
    | "Exceptions" => .exceptions <$> counted u2
    | "MethodParameters" => .parameters <$> countedShort parameterRow
    | "LocalVariableTable" => .localVariables <$> counted localRow
    | _ => do
      skipBody (attributeEntry pool depth) depth size name
      pure (.other name)

/-- Reads a field or a method. -/
def member (site : AccessSite) (pool : Pool) (depth : Nat) : Reader MemberLayout := do
  let flags ← u2
  let nameIndex ← u2
  let descriptorIndex ← u2
  let attributes ← counted (attributeEntry pool depth)
  pure ⟨flags &&& site.mask, nameIndex, descriptorIndex, attributes⟩

/-- The number that opens every class file. -/
def magicNumber : Nat := 0xCAFEBABE

/-- Reads a class file up to its end. -/
def classLayout (depth : Nat) : Reader ClassLayout := do
  let opening ← u4
  if opening ≠ magicNumber then fail .magic
  skip 2
  let entries ← pool
  skip 1
  let classIndex ← u2
  let superIndex ← u2
  let interfaceIndices ← counted u2
  let fields ← counted (member .field entries depth)
  let methods ← counted (member .method entries depth)
  let _ ← counted (attributeEntry entries depth)
  pure ⟨entries, classIndex, superIndex, interfaceIndices, fields, methods⟩

end Reader

/-- Reads the bytes of a class file, all of them. -/
def ClassLayout.read (bytes : Bytes) : Except LayoutFault ClassLayout := do
  let (layout, rest) ← Reader.classLayout bytes.length bytes
  if rest.isEmpty then .ok layout else .error (.bytesLeft rest.length)

end JvmUnits
