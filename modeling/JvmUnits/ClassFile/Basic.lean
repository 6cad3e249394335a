import JvmUnits.ClassFile.Layout

/-!
# Class files

A class file with all its names resolved: what the rest of the library works on.
-/

namespace JvmUnits

/-- A field. -/
structure FieldInfo where
  flags : UInt16
  name : String
  descriptor : String
  constantIndex : Option UInt16
  deriving DecidableEq, Repr

/-- A parameter of a method. -/
structure Parameter where
  name : Option String
  flags : UInt16
  deriving DecidableEq, Repr

/-- A row of the exception table of a method; without a type it catches everything. -/
structure Handler where
  start : UInt16
  stop : UInt16
  handler : UInt16
  catchType : Option String
  deriving DecidableEq, Repr

/-- A local variable and the part of the code where it lives. -/
structure LocalVariable where
  start : UInt16
  length : UInt16
  name : String
  descriptor : String
  slot : UInt16
  deriving DecidableEq, Repr

/-- The code of a method. -/
structure CodeInfo where
  bytes : Bytes
  handlers : List Handler
  locals : List LocalVariable
  deriving DecidableEq, Repr

/-- A method. -/
structure MethodInfo where
  flags : UInt16
  name : String
  descriptor : String
  exceptions : List String
  parameters : List Parameter
  code : Option CodeInfo
  deriving DecidableEq, Repr

/-- A class file. -/
structure ClassFile where
  pool : Pool
  name : String
  superName : Option String
  interfaces : List String
  fields : List FieldInfo
  methods : List MethodInfo
  deriving DecidableEq, Repr

namespace Pool

/-- Resolves a row of the exception table. -/
def handler (pool : Pool) (row : HandlerRow) : Except Error Handler := do
  let catchType ← pool.className? row.catchIndex
  .ok ⟨row.start, row.stop, row.handler, catchType⟩

/-- Resolves a row of the table of local variables. -/
def localVariable (pool : Pool) (row : LocalRow) : Except Error LocalVariable := do
  let name ← pool.text row.nameIndex
  let descriptor ← pool.text row.descriptorIndex
  .ok ⟨row.start, row.length, name, descriptor, row.slot⟩

/-- Resolves a row of the table of parameters. -/
def parameter (pool : Pool) (row : ParameterRow) : Except Error Parameter := do
  let name ← if row.nameIndex = 0 then .ok none else some <$> pool.text row.nameIndex
  .ok ⟨name, row.flags⟩

end Pool

namespace Attribute

/-- The rows of a table of local variables; none for any other attribute. -/
def localRows : Attribute → List LocalRow
  | localVariables rows => rows
  | _ => []

/-- The constant that a field starts with, if the attribute gives it. -/
def constantIndex? : Attribute → Option UInt16
  | constantValue index => some index
  | _ => none

end Attribute

/-- Resolves the code of a method: its exception table first, then its tables of local variables. -/
def CodeInfo.resolve (pool : Pool) (bytes : Bytes) (handlers : List HandlerRow) (attributes : List Attribute) :
    Except Error CodeInfo := do
  let handlers ← handlers.mapM pool.handler
  let locals ← (attributes.flatMap Attribute.localRows).mapM pool.localVariable
  .ok ⟨bytes, handlers, locals⟩

/-- What the attributes of a method say: rows of several tables add up, and of several codes the last counts. -/
structure MethodParts where
  exceptions : List String
  parameters : List Parameter
  code : Option CodeInfo
  deriving DecidableEq, Repr

/-- Adds what one attribute says. -/
def MethodParts.add (pool : Pool) (parts : MethodParts) : Attribute → Except Error MethodParts
  | .code bytes handlers attributes => do
    let code ← CodeInfo.resolve pool bytes handlers attributes
    .ok { parts with code := some code }
  | .exceptions classIndices => do
    let names ← classIndices.mapM pool.className
    .ok { parts with exceptions := parts.exceptions ++ names }
  | .parameters rows => do
    let more ← rows.mapM pool.parameter
    .ok { parts with parameters := parts.parameters ++ more }
  | _ => .ok parts

/-- Resolves a field; of several constants the first counts. -/
def FieldInfo.resolve (pool : Pool) (layout : MemberLayout) : Except Error FieldInfo := do
  let name ← pool.text layout.nameIndex
  let descriptor ← pool.text layout.descriptorIndex
  .ok ⟨layout.flags, name, descriptor, layout.attributes.findSome? Attribute.constantIndex?⟩

/-- Resolves a method: its attributes in order, then its name and descriptor. -/
def MethodInfo.resolve (pool : Pool) (layout : MemberLayout) : Except Error MethodInfo := do
  let parts ← layout.attributes.foldlM (MethodParts.add pool) ⟨[], [], none⟩
  let name ← pool.text layout.nameIndex
  let descriptor ← pool.text layout.descriptorIndex
  .ok ⟨layout.flags, name, descriptor, parts.exceptions, parts.parameters, parts.code⟩

namespace ClassFile

/-- Resolves the names of a class file. -/
def resolve (layout : ClassLayout) : Except Error ClassFile := do
  let pool := layout.pool
  let name ← pool.className layout.classIndex
  let superName ← pool.className? layout.superIndex
  let interfaces ← layout.interfaceIndices.mapM pool.className
  let fields ← layout.fields.mapM (FieldInfo.resolve pool)
  let methods ← layout.methods.mapM (MethodInfo.resolve pool)
  .ok ⟨pool, name, superName, interfaces, fields, methods⟩

/-- Reads a class file from its bytes. -/
def parse (bytes : Bytes) : Except Error ClassFile :=
  match ClassLayout.read bytes with
  | .error fault => .error (.malformedClassFile (.layout bytes.length fault))
  | .ok layout => resolve layout

end ClassFile

end JvmUnits
