import JvmUnits.Unit.References
import JvmUnits.Unit.Translate

/-!
# Units

A unit is a class in the form in which the runtime loads it: its fields with their first values, its methods with their nodes,
and the classes that it refers to. A native method has no nodes; the unit names the file that implements it.
-/

namespace JvmUnits

/-- The first value of a field. -/
inductive FieldValue where
  | string (text : String)
  | numeric (value : Numeric)
  deriving DecidableEq, Repr

/-- A field of a unit. -/
structure FieldUnit where
  name : String
  token : TypeToken
  value : Option FieldValue
  access : List AccessFlag
  deriving DecidableEq, Repr

/-- How a method is implemented. -/
inductive Implementation where
  | native (path : String)
  | nodes (nodes : List Node)
  deriving DecidableEq, Repr

/-- A method of a unit. -/
structure MethodUnit where
  name : String
  descriptor : String
  signature : MethodSignature
  exceptions : List String
  implementation : Implementation
  access : List AccessFlag
  deriving DecidableEq, Repr

/-- A unit. The names of the class, of its superclass, of its interfaces and of its references are spelled as in the class
file; all others are runtime names. -/
structure ClassUnit where
  name : String
  superName : Option String
  interfaces : List String
  fields : List FieldUnit
  methods : List MethodUnit
  references : List String
  deriving DecidableEq, Repr

/-- The first value of a field: a text or a number. -/
def Loadable.fieldValue (index : UInt16) : Loadable → Except Error FieldValue
  | string text => .ok (.string text)
  | integer value => .ok (.numeric (.int value))
  | float word => .ok (.numeric (.float word))
  | long value => .ok (.numeric (.long value))
  | double word => .ok (.numeric (.double word))
  | classRef _ => .error (.unsupportedConstant "class" index)
  | other kind => .error (.unsupportedConstant kind index)

/-- The first value of a field whose constant stands at an index of the pool. -/
def Pool.fieldValue (pool : Pool) : Option UInt16 → Except Error (Option FieldValue)
  | none => .ok none
  | some index => do
    let constant ← pool.loadable index
    some <$> constant.fieldValue index

/-- The unit of a field. -/
def FieldInfo.translate (naming : Naming) (pool : Pool) (field : FieldInfo) : Mentioning FieldUnit := do
  let token ← naming.typeToken field.descriptor
  let value ← Mentioning.ofExcept (pool.fieldValue field.constantIndex)
  let access ← Mentioning.ofExcept (AccessSite.field.decompose field.flags.toNat)
  pure ⟨field.name, token, value, access⟩

/-- The nodes of a method's body, or its failure. -/
def Body.finished (body : Body) : Mentioning (List Node) :=
  ⟨body.mentions, match body.failure with
    | none => .ok body.nodes
    | some e => .error e⟩

/-- The ending of the file that implements the native methods of a class. -/
def nativeEnding : String := ".native.js"

/-- How a method of the class with the given runtime name is implemented. -/
def MethodInfo.implementation (naming : Naming) (pool : Pool) (runtimeName : String) (method : MethodInfo) :
    Mentioning Implementation :=
  if isNativeWord method.flags.toNat then pure (.native (runtimeName ++ nativeEnding))
  else .nodes <$> (Body.ofWalk naming (Walk.ofMethod pool method)).finished

/-- The unit of a method of the class with the given runtime name. -/
def MethodInfo.translate (naming : Naming) (pool : Pool) (runtimeName : String) (method : MethodInfo) :
    Mentioning MethodUnit := do
  let signature ← naming.methodSignature method.descriptor
  Mentioning.mention method.exceptions
  let access ← Mentioning.ofExcept (AccessSite.method.decompose method.flags.toNat)
  let implementation ← method.implementation naming pool runtimeName
  let exceptions := method.exceptions.map naming.strip
  pure ⟨method.name, naming.strip method.descriptor, signature, exceptions, implementation, access⟩

namespace ClassFile

/-- The fields and methods of a class, with all that the class mentions: its interfaces, its superclass, then its members. -/
def members (naming : Naming) (file : ClassFile) : Mentioning (List FieldUnit × List MethodUnit) := do
  Mentioning.mention (file.interfaces ++ file.superName.toList)
  let fields ← file.fields.mapM (FieldInfo.translate naming file.pool)
  let methods ← file.methods.mapM (MethodInfo.translate naming file.pool (naming.strip file.name))
  pure (fields, methods)

/-- The unit of a class. -/
def translate (naming : Naming) (file : ClassFile) : Except Error ClassUnit :=
  let found := file.members naming
  found.outcome.map fun (fields, methods) =>
    ⟨file.name, file.superName, file.interfaces, fields, methods, collectReferences naming file.name found.mentions⟩

end ClassFile

/-- The runtime names of a unit's references, each once, without the unit itself. -/
def ClassUnit.runtimeReferences (naming : Naming) (unit : ClassUnit) : List String :=
  (collectReferences naming unit.name unit.references).map naming.strip

end JvmUnits
