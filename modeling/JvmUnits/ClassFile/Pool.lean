import JvmUnits.Error

/-!
# The constant pool

Looking up constants by index. Slot zero and the slot after a `long` or a `double` hold nothing and can not be used, also
where they lie just beyond the end of the pool.
-/

namespace JvmUnits

/-- The constant pool of a class file. -/
structure Pool where
  entries : Array Constant
  deriving DecidableEq, Repr

/-- A field or method that the pool refers to. -/
structure MemberRef where
  owner : String
  name : String
  descriptor : String
  inInterface : Bool
  deriving DecidableEq, Repr

/-- A constant that an instruction can load or a field can start with; `other` is any other entry, by its kind. -/
inductive Loadable where
  | string (text : String)
  | integer (value : Int)
  | float (word : UInt32)
  | long (value : Int)
  | double (word : UInt64)
  | classRef (name : String)
  | other (kind : String)
  deriving DecidableEq, Repr

namespace Pool

/-- A pool without entries. -/
def empty : Pool := ⟨#[]⟩

/-- The slot is zero or the second one of a wide entry. -/
def isUnusable (pool : Pool) (slot : Nat) : Bool :=
  match slot with
  | 0 => true
  | before + 1 =>
    match pool.entries[before]? with
    | some entry => entry.isWide
    | none => false

/-- The entry at an index. -/
def get (pool : Pool) (index : UInt16) : Except Error Constant :=
  if pool.isUnusable index.toNat then .error (.malformedClassFile (.unusableIndex index))
  else match pool.entries[index.toNat]? with
    | some entry => .ok entry
    | none => .error (.malformedClassFile (.invalidIndex index))

/-- The error for an entry that is not of the kind needed. -/
def unexpected (wanted : ConstantUse) (index : UInt16) (found : Constant) : Error :=
  .malformedClassFile (.unexpectedConstant wanted index found)

/-- The text at an index. -/
def text (pool : Pool) (index : UInt16) : Except Error String := do
  match ← pool.get index with
  | .utf8 value => .ok value
  | other => .error (unexpected .text index other)

/-- The name of the class at an index. -/
def className (pool : Pool) (index : UInt16) : Except Error String := do
  match ← pool.get index with
  | .classRef nameIndex => pool.text nameIndex
  | other => .error (unexpected .className index other)

/-- The name of a class at an index where index zero stands for none. -/
def className? (pool : Pool) (index : UInt16) : Except Error (Option String) :=
  if index = 0 then .ok none else some <$> pool.className index

/-- The name and the descriptor at an index. -/
def nameAndType (pool : Pool) (index : UInt16) : Except Error (String × String) := do
  match ← pool.get index with
  | .nameAndType nameIndex descriptorIndex => do
    let name ← pool.text nameIndex
    let descriptor ← pool.text descriptorIndex
    .ok (name, descriptor)
  | other => .error (unexpected .nameAndType index other)

/-- The member whose class and whose name and descriptor stand at two indices. -/
def member (pool : Pool) (classIndex nameAndTypeIndex : UInt16) (inInterface : Bool) : Except Error MemberRef := do
  let owner ← pool.className classIndex
  let (name, descriptor) ← pool.nameAndType nameAndTypeIndex
  .ok ⟨owner, name, descriptor, inInterface⟩

/-- The field or method at an index. -/
def memberRef (pool : Pool) (index : UInt16) : Except Error MemberRef := do
  match ← pool.get index with
  | .fieldRef classIndex nameAndTypeIndex => pool.member classIndex nameAndTypeIndex false
  | .methodRef classIndex nameAndTypeIndex => pool.member classIndex nameAndTypeIndex false
  | .interfaceMethodRef classIndex nameAndTypeIndex => pool.member classIndex nameAndTypeIndex true
  | other => .error (unexpected .member index other)

/-- The constant at an index, as it can be loaded. -/
def loadable (pool : Pool) (index : UInt16) : Except Error Loadable := do
  match ← pool.get index with
  | .string textIndex => .string <$> pool.text textIndex
  | .integer value => .ok (.integer value)
  | .float word => .ok (.float word)
  | .long value => .ok (.long value)
  | .double word => .ok (.double word)
  | .classRef nameIndex => .classRef <$> pool.text nameIndex
  | other => .ok (.other other.kind)

end Pool

end JvmUnits
