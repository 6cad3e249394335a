import JvmUnits.Code.Walk
import JvmUnits.Descriptor.Reader
import JvmUnits.Naming
import JvmUnits.Opcode
import JvmUnits.Unit.Node

/-!
# From events to nodes

Each event of a method becomes one node. Classes are mentioned as they are spelled in the class file, and stand in the node
under their runtime names. What an event mentions before it fails stays mentioned.
-/

namespace JvmUnits

namespace Naming

/-- The token of a class operand, under runtime names. -/
def classToken (naming : Naming) (name : String) : Mentioning TypeToken := do
  let token ← TypeToken.decodeInternalName name
  pure (token.mapNames naming.strip)

/-- The token of a type operand, under runtime names. -/
def typeToken (naming : Naming) (descriptor : String) : Mentioning TypeToken := do
  let token ← TypeToken.decode descriptor
  pure (token.mapNames naming.strip)

/-- The signature of a method, under runtime names. -/
def methodSignature (naming : Naming) (descriptor : String) : Mentioning MethodSignature := do
  let signature ← MethodSignature.decode descriptor
  pure (signature.mapNames naming.strip)

/-- The signature of a called method, under runtime names. -/
def callSignature (naming : Naming) (descriptor : String) : Mentioning CallSignature := do
  let parts ← naming.methodSignature descriptor
  pure ⟨naming.strip descriptor, parts⟩

/-- A class by its runtime name; it is mentioned. -/
def mentioned (naming : Naming) (name : String) : Mentioning String := ⟨[name], .ok (naming.strip name)⟩

/-- A class that may be missing, by its runtime name. -/
def mentioned? (naming : Naming) : Option String → Mentioning (Option String)
  | none => pure none
  | some name => some <$> naming.mentioned name

/-- The constant that an instruction loads. Arrays have no class literal, and constants that stand for code have none. -/
def literal (naming : Naming) (index : UInt16) : Loadable → Mentioning Literal
  | .string text => pure (.string text)
  | .integer value => pure (.numeric (.int value))
  | .float word => pure (.numeric (.float word))
  | .long value => pure (.numeric (.long value))
  | .double word => pure (.numeric (.double word))
  | .classRef name =>
    if name.toList.head? = some '[' then .fail (.unsupportedConstruct (.arrayClassLiteral name))
    else .classRef <$> naming.mentioned name
  | .other kind => .fail (.unsupportedConstant kind index)

end Naming

/-- The mnemonic of an opcode; a reserved opcode has none. -/
def Opcode.mnemonic (opcode : UInt8) : Mentioning String :=
  match mnemonic? opcode with
  | some name => pure name
  | none => .fail (.unsupportedConstruct (.opcode opcode))

/-- The node of an instruction. -/
def Instruction.translate (naming : Naming) : Instruction → Mentioning Node
  | plain opcode => do
    let mnemonic ← Opcode.mnemonic opcode
    pure (.plain mnemonic)
  | int opcode operand => do
    let mnemonic ← Opcode.mnemonic opcode
    pure (.int mnemonic operand)
  | var opcode slot => do
    let mnemonic ← Opcode.mnemonic opcode
    pure (.var mnemonic slot)
  | type opcode className => do
    let mnemonic ← Opcode.mnemonic opcode
    let token ← naming.classToken className
    pure (.type mnemonic token)
  | field opcode owner name descriptor => do
    let mnemonic ← Opcode.mnemonic opcode
    let owner ← naming.classToken owner
    let token ← naming.typeToken descriptor
    pure (.field mnemonic owner name token)
  | method opcode owner name descriptor inInterface => do
    let mnemonic ← Opcode.mnemonic opcode
    let owner ← naming.classToken owner
    let signature ← naming.callSignature descriptor
    pure (.method mnemonic owner name signature inInterface)
  | jump opcode target => do
    let mnemonic ← Opcode.mnemonic opcode
    pure (.jump mnemonic target)
  | load index constant => .load <$> naming.literal index constant
  | increment slot amount => pure (.increment slot amount)
  | tableSwitch low high default targets => pure (.tableSwitch low high default targets)
  | lookupSwitch default keys targets => pure (.lookupSwitch default keys targets)
  | multiArray descriptor dimensions => do
    let token ← naming.typeToken descriptor
    pure (.multiArray token dimensions)

/-- The node of an event. -/
def Event.translate (naming : Naming) : Event → Mentioning Node
  | parameter name flags => do
    let access ← Mentioning.ofExcept (AccessSite.parameter.decompose flags.toNat)
    pure (.arg name access)
  | guard start stop handler catchType => do
    let caught ← naming.mentioned? catchType
    pure (.guard start stop handler caught)
  | label place => pure (.label place)
  | instruction i => i.translate naming
  | localVariable name descriptor start stop slot => do
    let token ← naming.typeToken descriptor
    pure (.declare name token slot start stop)
  | finish => pure .finish

/-- The nodes of a method, what they mention, and the failure that cut them short, if one did. -/
structure Body where
  nodes : List Node
  mentions : List String
  failure : Option Error
  deriving DecidableEq, Repr

/-- The nodes of events, in order, up to the first event that fails; after the last event a failure that is known already. -/
def Body.ofEvents (naming : Naming) (failure : Option Error) : List Event → Body
  | [] => ⟨[], [], failure⟩
  | event :: rest =>
    let translated := event.translate naming
    match translated.outcome with
    | .error e => ⟨[], translated.mentions, some e⟩
    | .ok node =>
      let body := ofEvents naming failure rest
      ⟨node :: body.nodes, translated.mentions ++ body.mentions, body.failure⟩

/-- The nodes of a method. -/
def Body.ofWalk (naming : Naming) (walk : Walk) : Body := ofEvents naming walk.failure walk.events

end JvmUnits
