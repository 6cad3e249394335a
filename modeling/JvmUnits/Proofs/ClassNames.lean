import JvmUnits.Proofs.Mention
import JvmUnits.Unit.Basic

/-!
# The classes that a unit names

A unit names classes in its head, in its fields, in the signatures and exceptions of its methods and in their nodes
(`ClassUnit.mentionedNames`). The translation mentions exactly these, in this order: its mentions are spelled as in the class
file, and become the names of the unit when the home package is removed (`ClassFile.tracks_members`).
-/

namespace JvmUnits

/-! ## Names in the parts of a unit -/

/-- The classes that a constant names: a class literal names one. -/
def Literal.classNames : Literal → List String
  | classRef name => [name]
  | _ => []

/-- The classes that a node names: the owner of a member before the types of its signature. -/
def Node.classNames : Node → List String
  | guard _ _ _ catchType => catchType.toList
  | type _ token => token.classes
  | field _ owner _ token => owner.classes ++ token.classes
  | method _ owner _ signature _ => owner.classes ++ signature.parts.classes
  | load literal => literal.classNames
  | multiArray token _ => token.classes
  | declare _ token _ _ _ => token.classes
  | _ => []

/-- The classes that the implementation of a method names: none where it is native. -/
def Implementation.classNames : Implementation → List String
  | native _ => []
  | nodes list => list.flatMap Node.classNames

/-- The classes that a method names: its arguments, its return type, its exceptions, then those of its nodes. -/
def MethodUnit.classNames (method : MethodUnit) : List String :=
  method.signature.classes ++ method.exceptions ++ method.implementation.classNames

/-- The runtime names of the classes that a unit mentions, in order and with repetitions: its interfaces, its superclass, its
fields, then its methods. -/
def ClassUnit.mentionedNames (naming : Naming) (unit : ClassUnit) : List String :=
  (unit.interfaces ++ unit.superName.toList).map naming.strip ++ unit.fields.flatMap (fun field => field.token.classes) ++
    unit.methods.flatMap MethodUnit.classNames

/-! ## Renaming -/

theorem TypeToken.elementClass_mapNames (rename : String → String) (token : TypeToken) :
    (token.mapNames rename).elementClass = token.elementClass.map rename := by
  induction token with
  | arrayOf element ih => exact ih
  | _ => rfl

/-- The classes of a type with its names changed are its classes with their names changed. -/
theorem TypeToken.classes_mapNames (rename : String → String) (token : TypeToken) :
    (token.mapNames rename).classes = token.classes.map rename := by
  rw [classes, classes, elementClass_mapNames]
  cases token.elementClass <;> rfl

/-- The classes of a signature with its names changed are its classes with their names changed. -/
theorem MethodSignature.classes_mapNames (rename : String → String) (signature : MethodSignature) :
    (signature.mapNames rename).classes = signature.classes.map rename := by
  simp only [classes, mapNames, List.map_append, TypeToken.classes_mapNames, List.flatMap_map, List.map_flatMap]

/-! ## What reading a descriptor mentions -/

open Mentioning

/-- A type that is read mentions the class it names. -/
theorem TypeToken.names_of_decode {descriptor : String} {names : List String} {token : TypeToken}
    (h : (decode descriptor).Yields names token) : names = token.classes := by
  unfold decode at h
  split at h
  · exact absurd h not_yields_fail
  · cases h
    rfl

/-- A class operand that is read mentions the class it names. -/
theorem TypeToken.names_of_decodeInternalName {name : String} {names : List String} {token : TypeToken}
    (h : (decodeInternalName name).Yields names token) : names = token.classes := by
  unfold decodeInternalName at h
  split at h
  · exact names_of_decode h
  · split at h
    · exact absurd h not_yields_fail
    · cases h
      rfl

/-- A signature that is read mentions the classes it names. -/
theorem MethodSignature.names_of_decode {descriptor : String} {names : List String} {signature : MethodSignature}
    (h : (decode descriptor).Yields names signature) : names = signature.classes := by
  unfold decode at h
  split at h
  · exact absurd h not_yields_fail
  · cases h
    rfl

/-! ## What the translation mentions -/

/-- Work that succeeds has mentioned, by their runtime names and in order, the classes that its result names. -/
def Mentioning.Tracks {α : Type} (naming : Naming) (named : α → List String) (work : Mentioning α) : Prop :=
  ∀ names a, work.Yields names a → names.map naming.strip = named a

namespace Naming

variable (naming : Naming)

/-- A class operand tracks the class that it names; so do the other operands. -/
theorem tracks_classToken (name : String) : Tracks naming TypeToken.classes (naming.classToken name) := by
  intro names token h
  obtain ⟨token, read, _, decoded, last, rfl⟩ := yields_bind.mp h
  obtain ⟨rfl, rfl⟩ := yields_pure.mp last
  rw [List.append_nil, TypeToken.names_of_decodeInternalName decoded, TypeToken.classes_mapNames]

theorem tracks_typeToken (descriptor : String) : Tracks naming TypeToken.classes (naming.typeToken descriptor) := by
  intro names token h
  obtain ⟨token, read, _, decoded, last, rfl⟩ := yields_bind.mp h
  obtain ⟨rfl, rfl⟩ := yields_pure.mp last
  rw [List.append_nil, TypeToken.names_of_decode decoded, TypeToken.classes_mapNames]

theorem tracks_methodSignature (descriptor : String) :
    Tracks naming MethodSignature.classes (naming.methodSignature descriptor) := by
  intro names signature h
  obtain ⟨signature, read, _, decoded, last, rfl⟩ := yields_bind.mp h
  obtain ⟨rfl, rfl⟩ := yields_pure.mp last
  rw [List.append_nil, MethodSignature.names_of_decode decoded, MethodSignature.classes_mapNames]

theorem tracks_callSignature (descriptor : String) :
    Tracks naming (fun signature => signature.parts.classes) (naming.callSignature descriptor) := by
  intro names signature h
  obtain ⟨parts, read, _, decoded, last, rfl⟩ := yields_bind.mp h
  obtain ⟨rfl, rfl⟩ := yields_pure.mp last
  rw [List.append_nil, tracks_methodSignature naming descriptor read parts decoded]

/-- A constant tracks the class of a class literal. -/
theorem tracks_literal (index : UInt16) (constant : Loadable) :
    Tracks naming Literal.classNames (naming.literal index constant) := by
  intro names literal h
  cases constant with
  | classRef name =>
    rw [Naming.literal] at h
    split at h
    · exact absurd h not_yields_fail
    · obtain ⟨runtimeName, given, rfl⟩ := yields_map.mp h
      cases given
      rfl
  | other kind => exact absurd h not_yields_fail
  | _ =>
    obtain ⟨rfl, rfl⟩ := yields_pure.mp h
    rfl

end Naming

/-- A mnemonic is that of its opcode, and mentions nothing. -/
theorem Opcode.yields_mnemonic {opcode : UInt8} {names : List String} {mnemonic : String}
    (h : (Opcode.mnemonic opcode).Yields names mnemonic) : names = [] ∧ mnemonic? opcode = some mnemonic := by
  unfold Opcode.mnemonic at h
  split at h
  · rename_i known found
    obtain ⟨rfl, rfl⟩ := yields_pure.mp h
    exact ⟨rfl, found⟩
  · exact absurd h not_yields_fail

/-- The instruction becomes the node, and its translation mentions the names listed: which operands are read, and what stands
in the node, for each kind of instruction. -/
inductive Instruction.Translated (naming : Naming) : Instruction → List String → Node → Prop
  | plain {opcode : UInt8} {mnemonic : String} (spelled : Opcode.mnemonic? opcode = some mnemonic) :
    Translated naming (.plain opcode) [] (.plain mnemonic)
  | int {opcode : UInt8} {mnemonic : String} {operand : Int} (spelled : Opcode.mnemonic? opcode = some mnemonic) :
    Translated naming (.int opcode operand) [] (.int mnemonic operand)
  | var {opcode : UInt8} {mnemonic : String} {slot : UInt16} (spelled : Opcode.mnemonic? opcode = some mnemonic) :
    Translated naming (.var opcode slot) [] (.var mnemonic slot)
  | type {opcode : UInt8} {mnemonic className : String} {names : List String} {token : TypeToken}
    (spelled : Opcode.mnemonic? opcode = some mnemonic) (read : (naming.classToken className).Yields names token) :
    Translated naming (.type opcode className) names (.type mnemonic token)
  | field {opcode : UInt8} {mnemonic ownerName name descriptor : String} {first second : List String}
    {owner token : TypeToken} (spelled : Opcode.mnemonic? opcode = some mnemonic)
    (owned : (naming.classToken ownerName).Yields first owner) (read : (naming.typeToken descriptor).Yields second token) :
    Translated naming (.field opcode ownerName name descriptor) (first ++ second) (.field mnemonic owner name token)
  | method {opcode : UInt8} {mnemonic ownerName name descriptor : String} {inInterface : Bool}
    {first second : List String} {owner : TypeToken} {signature : CallSignature}
    (spelled : Opcode.mnemonic? opcode = some mnemonic) (owned : (naming.classToken ownerName).Yields first owner)
    (read : (naming.callSignature descriptor).Yields second signature) :
    Translated naming (.method opcode ownerName name descriptor inInterface) (first ++ second)
      (.method mnemonic owner name signature inInterface)
  | jump {opcode : UInt8} {mnemonic : String} {target : Label} (spelled : Opcode.mnemonic? opcode = some mnemonic) :
    Translated naming (.jump opcode target) [] (.jump mnemonic target)
  | load {index : UInt16} {constant : Loadable} {names : List String} {literal : Literal}
    (given : (naming.literal index constant).Yields names literal) :
    Translated naming (.load index constant) names (.load literal)
  | increment {slot : UInt16} {amount : Int} : Translated naming (.increment slot amount) [] (.increment slot amount)
  | tableSwitch {low high : Int} {default : Label} {targets : List Label} :
    Translated naming (.tableSwitch low high default targets) [] (.tableSwitch low high default targets)
  | lookupSwitch {default : Label} {keys : List Int} {targets : List Label} :
    Translated naming (.lookupSwitch default keys targets) [] (.lookupSwitch default keys targets)
  | multiArray {descriptor : String} {dimensions : UInt8} {names : List String} {token : TypeToken}
    (read : (naming.typeToken descriptor).Yields names token) :
    Translated naming (.multiArray descriptor dimensions) names (.multiArray token dimensions)

/-- A translation that succeeds has read the operands of its kind of instruction. -/
theorem Instruction.translated {naming : Naming} {instruction : Instruction} {names : List String} {node : Node}
    (h : (instruction.translate naming).Yields names node) : instruction.Translated naming names node := by
  cases instruction with
  | plain | int | var | jump =>
    obtain ⟨mnemonic, _, _, named, last, rfl⟩ := yields_bind.mp h
    obtain ⟨rfl, spelled⟩ := Opcode.yields_mnemonic named
    obtain ⟨rfl, rfl⟩ := yields_pure.mp last
    constructor
    exact spelled
  | type opcode className =>
    obtain ⟨mnemonic, _, _, named, more, rfl⟩ := yields_bind.mp h
    obtain ⟨rfl, spelled⟩ := Opcode.yields_mnemonic named
    obtain ⟨token, first, _, read, last, rfl⟩ := yields_bind.mp more
    obtain ⟨rfl, rfl⟩ := yields_pure.mp last
    rw [List.nil_append, List.append_nil]
    exact .type spelled read
  | field opcode ownerName name descriptor =>
    obtain ⟨mnemonic, _, _, named, more, rfl⟩ := yields_bind.mp h
    obtain ⟨rfl, spelled⟩ := Opcode.yields_mnemonic named
    obtain ⟨owner, first, _, owned, rest, rfl⟩ := yields_bind.mp more
    obtain ⟨token, second, _, read, last, rfl⟩ := yields_bind.mp rest
    obtain ⟨rfl, rfl⟩ := yields_pure.mp last
    rw [List.nil_append, List.append_nil]
    exact .field spelled owned read
  | method opcode ownerName name descriptor inInterface =>
    obtain ⟨mnemonic, _, _, named, more, rfl⟩ := yields_bind.mp h
    obtain ⟨rfl, spelled⟩ := Opcode.yields_mnemonic named
    obtain ⟨owner, first, _, owned, rest, rfl⟩ := yields_bind.mp more
    obtain ⟨signature, second, _, read, last, rfl⟩ := yields_bind.mp rest
    obtain ⟨rfl, rfl⟩ := yields_pure.mp last
    rw [List.nil_append, List.append_nil]
    exact .method spelled owned read
  | load index constant =>
    obtain ⟨literal, given, rfl⟩ := yields_map.mp h
    exact .load given
  | increment | tableSwitch | lookupSwitch =>
    obtain ⟨rfl, rfl⟩ := yields_pure.mp h
    constructor
  | multiArray descriptor dimensions =>
    obtain ⟨token, first, _, read, last, rfl⟩ := yields_bind.mp h
    obtain ⟨rfl, rfl⟩ := yields_pure.mp last
    rw [List.append_nil]
    exact .multiArray read

/-- The node of an instruction names the classes that its translation mentions. -/
theorem Instruction.Translated.tracks {naming : Naming} {i : Instruction} {names : List String} {node : Node}
    (made : i.Translated naming names node) : names.map naming.strip = node.classNames := by
  cases made with
  | type _ read => exact naming.tracks_classToken _ _ _ read
  | field _ owned read =>
    rw [List.map_append, naming.tracks_classToken _ _ _ owned, naming.tracks_typeToken _ _ _ read]
    rfl
  | method _ owned read =>
    rw [List.map_append, naming.tracks_classToken _ _ _ owned, naming.tracks_callSignature _ _ _ read]
    rfl
  | load given => exact naming.tracks_literal _ _ _ _ given
  | multiArray read => exact naming.tracks_typeToken _ _ _ read
  | _ => rfl

/-- The event becomes the node, and its translation mentions the names listed. -/
inductive Event.Translated (naming : Naming) : Event → List String → Node → Prop
  | parameter {name : Option String} {flags : UInt16} {access : List AccessFlag}
    (decomposed : AccessSite.parameter.decompose flags.toNat = .ok access) :
    Translated naming (.parameter name flags) [] (.arg name access)
  | guard {start stop handler : Label} {catchType : Option String} :
    Translated naming (.guard start stop handler catchType) catchType.toList
      (.guard start stop handler (catchType.map naming.strip))
  | label {place : Label} : Translated naming (.label place) [] (.label place)
  | instruction {i : Instruction} {names : List String} {node : Node} (made : i.Translated naming names node) :
    Translated naming (.instruction i) names node
  | localVariable {name descriptor : String} {start stop : Label} {slot : UInt16} {names : List String} {token : TypeToken}
    (read : (naming.typeToken descriptor).Yields names token) :
    Translated naming (.localVariable name descriptor start stop slot) names (.declare name token slot start stop)
  | finish : Translated naming .finish [] .finish

/-- A translation that succeeds has read what its event refers to. -/
theorem Event.translated {naming : Naming} {event : Event} {names : List String} {node : Node}
    (h : (event.translate naming).Yields names node) : event.Translated naming names node := by
  cases event with
  | parameter name flags =>
    obtain ⟨access, _, _, checked, last, rfl⟩ := yields_bind.mp h
    obtain ⟨rfl, decomposed⟩ := yields_ofExcept.mp checked
    obtain ⟨rfl, rfl⟩ := yields_pure.mp last
    exact .parameter decomposed
  | guard start stop handler catchType =>
    cases catchType <;> cases h <;> exact .guard
  | label place =>
    cases h
    exact .label
  | instruction i => exact .instruction (i.translated h)
  | localVariable name descriptor start stop slot =>
    obtain ⟨token, first, _, read, last, rfl⟩ := yields_bind.mp h
    obtain ⟨rfl, rfl⟩ := yields_pure.mp last
    rw [List.append_nil]
    exact .localVariable read
  | finish =>
    cases h
    exact .finish

/-- The node of an event names the classes that its translation mentions. -/
theorem Event.tracks_translate (naming : Naming) (event : Event) :
    Tracks naming Node.classNames (event.translate naming) := by
  intro names node h
  cases translated h with
  | @guard _ _ _ catchType => cases catchType <;> rfl
  | instruction made => exact made.tracks
  | localVariable read => exact naming.tracks_typeToken _ _ _ read
  | _ => rfl

/-- The nodes of events are the results of translating them one after the other. -/
theorem Body.finished_ofEvents (naming : Naming) (events : List Event) :
    (ofEvents naming none events).finished = events.mapM (Event.translate naming) := by
  induction events with
  | nil => rfl
  | cons event rest ih =>
    rw [List.mapM_cons, ← ih]
    cases translated : event.translate naming with
    | mk mentions outcome =>
      cases outcome with
      | error e => simp [ofEvents, finished, translated, bind, andThen]
      | ok node =>
        cases failure : (ofEvents naming none rest).failure <;>
          simp [ofEvents, finished, translated, failure, bind, andThen, pure]

/-- A failure that is known before the first event is there after the last one. -/
theorem Body.failure_ofEvents (naming : Naming) (e : Error) (events : List Event) :
    (ofEvents naming (some e) events).failure.isSome = true := by
  induction events with
  | nil => rfl
  | cons event rest ih =>
    rw [ofEvents]
    cases (event.translate naming).outcome with
    | error e => rfl
    | ok node => exact ih

/-- A walk whose body is finished did not fail, and its nodes are those of its events. -/
theorem Body.finished_ofWalk {naming : Naming} {walk : Walk} {names : List String} {nodes : List Node}
    (h : (ofWalk naming walk).finished.Yields names nodes) :
    walk.failure = none ∧ (walk.events.mapM (Event.translate naming)).Yields names nodes := by
  unfold ofWalk at h
  cases failure : walk.failure with
  | none =>
    rw [failure, finished_ofEvents] at h
    exact ⟨rfl, h⟩
  | some e =>
    rw [failure] at h
    obtain ⟨known, failed⟩ := Option.isSome_iff_exists.mp (failure_ofEvents naming e walk.events)
    have ended := (yields_iff.mp h).2
    rw [finished, failed] at ended
    cases ended

/-- A finished body names the classes that its translation mentions. -/
theorem Body.tracks_finished (naming : Naming) (walk : Walk) :
    Tracks naming (List.flatMap Node.classNames) (ofWalk naming walk).finished := by
  intro names nodes h
  exact names_of_yields_mapM (Event.tracks_translate naming) (finished_ofWalk h).2

/-! ## Members -/

/-- The unit of a field names the classes that its translation mentions. -/
theorem FieldInfo.tracks_translate (naming : Naming) (pool : Pool) (field : FieldInfo) :
    Tracks naming (fun unit => unit.token.classes) (field.translate naming pool) := by
  intro names unit h
  obtain ⟨token, read, _, decoded, more, rfl⟩ := yields_bind.mp h
  obtain ⟨value, _, _, found, rest, rfl⟩ := yields_bind.mp more
  obtain ⟨rfl, -⟩ := yields_ofExcept.mp found
  obtain ⟨access, _, _, decomposed, last, rfl⟩ := yields_bind.mp rest
  obtain ⟨rfl, -⟩ := yields_ofExcept.mp decomposed
  obtain ⟨rfl, rfl⟩ := yields_pure.mp last
  simp only [List.append_nil]
  exact naming.tracks_typeToken field.descriptor read token decoded

/-- The implementation of a method tracks the classes of its nodes. -/
theorem MethodInfo.tracks_implementation (naming : Naming) (pool : Pool) (runtimeName : String) (method : MethodInfo) :
    Tracks naming Implementation.classNames (method.implementation naming pool runtimeName) := by
  intro names implementation h
  unfold MethodInfo.implementation at h
  split at h
  · obtain ⟨rfl, rfl⟩ := yields_pure.mp h
    rfl
  · obtain ⟨nodes, finished, rfl⟩ := yields_map.mp h
    exact Body.tracks_finished naming _ names nodes finished

/-- The unit of a method names the classes that its translation mentions. -/
theorem MethodInfo.tracks_translate (naming : Naming) (pool : Pool) (runtimeName : String) (method : MethodInfo) :
    Tracks naming MethodUnit.classNames (method.translate naming pool runtimeName) := by
  intro names unit h
  obtain ⟨signature, read, _, decoded, more, rfl⟩ := yields_bind.mp h
  obtain ⟨_, _, _, declared, rest, rfl⟩ := yields_bind.mp more
  obtain rfl := yields_mention.mp declared
  obtain ⟨access, _, _, decomposed, body, rfl⟩ := yields_bind.mp rest
  obtain ⟨rfl, -⟩ := yields_ofExcept.mp decomposed
  obtain ⟨implementation, inner, _, implemented, last, rfl⟩ := yields_bind.mp body
  obtain ⟨rfl, rfl⟩ := yields_pure.mp last
  simp only [List.nil_append, List.append_nil, List.map_append, MethodUnit.classNames, List.append_assoc,
    naming.tracks_methodSignature method.descriptor read signature decoded,
    method.tracks_implementation naming pool runtimeName inner implementation implemented]

namespace ClassFile

/-- What the translation of a class mentions, by runtime names, is what its head and the members of its unit name. -/
theorem tracks_members (naming : Naming) (file : ClassFile) :
    Tracks naming (fun members => (file.interfaces ++ file.superName.toList).map naming.strip ++
      members.1.flatMap (fun field => field.token.classes) ++ members.2.flatMap MethodUnit.classNames)
      (file.members naming) := by
  rintro names ⟨fieldUnits, methodUnits⟩ h
  obtain ⟨_, _, _, head, more, rfl⟩ := yields_bind.mp h
  obtain rfl := yields_mention.mp head
  obtain ⟨fields, first, _, translated, rest, rfl⟩ := yields_bind.mp more
  obtain ⟨methods, second, _, translated', last, rfl⟩ := yields_bind.mp rest
  obtain ⟨rfl, same⟩ := yields_pure.mp last
  cases same
  simp only [List.append_nil, List.map_append, List.append_assoc,
    names_of_yields_mapM (FieldInfo.tracks_translate naming file.pool) translated,
    names_of_yields_mapM (MethodInfo.tracks_translate naming file.pool (naming.strip file.name)) translated']

/-- A class that is translated: its members are, and the unit has its head and the references collected from its mentions. -/
theorem translate_eq_ok {naming : Naming} {file : ClassFile} {unit : ClassUnit} (h : file.translate naming = .ok unit) :
    ∃ names fields methods, (file.members naming).Yields names (fields, methods) ∧
      unit = ⟨file.name, file.superName, file.interfaces, fields, methods, collectReferences naming file.name names⟩ := by
  unfold translate at h
  cases outcome : (file.members naming).outcome with
  | error e =>
    simp only [outcome] at h
    cases h
  | ok members =>
    simp only [outcome] at h
    cases h
    exact ⟨_, _, _, yields_of_outcome outcome, rfl⟩

/-- The references of a unit are collected from mentions that have, as runtime names, the names that the unit mentions. -/
theorem references_of_translate {naming : Naming} {file : ClassFile} {unit : ClassUnit}
    (h : file.translate naming = .ok unit) :
    ∃ mentions, mentions.map naming.strip = unit.mentionedNames naming ∧
      unit.references = collectReferences naming unit.name mentions := by
  obtain ⟨mentions, fields, methods, members, rfl⟩ := translate_eq_ok h
  exact ⟨mentions, tracks_members naming file mentions _ members, rfl⟩

end ClassFile

end JvmUnits
