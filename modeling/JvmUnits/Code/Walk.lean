import JvmUnits.ClassFile.Basic
import JvmUnits.Code.Decode
import Std.Data.TreeSet

/-!
# Walking a method

A method as one list of events: its parameters, the ranges of its exception table, its instructions with a label in front of
every place that something refers to, its local variables, and the end. A walk that fails keeps the events before the failure.
-/

namespace JvmUnits

/-- A part of a method, in the order in which it is met. -/
inductive Event where
  | parameter (name : Option String) (flags : UInt16)
  | guard (start stop handler : Label) (catchType : Option String)
  | label (label : Label)
  | instruction (instruction : Instruction)
  | localVariable (name descriptor : String) (start stop : Label) (slot : UInt16)
  | finish
  deriving DecidableEq, Repr

/-- The events of a method, up to its end or to a failure. -/
structure Walk where
  events : List Event
  failure : Option Error
  deriving DecidableEq, Repr

namespace Walk

/-- A walk with more events in front. -/
def after (events : List Event) (walk : Walk) : Walk := ⟨events ++ walk.events, walk.failure⟩

/-- A walk that stops at once. -/
def failed (e : Error) : Walk := ⟨[], some e⟩

/-- Goes on with a value unless it is an error. -/
def andThen {α : Type} (value : Except Error α) (next : α → Walk) : Walk :=
  match value with
  | .error e => failed e
  | .ok a => next a

/-- The label at an offset that a table gives; the end of the code is a place too. -/
def mark (length : Nat) (offset : UInt16) : Except Error Label :=
  if length < offset.toNat then .error (.malformedClassFile (.offsetOutside offset.toNat length))
  else .ok ⟨offset.toNat⟩

/-- The event of a row of the exception table. -/
def guardEvent (length : Nat) (row : Handler) : Except Error Event := do
  let start ← mark length row.start
  let stop ← mark length row.stop
  let handler ← mark length row.handler
  .ok (.guard start stop handler row.catchType)

/-- The event of a local variable. -/
def localEvent (length : Nat) (row : LocalVariable) : Except Error Event := do
  let start ← mark length row.start
  let stop := row.start.toNat + row.length.toNat
  if length < stop then .error (.malformedClassFile (.localOutside row.name))
  else .ok (.localVariable row.name row.descriptor start ⟨stop⟩ row.slot)

end Walk

/-- The labels that an event refers to. -/
def Event.labels : Event → List Label
  | guard start stop handler _ => [start, stop, handler]
  | instruction i => i.targets
  | localVariable _ _ start stop _ => [start, stop]
  | _ => []

namespace Walk

/-- The offsets that some events refer to, in ascending order and each once. -/
def offsets (events : List Event) : List Nat :=
  (Std.TreeSet.ofList ((events.flatMap Event.labels).map Label.offset) compare).toList

/-- The error for a label that lies inside an instruction. -/
def misaligned (offset : Nat) : Error := .malformedClassFile (.misaligned (Label.name ⟨offset⟩))

/-- Labels after the last instruction: only the end of the code is left for them. -/
def trailingLabels (length : Nat) : List Nat → Walk
  | [] => ⟨[], none⟩
  | offset :: offsets =>
    if offset = length then (trailingLabels length offsets).after [.label ⟨offset⟩] else failed (misaligned offset)

/-- The instructions with a label in front of each one whose offset is listed. The offsets are in ascending order; one that
belongs to no instruction is refused where it is passed. -/
def weave (length : Nat) : List Nat → List (Nat × Instruction) → Walk
  | offsets, [] => trailingLabels length offsets
  | [], (_, instruction) :: rest => (weave length [] rest).after [.instruction instruction]
  | offset :: offsets, (place, instruction) :: rest =>
    if offset < place then failed (misaligned offset)
    else if offset = place then
      (weave length offsets rest).after [.label ⟨offset⟩, .instruction instruction]
    else (weave length (offset :: offsets) rest).after [.instruction instruction]

/-- A walk followed by more events, which are reached only if it does not fail. -/
def before (walk : Walk) (events : List Event) : Walk :=
  match walk.failure with
  | none => ⟨walk.events ++ events, none⟩
  | some e => ⟨walk.events, some e⟩

/-- Walks the code of a method. All instructions are decoded and all tables are checked before the first event. -/
def ofCode (pool : Pool) (code : CodeInfo) : Walk :=
  let length := code.bytes.length
  andThen (Instruction.decodeAll pool code.bytes) fun instructions =>
    andThen (code.handlers.mapM (guardEvent length)) fun guards =>
      andThen (code.locals.mapM (localEvent length)) fun locals =>
        let referring := guards ++ instructions.map (fun placed => .instruction placed.2) ++ locals
        ((weave length (offsets referring) instructions).before (locals ++ [.finish])).after guards

/-- Walks a method. -/
def ofMethod (pool : Pool) (method : MethodInfo) : Walk :=
  let parameters := method.parameters.map fun parameter => Event.parameter parameter.name parameter.flags
  let body : Walk := match method.code with
    | none => ⟨[.finish], none⟩
    | some code => ofCode pool code
  body.after parameters

end Walk

end JvmUnits
