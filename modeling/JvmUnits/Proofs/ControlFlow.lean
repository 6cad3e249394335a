import JvmUnits.Proofs.ClassNames
import JvmUnits.Proofs.Labels
import Mathlib.Data.List.Nodup

/-!
# Control flow of a unit

The nodes of a method keep the control flow of its code: the tables stand around the body row by row, the body has one node for
each instruction of the code array, every label that is used is defined once, and behind a label stands the node of the
instruction at its offset (`ClassFile.flow_of_translate`). What the labels look like is settled for the events of a walk
(`Walk.events_of_ofCode`); translating events one by one keeps it.
-/

namespace JvmUnits

open Mentioning

namespace Node

/-- The label that a node defines. -/
def label? : Node → Option Label
  | label place => some place
  | _ => none

/-- The labels that a node uses. -/
def labels : Node → List Label
  | guard start stop handler _ => [start, stop, handler]
  | jump _ target => [target]
  | tableSwitch _ _ default targets => targets ++ [default]
  | lookupSwitch default _ targets => targets ++ [default]
  | declare _ _ _ start stop => [start, stop]
  | _ => []

/-- The node is that of an instruction. -/
def isCode : Node → Bool
  | arg .. | guard .. | label .. | declare .. | finish => false
  | _ => true

@[simp] theorem label?_label (place : Label) : (label place).label? = some place := rfl

/-- Code is no label. -/
theorem label?_of_isCode {node : Node} (code : node.isCode = true) : node.label? = none := by
  cases node with
  | label place => cases code
  | _ => rfl

theorem ne_finish_of_isCode {node : Node} (code : node.isCode = true) : node ≠ .finish := by
  rintro rfl
  cases code

end Node

/-! ## Nodes with labels -/

section

variable {offsets : List Nat} {length : Nat} {placed : List (Nat × Node)}

/-- What stands among labels is a label, or one of the nodes that were placed. -/
theorem mem_labelled {node : Node} (mem : node ∈ labelled Node.label offsets length placed) :
    (∃ place, node = .label place) ∨ node ∈ placed.map Prod.snd := by
  induction placed with
  | nil =>
    rw [labelled] at mem
    split at mem
    · exact Or.inl ⟨_, List.mem_singleton.mp mem⟩
    · exact absurd mem List.not_mem_nil
  | cons entry rest ih =>
    rw [labelled] at mem
    split at mem
    · rcases List.mem_cons.mp mem with rfl | mem
      · exact Or.inl ⟨_, rfl⟩
      · rcases List.mem_cons.mp mem with rfl | mem
        · exact Or.inr List.mem_cons_self
        · exact (ih mem).imp_right (List.mem_cons_of_mem _)
    · rcases List.mem_cons.mp mem with rfl | mem
      · exact Or.inr List.mem_cons_self
      · exact (ih mem).imp_right (List.mem_cons_of_mem _)

/-- Without the labels the items are left. -/
theorem filter_labelled (code : ∀ entry ∈ placed, entry.2.isCode = true) :
    (labelled Node.label offsets length placed).filter (fun node => node.label?.isNone) = placed.map Prod.snd := by
  induction placed with
  | nil =>
    rw [labelled]
    split <;> rfl
  | cons entry rest ih =>
    have kept := Node.label?_of_isCode (code entry List.mem_cons_self)
    have later := ih fun entry mem => code entry (List.mem_cons_of_mem _ mem)
    rw [labelled]
    split <;> simp [kept, later]

/-- The labels that are defined are those of the marked places and of a marked end. -/
theorem filterMap_labelled (code : ∀ entry ∈ placed, entry.2.isCode = true) :
    (labelled Node.label offsets length placed).filterMap Node.label? =
      ((placed.map Prod.fst ++ [length]).filter (· ∈ offsets)).map Label.mk := by
  induction placed with
  | nil =>
    rw [labelled]
    by_cases marked : length ∈ offsets <;> simp [marked]
  | cons entry rest ih =>
    have kept := Node.label?_of_isCode (code entry List.mem_cons_self)
    have later := ih fun entry mem => code entry (List.mem_cons_of_mem _ mem)
    rw [labelled]
    by_cases marked : entry.1 ∈ offsets <;> simp [marked, kept, later]

/-- Labels use no labels. -/
theorem flatMap_labels_labelled :
    (labelled Node.label offsets length placed).flatMap Node.labels = (placed.map Prod.snd).flatMap Node.labels := by
  induction placed with
  | nil =>
    rw [labelled]
    split <;> rfl
  | cons entry rest ih =>
    rw [labelled]
    split
    · rw [List.flatMap_cons, List.flatMap_cons, ih]
      rfl
    · rw [List.flatMap_cons, ih]
      rfl

/-- Behind a label stands the node that is placed at its offset, or the label is that of the end and the last of all. -/
theorem next_of_labelled (code : ∀ entry ∈ placed, entry.2.isCode = true) {front back : List Node} {place : Label}
    (shape : labelled Node.label offsets length placed = front ++ .label place :: back) :
    (∃ before node after rest, placed = before ++ (place.offset, node) :: after ∧ back = node :: rest ∧
        front.filter (fun node => node.label?.isNone) = before.map Prod.snd) ∨
      place.offset = length ∧ back = [] := by
  induction placed generalizing front with
  | nil =>
    rw [labelled] at shape
    split at shape
    · obtain ⟨rfl, last⟩ := List.append_eq_singleton_iff.mp shape.symm |>.resolve_right (by simp)
      cases last
      exact Or.inr ⟨rfl, rfl⟩
    · simp at shape
  | cons entry rest ih =>
    obtain ⟨offset, item⟩ := entry
    have kept : item.label? = none := Node.label?_of_isCode (code _ List.mem_cons_self)
    have differs : item ≠ .label place := by
      rintro rfl
      cases kept
    -- What is found behind the first item is found from the first item on.
    have later : ∀ front, labelled Node.label offsets length rest = front ++ .label place :: back →
        (∃ before node after tail, (offset, item) :: rest = before ++ (place.offset, node) :: after ∧ back = node :: tail ∧
          item :: front.filter (fun node => node.label?.isNone) = before.map Prod.snd) ∨
        place.offset = length ∧ back = [] := by
      intro front shape
      refine (ih (fun entry mem => code entry (List.mem_cons_of_mem _ mem)) shape).imp_left ?_
      rintro ⟨before, node, after, tail, rfl, behind, same⟩
      exact ⟨(offset, item) :: before, node, after, tail, rfl, behind, by rw [same, List.map_cons]⟩
    rw [labelled] at shape
    split at shape
    · rcases front with _ | ⟨first, _ | ⟨second, front⟩⟩
      · cases shape
        exact Or.inl ⟨[], item, rest, _, rfl, rfl, rfl⟩
      · exact absurd (List.cons.inj (List.cons.inj shape).2).1 differs
      · obtain ⟨rfl, inner⟩ := List.cons.inj shape
        obtain ⟨rfl, behind⟩ := List.cons.inj inner
        simpa [kept] using later front behind
    · rcases front with _ | ⟨first, front⟩
      · exact absurd (List.cons.inj shape).1 differs
      · obtain ⟨rfl, behind⟩ := List.cons.inj shape
        simpa [kept] using later front behind

end

/-! ## Nodes of events -/

/-- The node of an instruction is a code node, and uses the labels that the instruction may go on at. -/
theorem Instruction.Translated.labels {naming : Naming} {i : Instruction} {names : List String} {node : Node}
    (made : i.Translated naming names node) : node.labels = i.targets ∧ node.isCode = true := by
  cases made with
  | _ => exact ⟨rfl, rfl⟩

/-- The node is that of the event. -/
def Event.Becomes (naming : Naming) (event : Event) (node : Node) : Prop := (event.translate naming).outcome = .ok node

namespace Event

variable {naming : Naming} {node : Node}

/-- What becomes a node has been translated. -/
theorem Becomes.translated {event : Event} (h : event.Becomes naming node) : ∃ names, event.Translated naming names node :=
  ⟨_, Event.translated (yields_of_outcome h)⟩

/-- A parameter becomes an argument with the flags of its word. -/
theorem becomes_parameter {name : Option String} {flags : UInt16} (h : (parameter name flags).Becomes naming node) :
    ∃ access, AccessSite.parameter.decompose flags.toNat = .ok access ∧ node = .arg name access := by
  obtain ⟨names, made⟩ := h.translated
  cases made with
  | parameter decomposed => exact ⟨_, decomposed, rfl⟩

/-- A guarded range becomes one with the runtime name of the class that is caught. -/
theorem becomes_guard {start stop handler : Label} {catchType : Option String}
    (h : (guard start stop handler catchType).Becomes naming node) :
    node = .guard start stop handler (catchType.map naming.strip) := by
  obtain ⟨names, made⟩ := h.translated
  cases made
  rfl

theorem becomes_label {place : Label} (h : (label place).Becomes naming node) : node = .label place := by
  obtain ⟨names, made⟩ := h.translated
  cases made
  rfl

/-- A local variable becomes a declaration with the type of its descriptor. -/
theorem becomes_localVariable {name descriptor : String} {start stop : Label} {slot : UInt16}
    (h : (localVariable name descriptor start stop slot).Becomes naming node) :
    ∃ token, (naming.typeToken descriptor).outcome = .ok token ∧ node = .declare name token slot start stop := by
  obtain ⟨names, made⟩ := h.translated
  cases made with
  | localVariable read => exact ⟨_, (yields_iff.mp read).2, rfl⟩

theorem becomes_finish (h : finish.Becomes naming node) : node = .finish := by
  obtain ⟨names, made⟩ := h.translated
  cases made
  rfl

/-- The node of an event uses the labels that the event refers to. -/
theorem labels_of_becomes {event : Event} (h : event.Becomes naming node) : node.labels = event.labels := by
  obtain ⟨names, made⟩ := h.translated
  cases made with
  | instruction made => exact made.labels.1
  | _ => rfl

/-- The nodes of events use the labels that the events refer to. -/
theorem flatMap_labels_of_becomes {events : List Event} {nodes : List Node}
    (h : List.Forall₂ (Becomes naming) events nodes) : nodes.flatMap Node.labels = events.flatMap labels := by
  induction h with
  | nil => rfl
  | cons first _ ih => rw [List.flatMap_cons, List.flatMap_cons, labels_of_becomes first, ih]

end Event

/-- Events with labels become nodes with the same labels. -/
theorem labelled_of_becomes {naming : Naming} {offsets : List Nat} {length : Nat} {items : List (Nat × Event)}
    {nodes : List Node} (h : List.Forall₂ (Event.Becomes naming) (labelled Event.label offsets length items) nodes) :
    ∃ placed, nodes = labelled Node.label offsets length placed ∧
      List.Forall₂ (fun item entry => entry.1 = item.1 ∧ item.2.Becomes naming entry.2) items placed := by
  induction items generalizing nodes with
  | nil =>
    refine ⟨[], ?_, .nil⟩
    rw [labelled] at h ⊢
    split at h
    · rename_i marked
      obtain ⟨node, _, becomes, rest, rfl⟩ := List.forall₂_cons_left_iff.mp h
      rw [if_pos marked, Event.becomes_label becomes, List.forall₂_nil_left_iff.mp rest]
    · rename_i unmarked
      rw [if_neg unmarked, List.forall₂_nil_left_iff.mp h]
  | cons item rest ih =>
    rw [labelled] at h
    split at h
    · rename_i marked
      obtain ⟨label, _, first, more, rfl⟩ := List.forall₂_cons_left_iff.mp h
      obtain ⟨node, _, second, others, rfl⟩ := List.forall₂_cons_left_iff.mp more
      obtain ⟨placed, rfl, each⟩ := ih others
      refine ⟨(item.1, node) :: placed, ?_, .cons ⟨rfl, second⟩ each⟩
      rw [labelled, if_pos marked, Event.becomes_label first]
    · rename_i unmarked
      obtain ⟨node, _, first, others, rfl⟩ := List.forall₂_cons_left_iff.mp h
      obtain ⟨placed, rfl, each⟩ := ih others
      refine ⟨(item.1, node) :: placed, ?_, .cons ⟨rfl, first⟩ each⟩
      rw [labelled, if_neg unmarked]

/-! ## Methods -/

/-- What two lists become, one behind the other, can be divided again. -/
theorem exists_append_of_forall₂ {α β : Type} {related : α → β → Prop} {first second : List α} {results : List β}
    (h : List.Forall₂ related (first ++ second) results) :
    ∃ left right, results = left ++ right ∧ List.Forall₂ related first left ∧ List.Forall₂ related second right := by
  induction first generalizing results with
  | nil => exact ⟨[], results, rfl, .nil, h⟩
  | cons item rest ih =>
    obtain ⟨result, _, here, later, rfl⟩ := List.forall₂_cons_left_iff.mp h
    obtain ⟨left, right, rfl, firsts, seconds⟩ := ih later
    exact ⟨result :: left, right, rfl, .cons here firsts, seconds⟩

theorem exists_of_mem_of_forall₂ {α β : Type} {related : α → β → Prop} {items : List α} {results : List β}
    (h : List.Forall₂ related items results) {result : β} (mem : result ∈ results) : ∃ item, related item result := by
  induction h with
  | nil => cases mem
  | @cons item _ _ _ here _ ih =>
    rcases List.mem_cons.mp mem with rfl | mem
    · exact ⟨item, here⟩
    · exact ih mem

/-- The parts of the nodes of a method that has code. -/
structure BodyParts where
  args : List Node
  guards : List Node
  body : List Node
  declares : List Node

namespace BodyParts

/-- All nodes of a method. -/
def nodes (parts : BodyParts) : List Node :=
  parts.args ++ (parts.guards ++ (parts.body ++ (parts.declares ++ [.finish])))

/-- The names of the labels that the nodes of a method define. -/
def definedNames (parts : BodyParts) : List String := (parts.nodes.filterMap Node.label?).map Label.name

/-- The names of the labels that the nodes of a method use. -/
def usedNames (parts : BodyParts) : List String := (parts.nodes.flatMap Node.labels).map Label.name

/-- What the nodes of a method keep of its tables and of its code. The nodes of the instructions are given with the offsets of
the instructions. -/
structure Keeps (parts : BodyParts) (naming : Naming) (pool : Pool) (method : MethodInfo) (code : CodeInfo)
    (placed : List (Nat × Node)) : Prop where
  args : List.Forall₂ (fun row node => ∃ access, AccessSite.parameter.decompose row.flags.toNat = .ok access ∧
    node = .arg row.name access) method.parameters parts.args
  guards : List.Forall₂ (fun row node => node =
    .guard ⟨row.start.toNat⟩ ⟨row.stop.toNat⟩ ⟨row.handler.toNat⟩ (row.catchType.map naming.strip)) code.handlers parts.guards
  declares : List.Forall₂ (fun row node => ∃ token, (naming.typeToken row.descriptor).outcome = .ok token ∧
    node = .declare row.name token row.slot ⟨row.start.toNat⟩ ⟨row.start.toNat + row.length.toNat⟩) code.locals parts.declares
  /-- the end is there once -/
  finish : parts.nodes.count .finish = 1
  /-- one node for each instruction of the code array, in the order of the offsets, with the targets of the instruction -/
  instructions : ∃ decoded, Instruction.Linear pool code.bytes 0 decoded ∧
    List.Forall₂ (fun instruction node => node.1 = instruction.1 ∧
      (instruction.2.translate naming).outcome = .ok node.2 ∧ node.2.labels = instruction.2.targets) decoded placed
  ascending : (placed.map Prod.fst).Pairwise (· < ·)
  /-- the body without labels -/
  body : parts.body.filter (fun node => node.label?.isNone) = placed.map Prod.snd
  /-- a label that is used is defined once -/
  defined : ∀ name ∈ parts.usedNames, parts.definedNames.count name = 1
  used : ∀ name ∈ parts.definedNames, name ∈ parts.usedNames
  /-- behind a label stands the node of the instruction at its offset, with the nodes of the earlier instructions in front of
  the label; or the label is that of the end of the code, and the last of the body -/
  next : ∀ front place back, parts.body = front ++ .label place :: back →
    (∃ before node after rest, placed = before ++ (place.offset, node) :: after ∧ back = node :: rest ∧
        front.filter (fun node => node.label?.isNone) = before.map Prod.snd) ∨
      place.offset = code.bytes.length ∧ back = []

variable {parts : BodyParts}

/-- Only the body defines labels. -/
theorem filterMap_label?_nodes
    (tables : ∀ node, node ∈ parts.args ∨ node ∈ parts.guards ∨ node ∈ parts.declares → node.label? = none) :
    parts.nodes.filterMap Node.label? = parts.body.filterMap Node.label? := by
  have args : parts.args.filterMap Node.label? = [] :=
    List.filterMap_eq_nil_iff.mpr fun node mem => tables node (Or.inl mem)
  have guards : parts.guards.filterMap Node.label? = [] :=
    List.filterMap_eq_nil_iff.mpr fun node mem => tables node (Or.inr (Or.inl mem))
  have declares : parts.declares.filterMap Node.label? = [] :=
    List.filterMap_eq_nil_iff.mpr fun node mem => tables node (Or.inr (Or.inr mem))
  simp only [nodes, List.filterMap_append, args, guards, declares, List.nil_append]
  exact List.append_nil _

/-- The end is there once if it is in no part. -/
theorem count_finish_nodes (args : Node.finish ∉ parts.args) (guards : Node.finish ∉ parts.guards)
    (body : Node.finish ∉ parts.body) (declares : Node.finish ∉ parts.declares) : parts.nodes.count .finish = 1 := by
  simp [nodes, List.count_append, List.count_eq_zero.mpr args, List.count_eq_zero.mpr guards,
    List.count_eq_zero.mpr body, List.count_eq_zero.mpr declares]

/-- If the labels that are used are those of the marked offsets, and each of these is a place or the end, then the labels that
are used are those that are defined, each once. -/
theorem names_of_labelled {offsets : List Nat} {length : Nat} {placed : List (Nat × Node)}
    (defines : parts.nodes.filterMap Node.label? = ((placed.map Prod.fst ++ [length]).filter (· ∈ offsets)).map Label.mk)
    (uses : ∀ offset, ⟨offset⟩ ∈ parts.nodes.flatMap Node.labels ↔ offset ∈ offsets)
    (ascending : (placed.map Prod.fst).Pairwise (· < ·)) (inside : ∀ place ∈ placed.map Prod.fst, place < length)
    (found : ∀ offset ∈ offsets, offset ∈ placed.map Prod.fst ∨ offset = length) :
    (∀ name ∈ parts.usedNames, parts.definedNames.count name = 1) ∧ ∀ name ∈ parts.definedNames, name ∈ parts.usedNames := by
  have distinct : (placed.map Prod.fst ++ [length]).Nodup := by
    refine List.Pairwise.imp Nat.ne_of_lt (List.pairwise_append.mpr ⟨ascending, List.pairwise_singleton _ _, ?_⟩)
    intro place mem stop last
    rw [List.mem_singleton.mp last]
    exact inside place mem
  have nodup : parts.definedNames.Nodup := by
    rw [definedNames, defines, List.map_map]
    refine (distinct.filter _).map (Label.name_injective.comp ?_)
    intro first second same
    exact congrArg Label.offset same
  have same : ∀ label, label ∈ parts.nodes.filterMap Node.label? ↔ label ∈ parts.nodes.flatMap Node.labels := by
    rintro ⟨offset⟩
    rw [uses, defines]
    simp only [List.mem_map, List.mem_filter, List.mem_append, List.mem_singleton, decide_eq_true_eq]
    constructor
    · rintro ⟨_, ⟨_, marked⟩, same⟩
      cases same
      exact marked
    · intro marked
      exact ⟨offset, ⟨by simpa using found offset marked, marked⟩, rfl⟩
  constructor
  · intro name mem
    obtain ⟨label, uses, rfl⟩ := List.mem_map.mp mem
    exact List.count_eq_one_of_mem nodup (List.mem_map_of_mem ((same label).mpr uses))
  · intro name mem
    obtain ⟨label, defines, rfl⟩ := List.mem_map.mp mem
    exact List.mem_map_of_mem ((same label).mp defines)

/-- The parts are what the events of a method become, in this order: parameters, rows of the exception table, instructions with
labels, and local variables. -/
structure Translates (parts : BodyParts) (naming : Naming) (method : MethodInfo) (code : CodeInfo)
    (decoded : List (Nat × Instruction)) (placed : List (Nat × Node)) : Prop where
  args : List.Forall₂ (Event.Becomes naming) (method.parameters.map fun row => .parameter row.name row.flags) parts.args
  guards : List.Forall₂ (Event.Becomes naming) (code.handlers.map Handler.event) parts.guards
  body : parts.body = labelled Node.label (Walk.offsets (code.referring decoded)) code.bytes.length placed
  instructions : List.Forall₂ (fun instruction node => node.1 = instruction.1 ∧
    (instruction.2.translate naming).outcome = .ok node.2) decoded placed
  declares : List.Forall₂ (Event.Becomes naming) (code.locals.map LocalVariable.event) parts.declares

namespace Translates

variable {naming : Naming} {pool : Pool} {method : MethodInfo} {code : CodeInfo} {decoded : List (Nat × Instruction)}
  {placed : List (Nat × Node)}

/-- The nodes that are placed are code. -/
theorem isCode (h : parts.Translates naming method code decoded placed) : ∀ entry ∈ placed, entry.2.isCode = true := by
  intro entry mem
  obtain ⟨_, _, translated⟩ := exists_of_mem_of_forall₂ h.instructions mem
  exact (Instruction.translated (yields_of_outcome translated)).labels.2

/-- The nodes are placed where the instructions are. -/
theorem places (h : parts.Translates naming method code decoded placed) :
    decoded.map Prod.fst = placed.map Prod.fst := by
  have equal : List.Forall₂ Eq (decoded.map Prod.fst) (placed.map Prod.fst) :=
    List.forall₂_map_left_iff.mpr (List.forall₂_map_right_iff.mpr (h.instructions.imp fun _ _ same => same.1.symm))
  rwa [List.forall₂_eq_eq_eq] at equal

/-- No row of a table becomes a label or the end. -/
theorem plain (h : parts.Translates naming method code decoded placed) :
    ∀ node, node ∈ parts.args ∨ node ∈ parts.guards ∨ node ∈ parts.declares → node.label? = none ∧ node ≠ .finish := by
  rintro node (mem | mem | mem)
  · obtain ⟨row, becomes⟩ := exists_of_mem_of_forall₂ (List.forall₂_map_left_iff.mp h.args) mem
    obtain ⟨_, -, rfl⟩ := Event.becomes_parameter becomes
    exact ⟨rfl, nofun⟩
  · obtain ⟨row, becomes⟩ := exists_of_mem_of_forall₂ (List.forall₂_map_left_iff.mp h.guards) mem
    rw [Event.becomes_guard becomes]
    exact ⟨rfl, nofun⟩
  · obtain ⟨row, becomes⟩ := exists_of_mem_of_forall₂ (List.forall₂_map_left_iff.mp h.declares) mem
    obtain ⟨_, -, rfl⟩ := Event.becomes_localVariable becomes
    exact ⟨rfl, nofun⟩

/-- A body has one last node. -/
theorem count_finish (h : parts.Translates naming method code decoded placed) : parts.nodes.count .finish = 1 := by
  refine count_finish_nodes (fun mem => (h.plain _ (Or.inl mem)).2 rfl) (fun mem => (h.plain _ (Or.inr (Or.inl mem))).2 rfl)
    (fun mem => ?_) (fun mem => (h.plain _ (Or.inr (Or.inr mem))).2 rfl)
  rw [h.body] at mem
  rcases mem_labelled mem with ⟨place, same⟩ | mem
  · cases same
  · obtain ⟨entry, found, same⟩ := List.mem_map.mp mem
    exact Node.ne_finish_of_isCode (h.isCode entry found) same

/-- The labels that are used are those that the tables and the instructions refer to. -/
theorem labels_nodes (h : parts.Translates naming method code decoded placed) :
    parts.nodes.flatMap Node.labels = (code.referring decoded).flatMap Event.labels := by
  have args : parts.args.flatMap Node.labels = [] := by
    rw [Event.flatMap_labels_of_becomes h.args, List.flatMap_map]
    exact List.flatMap_eq_nil_iff.mpr fun _ _ => rfl
  have body : parts.body.flatMap Node.labels =
      (decoded.map fun instruction => Event.instruction instruction.2).flatMap Event.labels := by
    have becomes : List.Forall₂ (Event.Becomes naming) (decoded.map fun instruction => .instruction instruction.2)
        (placed.map Prod.snd) :=
      List.forall₂_map_left_iff.mpr (List.forall₂_map_right_iff.mpr (h.instructions.imp fun _ _ same => same.2))
    rw [h.body, flatMap_labels_labelled, Event.flatMap_labels_of_becomes becomes]
  simp only [nodes, List.flatMap_append, args, body, Event.flatMap_labels_of_becomes h.guards,
    Event.flatMap_labels_of_becomes h.declares, CodeInfo.referring, List.nil_append, List.append_assoc]
  exact congrArg _ (congrArg _ (List.append_nil _))

/-- Parts that the events of a method become keep its tables and its code, if all that is referred to has a place. -/
theorem keeps (h : parts.Translates naming method code decoded placed) (linear : Instruction.Linear pool code.bytes 0 decoded)
    (found : ∀ offset ∈ Walk.offsets (code.referring decoded), offset ∈ decoded.map Prod.fst ∨ offset = code.bytes.length) :
    parts.Keeps naming pool method code placed := by
  have ascending := linear.ascending
  have inside : ∀ place ∈ decoded.map Prod.fst, place < code.bytes.length := fun place mem => (linear.bounds place mem).2
  rw [h.places] at ascending inside found
  have defines : parts.nodes.filterMap Node.label? = ((placed.map Prod.fst ++ [code.bytes.length]).filter
      (· ∈ Walk.offsets (code.referring decoded))).map Label.mk := by
    rw [filterMap_label?_nodes fun node mem => (h.plain node mem).1, h.body, filterMap_labelled h.isCode]
  have uses : ∀ offset, ⟨offset⟩ ∈ parts.nodes.flatMap Node.labels ↔ offset ∈ Walk.offsets (code.referring decoded) := by
    intro offset
    rw [h.labels_nodes, Walk.mem_offsets]
  obtain ⟨defined, used⟩ := names_of_labelled defines uses ascending inside found
  refine
    { args := (List.forall₂_map_left_iff.mp h.args).imp fun _ _ becomes => Event.becomes_parameter becomes
      guards := (List.forall₂_map_left_iff.mp h.guards).imp fun _ _ becomes => Event.becomes_guard becomes
      declares := (List.forall₂_map_left_iff.mp h.declares).imp fun _ _ becomes => Event.becomes_localVariable becomes
      finish := h.count_finish
      instructions := ⟨decoded, linear, h.instructions.imp fun _ _ same =>
        ⟨same.1, same.2, (Instruction.translated (yields_of_outcome same.2)).labels.1⟩⟩
      ascending, defined, used
      body := ?_
      next := ?_ }
  · rw [h.body, filter_labelled h.isCode]
  · intro front place back shape
    rw [h.body] at shape
    exact next_of_labelled h.isCode shape

end Translates

end BodyParts

/-- The nodes of a walk over a method with code keep its tables and its code. -/
theorem Walk.keeps_of_becomes {naming : Naming} {pool : Pool} {method : MethodInfo} {code : CodeInfo} {nodes : List Node}
    (given : method.code = some code) (walked : (ofMethod pool method).failure = none)
    (becomes : List.Forall₂ (Event.Becomes naming) (ofMethod pool method).events nodes) :
    ∃ parts placed, nodes = BodyParts.nodes parts ∧ parts.Keeps naming pool method code placed := by
  unfold ofMethod at walked becomes
  simp only [given, failure_after, events_after] at walked becomes
  obtain ⟨decoded, linear, events, found⟩ := events_of_ofCode walked
  rw [events] at becomes
  obtain ⟨args, _, rfl, argsBecome, more⟩ := exists_append_of_forall₂ becomes
  obtain ⟨guards, _, rfl, guardsBecome, rest⟩ := exists_append_of_forall₂ more
  obtain ⟨body, _, rfl, bodyBecomes, tail⟩ := exists_append_of_forall₂ rest
  obtain ⟨declares, _, rfl, declaresBecome, last⟩ := exists_append_of_forall₂ tail
  obtain ⟨_, _, ends, nothing, rfl⟩ := List.forall₂_cons_left_iff.mp last
  obtain rfl := List.forall₂_nil_left_iff.mp nothing
  obtain rfl := Event.becomes_finish ends
  obtain ⟨placed, rfl, each⟩ := labelled_of_becomes bodyBecomes
  have translates : BodyParts.Translates ⟨args, guards, _, declares⟩ naming method code decoded placed :=
    ⟨argsBecome, guardsBecome, rfl, List.forall₂_map_left_iff.mp each, declaresBecome⟩
  exact ⟨_, placed, rfl, translates.keeps linear found⟩

/-! ## Classes -/

/-- The unit of a method has the implementation that its translation yields. -/
theorem MethodInfo.implementation_of_translate {naming : Naming} {pool : Pool} {runtimeName : String} {method : MethodInfo}
    {names : List String} {unit : MethodUnit} (h : (method.translate naming pool runtimeName).Yields names unit) :
    ∃ inner, (method.implementation naming pool runtimeName).Yields inner unit.implementation := by
  obtain ⟨signature, _, _, _, more, _⟩ := yields_bind.mp h
  obtain ⟨_, _, _, _, rest, _⟩ := yields_bind.mp more
  obtain ⟨access, _, _, _, body, _⟩ := yields_bind.mp rest
  obtain ⟨implementation, inner, _, implemented, last, _⟩ := yields_bind.mp body
  obtain ⟨-, rfl⟩ := yields_pure.mp last
  exact ⟨inner, implemented⟩

/-- The unit of a native method names a file; that of any other method has a node for each event of the method. -/
theorem MethodInfo.implementation_cases {naming : Naming} {pool : Pool} {runtimeName : String} {method : MethodInfo}
    {names : List String} {unit : MethodUnit} (h : (method.translate naming pool runtimeName).Yields names unit) :
    (isNativeWord method.flags.toNat = true ∧ unit.implementation = .native (runtimeName ++ nativeEnding)) ∨
      (isNativeWord method.flags.toNat = false ∧ ∃ nodes, unit.implementation = .nodes nodes ∧
        (Walk.ofMethod pool method).failure = none ∧
        List.Forall₂ (Event.Becomes naming) (Walk.ofMethod pool method).events nodes) := by
  obtain ⟨inner, implemented⟩ := implementation_of_translate h
  unfold implementation at implemented
  split at implemented
  · rename_i native
    exact .inl ⟨native, (yields_pure.mp implemented).2⟩
  · rename_i own
    obtain ⟨nodes, finished, same⟩ := yields_map.mp implemented
    obtain ⟨walked, events⟩ := Body.finished_ofWalk finished
    refine .inr ⟨Bool.eq_false_iff.mpr own, nodes, same, walked, (forall₂_of_yields_mapM events).imp ?_⟩
    rintro event node ⟨_, yields⟩
    exact (yields_iff.mp yields).2

namespace ClassFile

variable {naming : Naming} {file : ClassFile} {unit : ClassUnit}

/-- The methods of a unit are those of the class, in the same order. -/
theorem methods_of_translate (translated : file.translate naming = .ok unit) :
    List.Forall₂ (fun method methodUnit =>
      ∃ names, (method.translate naming file.pool (naming.strip file.name)).Yields names methodUnit) file.methods unit.methods := by
  obtain ⟨names, fields, methods, members, rfl⟩ := translate_eq_ok translated
  obtain ⟨_, _, _, _, more, _⟩ := yields_bind.mp members
  obtain ⟨_, _, _, _, rest, _⟩ := yields_bind.mp more
  obtain ⟨found, _, _, each, last, _⟩ := yields_bind.mp rest
  obtain ⟨-, same⟩ := yields_pure.mp last
  cases same
  exact forall₂_of_yields_mapM each

/-- In a class that is translated, the nodes of every method that has code and is not native are those of its parameters, of the
rows of its exception table, of its body and of its local variables, and the end; and they keep the control flow of the code. -/
theorem flow_of_translate (translated : file.translate naming = .ok unit) :
    List.Forall₂ (fun method methodUnit => isNativeWord method.flags.toNat = false → ∀ code, method.code = some code →
      ∃ parts placed, methodUnit.implementation = .nodes (BodyParts.nodes parts) ∧
        parts.Keeps naming file.pool method code placed) file.methods unit.methods := by
  refine (methods_of_translate translated).imp ?_
  rintro method methodUnit ⟨names, yields⟩ own code given
  obtain ⟨inner, implemented⟩ := MethodInfo.implementation_of_translate yields
  rw [MethodInfo.implementation, if_neg (by simp [own])] at implemented
  obtain ⟨nodes, finished, same⟩ := yields_map.mp implemented
  obtain ⟨walked, events⟩ := Body.finished_ofWalk finished
  have becomes : List.Forall₂ (Event.Becomes naming) (Walk.ofMethod file.pool method).events nodes :=
    (forall₂_of_yields_mapM events).imp fun _ _ becomes => becomes.elim fun _ yields => (yields_iff.mp yields).2
  obtain ⟨parts, placed, rfl, keeps⟩ := Walk.keeps_of_becomes given walked becomes
  exact ⟨parts, placed, same, keeps⟩

end ClassFile

/-! ## A loop with a handler -/

namespace Countdown

/-- Jumps forward and backward; the handler and the variable cover the whole code up to its end. -/
def code : CodeInfo where
  bytes := [0x1a, 0x99, 0, 6, 0xa7, 0xff, 0xfc, 0xb1]
  handlers := [⟨0, 8, 7, some "rt/E"⟩]
  locals := [⟨0, 8, "n", "I", 0⟩]

def method : MethodInfo := ⟨8, "f", "(I)V", [], [⟨none, 0⟩], some code⟩

def file : ClassFile := ⟨⟨#[]⟩, "A", none, [], [], [method]⟩

def nodes : List Node :=
  [.arg none [], .guard ⟨0⟩ ⟨8⟩ ⟨7⟩ (some "E"),
    .label ⟨0⟩, .var "ILOAD" 0, .jump "IFEQ" ⟨7⟩, .jump "GOTO" ⟨0⟩, .label ⟨7⟩, .plain "RETURN", .label ⟨8⟩,
    .declare "n" .int 0 ⟨0⟩ ⟨8⟩, .finish]

def unit : ClassUnit :=
  ⟨"A", none, [], [], [⟨"f", "(I)V", ⟨.void, [.int]⟩, [], .nodes nodes, [.isStatic]⟩], ["rt/E"]⟩

theorem flow_unit : file.translate ⟨"rt/"⟩ = .ok unit ∧
    ∃ parts placed, nodes = BodyParts.nodes parts ∧ parts.Keeps ⟨"rt/"⟩ file.pool method code placed := by
  have translated : file.translate ⟨"rt/"⟩ = .ok unit := by decide +kernel
  refine ⟨translated, ?_⟩
  cases ClassFile.flow_of_translate translated with
  | cons flow _ =>
    obtain ⟨parts, placed, same, keeps⟩ := flow (by decide) code rfl
    exact ⟨parts, placed, Implementation.nodes.inj same, keeps⟩

end Countdown

end JvmUnits
