import JvmUnits.Proofs.BranchTargets
import JvmUnits.Proofs.Labels

/-!
# Methods that are well aligned

A walk over the code of a method succeeds exactly when the code array can be decoded to its end, every branch leads to the start
of an instruction, and the tables mark only starts of instructions and the end of the code (`Walk.failure_ofMethod_iff`). Code
that can be decoded and is not aligned is malformed.

The walk finds a bad offset in one of three places: while it checks the tables, while it passes the instructions, or behind the
last one. `Walk.Checks` is about the first; `Walk.failure_weave` is about the other two, for any ascending offsets.
-/

namespace JvmUnits

/-- The offset is the start of an instruction or the end of the code. -/
def IsBoundary (length : Nat) (placed : List (Nat × Instruction)) (offset : Nat) : Prop :=
  offset ∈ placed.map Prod.fst ∨ offset = length

/-- Every place that an instruction may go on at is the start of an instruction. -/
def BranchesAligned (placed : List (Nat × Instruction)) : Prop :=
  ∀ entry ∈ placed, ∀ target ∈ entry.2.targets, target.offset ∈ placed.map Prod.fst

/-- The exception table and the local variables of a method mark only starts of instructions and the end of the code. -/
structure CodeInfo.TablesAligned (code : CodeInfo) (placed : List (Nat × Instruction)) : Prop where
  handlers : ∀ row ∈ code.handlers, IsBoundary code.bytes.length placed row.start.toNat ∧
    IsBoundary code.bytes.length placed row.stop.toNat ∧ IsBoundary code.bytes.length placed row.handler.toNat
  locals : ∀ row ∈ code.locals, IsBoundary code.bytes.length placed row.start.toNat ∧
    IsBoundary code.bytes.length placed (row.start.toNat + row.length.toNat)

/-- Behind the first instruction, its own start no longer counts. -/
theorem isBoundary_cons_iff {length place offset : Nat} {instruction : Instruction} {rest : List (Nat × Instruction)}
    (behind : place < offset) :
    IsBoundary length ((place, instruction) :: rest) offset ↔ IsBoundary length rest offset := by
  have differs : offset ≠ place := Nat.ne_of_gt behind
  simp [IsBoundary, differs]

namespace Walk

/-! ## Weaving -/

/-- Labels that are left over are all of the end of the code, or the first that is not is reported. -/
theorem failure_trailingLabels {length : Nat} {offsets : List Nat} :
    ((∀ offset ∈ offsets, offset = length) ∧ (trailingLabels length offsets).failure = none) ∨
      ∃ offset ∈ offsets, offset ≠ length ∧ (trailingLabels length offsets).failure = some (misaligned offset) := by
  induction offsets with
  | nil => exact .inl ⟨by simp, rfl⟩
  | cons offset rest ih =>
    rw [trailingLabels]
    by_cases here : offset = length
    · rw [if_pos here, failure_after]
      rcases ih with ⟨all, none⟩ | ⟨other, mem, differs, failed⟩
      · exact .inl ⟨List.forall_mem_cons.mpr ⟨here, all⟩, none⟩
      · exact .inr ⟨other, List.mem_cons_of_mem _ mem, differs, failed⟩
    · rw [if_neg here]
      exact .inr ⟨offset, List.mem_cons_self, here, rfl⟩

/-- Ascending offsets are woven into instructions without a failure when all of them are boundaries; otherwise one that is none
is reported. -/
theorem failure_weave {length : Nat} {offsets : List Nat} {placed : List (Nat × Instruction)}
    (marks : offsets.Pairwise (· < ·)) (places : (placed.map Prod.fst).Pairwise (· < ·))
    (inside : ∀ place ∈ placed.map Prod.fst, place < length) :
    ((∀ offset ∈ offsets, IsBoundary length placed offset) ∧ (weave length offsets placed).failure = none) ∨
      ∃ offset ∈ offsets, ¬ IsBoundary length placed offset ∧
        (weave length offsets placed).failure = some (misaligned offset) := by
  fun_induction weave length offsets placed with
  | case1 offsets =>
    rcases failure_trailingLabels with ⟨all, none⟩ | ⟨offset, mem, differs, failed⟩
    · exact .inl ⟨fun offset mem => .inr (all offset mem), none⟩
    · exact .inr ⟨offset, mem, by simp [IsBoundary, differs], failed⟩
  | case2 place instruction rest ih =>
    refine .inl ⟨by simp, ?_⟩
    rcases ih marks places.of_cons (fun place mem => inside place (List.mem_cons_of_mem _ mem)) with
      ⟨_, none⟩ | ⟨offset, mem, _⟩
    · exact none
    · cases mem
  | case3 offset offsets place instruction rest passed =>
    refine .inr ⟨offset, List.mem_cons_self, ?_, rfl⟩
    rintro (mem | rfl)
    · rcases List.mem_cons.mp mem with rfl | mem
      · exact Nat.lt_irrefl _ passed
      · exact Nat.lt_asymm passed (List.rel_of_pairwise_cons places mem)
    · exact Nat.lt_asymm passed (inside place List.mem_cons_self)
  | case4 offsets place instruction rest passed ih =>
    have later := ih marks.of_cons places.of_cons fun place mem => inside place (List.mem_cons_of_mem _ mem)
    have behind : ∀ offset ∈ offsets, place < offset := fun offset mem => List.rel_of_pairwise_cons marks mem
    rcases later with ⟨all, none⟩ | ⟨offset, mem, bad, failed⟩
    · refine .inl ⟨List.forall_mem_cons.mpr ⟨.inl List.mem_cons_self, fun offset mem => ?_⟩, none⟩
      exact (isBoundary_cons_iff (behind offset mem)).mpr (all offset mem)
    · exact .inr ⟨offset, List.mem_cons_of_mem _ mem, mt (isBoundary_cons_iff (behind offset mem)).mp bad, failed⟩
  | case5 offset offsets place instruction rest passed differs ih =>
    have later := ih marks places.of_cons fun place mem => inside place (List.mem_cons_of_mem _ mem)
    have behind : ∀ other ∈ offset :: offsets, place < other := by
      have first : place < offset := Nat.lt_of_le_of_ne (Nat.le_of_not_lt passed) (Ne.symm differs)
      exact List.forall_mem_cons.mpr ⟨first, fun other mem => Nat.lt_trans first (List.rel_of_pairwise_cons marks mem)⟩
    rcases later with ⟨all, none⟩ | ⟨other, mem, bad, failed⟩
    · exact .inl ⟨fun other mem => (isBoundary_cons_iff (behind other mem)).mpr (all other mem), none⟩
    · exact .inr ⟨other, mem, mt (isBoundary_cons_iff (behind other mem)).mp bad, failed⟩

/-- Events that are put behind a walk do not make it fail. -/
theorem failure_before (walk : Walk) (events : List Event) : (walk.before events).failure = walk.failure := by
  unfold before
  split
  · rename_i none
    exact none.symm
  · rename_i e failed
    exact failed.symm

/-! ## Tables -/

/-- Each row is turned into its event if it lies in the code, and is malformed otherwise. -/
def Checks {α : Type} (row : α → Except Error Event) (lies : α → Prop) (event : α → Event) : Prop :=
  ∀ item, (lies item ∧ row item = .ok (event item)) ∨ (¬ lies item ∧ ∃ fault, row item = .error (.malformedClassFile fault))

/-- A table is turned into its events if all rows lie in the code, and is malformed otherwise. -/
theorem Checks.mapM {α : Type} {row : α → Except Error Event} {lies : α → Prop} {event : α → Event}
    (checks : Checks row lies event) (rows : List α) :
    ((∀ item ∈ rows, lies item) ∧ rows.mapM row = .ok (rows.map event)) ∨
      ((∃ item ∈ rows, ¬ lies item) ∧ ∃ fault, rows.mapM row = .error (.malformedClassFile fault)) := by
  induction rows with
  | nil => exact .inl ⟨by simp, rfl⟩
  | cons item rest ih =>
    rw [List.mapM_cons]
    rcases checks item with ⟨here, first⟩ | ⟨outside, fault, first⟩
    · rw [first]
      rcases ih with ⟨all, others⟩ | ⟨⟨other, mem, outside⟩, fault, others⟩
      · rw [others]
        exact .inl ⟨List.forall_mem_cons.mpr ⟨here, all⟩, rfl⟩
      · rw [others]
        exact .inr ⟨⟨other, List.mem_cons_of_mem _ mem, outside⟩, fault, rfl⟩
    · rw [first]
      exact .inr ⟨⟨item, List.mem_cons_self, outside⟩, fault, rfl⟩

theorem mark_of_le {length : Nat} {offset : UInt16} (inside : offset.toNat ≤ length) :
    mark length offset = .ok ⟨offset.toNat⟩ := if_neg (Nat.not_lt.mpr inside)

/-- A place outside the code is reported with the length of the code. -/
theorem mark_of_lt {length : Nat} {offset : UInt16} (outside : length < offset.toNat) :
    mark length offset = .error (.malformedClassFile (.offsetOutside offset.toNat length)) := if_pos outside

/-- The row of a handler is refused exactly if one of its places lies outside the code. -/
theorem checks_guardEvent (length : Nat) :
    Checks (guardEvent length)
      (fun row => row.start.toNat ≤ length ∧ row.stop.toNat ≤ length ∧ row.handler.toNat ≤ length) Handler.event := by
  intro row
  unfold guardEvent
  by_cases start : row.start.toNat ≤ length
  · rw [mark_of_le start]
    by_cases stop : row.stop.toNat ≤ length
    · rw [mark_of_le stop]
      by_cases handler : row.handler.toNat ≤ length
      · rw [mark_of_le handler]
        exact .inl ⟨⟨start, stop, handler⟩, rfl⟩
      · rw [mark_of_lt (Nat.lt_of_not_le handler)]
        exact .inr ⟨fun lies => handler lies.2.2, _, rfl⟩
    · rw [mark_of_lt (Nat.lt_of_not_le stop)]
      exact .inr ⟨fun lies => stop lies.2.1, _, rfl⟩
  · rw [mark_of_lt (Nat.lt_of_not_le start)]
    exact .inr ⟨fun lies => start lies.1, _, rfl⟩

/-- The row of a local variable is refused exactly if its range ends outside the code. -/
theorem checks_localEvent (length : Nat) :
    Checks (localEvent length) (fun row => row.start.toNat + row.length.toNat ≤ length) LocalVariable.event := by
  intro row
  unfold localEvent
  by_cases start : row.start.toNat ≤ length
  · rw [mark_of_le start]
    by_cases stop : row.start.toNat + row.length.toNat ≤ length
    · exact .inl ⟨stop, if_neg (Nat.not_lt.mpr stop)⟩
    · exact .inr ⟨stop, _, if_pos (Nat.lt_of_not_le stop)⟩
  · rw [mark_of_lt (Nat.lt_of_not_le start)]
    exact .inr ⟨fun stop => start (Nat.le_trans (Nat.le_add_right _ _) stop), _, rfl⟩

end Walk

/-! ## Whole methods -/

section

variable {pool : Pool} {code : CodeInfo} {placed : List (Nat × Instruction)}

/-- A boundary lies in the code or at its end. -/
theorem IsBoundary.le {offset : Nat} (boundary : IsBoundary code.bytes.length placed offset)
    (linear : Instruction.Linear pool code.bytes 0 placed) : offset ≤ code.bytes.length := by
  rcases boundary with mem | rfl
  · exact Nat.le_of_lt (linear.bounds offset mem).2
  · exact Nat.le_refl _

/-- A branch that leads to a boundary leads to an instruction, because the end of the code is out of its reach. -/
theorem boundaries_iff_aligned (linear : Instruction.Linear pool code.bytes 0 placed) :
    (∀ offset ∈ Walk.offsets (code.referring placed), IsBoundary code.bytes.length placed offset) ↔
      BranchesAligned placed ∧ code.TablesAligned placed := by
  have referred : (∀ offset ∈ Walk.offsets (code.referring placed), IsBoundary code.bytes.length placed offset) ↔
      ∀ event ∈ code.referring placed, ∀ label ∈ event.labels, IsBoundary code.bytes.length placed label.offset := by
    simp only [Walk.mem_offsets, List.mem_flatMap]
    constructor
    · intro all event mem label among
      exact all label.offset ⟨event, mem, among⟩
    · rintro all offset ⟨event, mem, among⟩
      exact all event mem ⟨offset⟩ among
  have branches : (∀ entry ∈ placed, ∀ target ∈ entry.2.targets, IsBoundary code.bytes.length placed target.offset) ↔
      BranchesAligned placed := by
    refine ⟨fun all entry mem target among => ?_, fun all entry mem target among => .inl (all entry mem target among)⟩
    exact (all entry mem target among).resolve_right (Nat.ne_of_lt (linear.targets_inside entry mem target among))
  rw [referred, ← branches]
  simp only [CodeInfo.referring, List.forall_mem_append, List.forall_mem_map, Handler.event, LocalVariable.event, Event.labels,
    List.forall_mem_cons, List.not_mem_nil, false_implies, implies_true, and_true]
  constructor
  · rintro ⟨⟨handlers, inner⟩, locals⟩
    exact ⟨inner, handlers, locals⟩
  · rintro ⟨inner, handlers, locals⟩
    exact ⟨⟨handlers, inner⟩, locals⟩

/-- Code that can be decoded is walked to its end if it is aligned, and is malformed otherwise. -/
theorem Walk.failure_ofCode (linear : Instruction.Linear pool code.bytes 0 placed) :
    ((BranchesAligned placed ∧ code.TablesAligned placed) ∧ (ofCode pool code).failure = none) ∨
      (¬ (BranchesAligned placed ∧ code.TablesAligned placed) ∧
        ∃ fault, (ofCode pool code).failure = some (.malformedClassFile fault)) := by
  unfold ofCode
  dsimp only
  rw [Instruction.decodeAll_eq_ok_iff.mpr linear]
  rcases (checks_guardEvent code.bytes.length).mapM code.handlers with
    ⟨_, handled⟩ | ⟨⟨row, mem, outside⟩, fault, refused⟩
  · rcases (checks_localEvent code.bytes.length).mapM code.locals with
      ⟨_, declared⟩ | ⟨⟨row, mem, outside⟩, fault, refused⟩
    · rw [handled, declared]
      rcases failure_weave (offsets_ascending (code.referring placed)) linear.ascending
        fun place mem => (linear.bounds place mem).2 with ⟨all, none⟩ | ⟨offset, mem, bad, failed⟩
      · exact .inl ⟨(boundaries_iff_aligned linear).mp all, (failure_before _ _).trans none⟩
      · exact .inr ⟨fun aligned => bad ((boundaries_iff_aligned linear).mpr aligned offset mem),
          .misaligned (Label.name ⟨offset⟩), (failure_before _ _).trans failed⟩
    · rw [handled, refused]
      refine .inr ⟨fun aligned => outside ?_, fault, rfl⟩
      exact (aligned.2.locals row mem).2.le linear
  · rw [refused]
    refine .inr ⟨fun aligned => outside ?_, fault, rfl⟩
    obtain ⟨start, stop, handler⟩ := aligned.2.handlers row mem
    exact ⟨start.le linear, stop.le linear, handler.le linear⟩

end

/-- A walk over a method with code succeeds exactly when the code array is decoded from its start to exactly its end, every
branch leads to the start of an instruction, and the tables mark starts of instructions or the end. Where only the last two
fail, the class file is malformed. -/
theorem Walk.failure_ofMethod_iff (pool : Pool) {method : MethodInfo} {code : CodeInfo} (has : method.code = some code) :
    ((ofMethod pool method).failure = none ↔
      ∃ placed, Instruction.Linear pool code.bytes 0 placed ∧ BranchesAligned placed ∧ code.TablesAligned placed) ∧
    ∀ placed, Instruction.Linear pool code.bytes 0 placed → ¬ (BranchesAligned placed ∧ code.TablesAligned placed) →
      ∃ fault, (ofMethod pool method).failure = some (.malformedClassFile fault) := by
  have body : (ofMethod pool method).failure = (ofCode pool code).failure := by
    unfold ofMethod
    rw [has]
    rfl
  rw [body]
  refine ⟨⟨fun walked => ?_, ?_⟩, fun placed linear bad => ?_⟩
  · obtain ⟨placed, decoded, _⟩ := eq_of_andThen walked
    have linear := Instruction.decodeAll_eq_ok_iff.mp decoded
    rcases failure_ofCode linear with ⟨aligned, _⟩ | ⟨_, fault, failed⟩
    · exact ⟨placed, linear, aligned⟩
    · rw [failed] at walked
      cases walked
  · rintro ⟨placed, linear, aligned⟩
    rcases failure_ofCode linear with ⟨_, none⟩ | ⟨bad, _⟩
    · exact none
    · exact absurd aligned bad
  · rcases failure_ofCode linear with ⟨aligned, _⟩ | ⟨_, failed⟩
    · exact absurd aligned bad
    · exact failed

/-! ## A loop that jumps back -/

namespace CountingLoop

/-- Counts up for ever; the last byte of the distance that the jump leads back is left open. -/
def code (distance : UInt8) : CodeInfo where
  bytes := [0x03, 0x3b, 0x84, 0, 1, 0xa7, 0xff, distance, 0xb1]
  handlers := [⟨0, 8, 8, none⟩]
  locals := [⟨2, 7, "n", "I", 0⟩]

def method (distance : UInt8) : MethodInfo := ⟨8, "f", "()V", [], [], some (code distance)⟩

/-- The instructions of the loop, with the place that the jump leads to. -/
def placed (target : Nat) : List (Nat × Instruction) :=
  [(0, .plain 0x03), (1, .var 0x36 0), (2, .increment 0 1), (5, .jump 0xa7 ⟨target⟩), (8, .plain 0xb1)]

/-- The jump that leads back to the increment is accepted, and one that leads into it is malformed. -/
theorem walk_method :
    (Instruction.Linear .empty (code 0xfd).bytes 0 (placed 2) ∧ (Walk.ofMethod .empty (method 0xfd)).failure = none) ∧
      Instruction.Linear .empty (code 0xfe).bytes 0 (placed 3) ∧
        ∃ fault, (Walk.ofMethod .empty (method 0xfe)).failure = some (.malformedClassFile fault) := by
  have back : Instruction.Linear .empty (code 0xfd).bytes 0 (placed 2) :=
    .next rfl rfl (.next rfl rfl (.next rfl rfl (.next rfl rfl (.next rfl rfl .finished))))
  have inside : Instruction.Linear .empty (code 0xfe).bytes 0 (placed 3) :=
    .next rfl rfl (.next rfl rfl (.next rfl rfl (.next rfl rfl (.next rfl rfl .finished))))
  have accepted := (Walk.failure_ofMethod_iff .empty (show (method 0xfd).code = some (code 0xfd) from rfl)).1
  have refused := (Walk.failure_ofMethod_iff .empty (show (method 0xfe).code = some (code 0xfe) from rfl)).2
  refine ⟨⟨back, accepted.mpr ⟨placed 2, back, ?_, ?_, ?_⟩⟩, inside, refused (placed 3) inside fun aligned => ?_⟩
  · simp [BranchesAligned, placed, Instruction.targets]
  · simp [code, placed, IsBoundary]
  · simp [code, placed, IsBoundary]
  · simpa [BranchesAligned, placed, Instruction.targets] using aligned.1

end CountingLoop

end JvmUnits
