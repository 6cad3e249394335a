import JvmUnits.Code.Walk
import JvmUnits.Proofs.LinearDecoding
import JvmUnits.Proofs.Mention
import Std.Data.String.ToNat

/-!
# Labels of a walk

A walk puts a label in front of every instruction that something refers to. `labelled` says where the labels stand when a list
of places and a list of offsets are given, without looking at how they are merged; a walk that succeeds over the code of a
method gives exactly these events (`Walk.events_of_ofCode`), and every offset that is referred to has got its label.
-/

namespace JvmUnits

/-- Different places have different names. -/
theorem Label.name_injective : Function.Injective Label.name := by
  rintro ⟨first⟩ ⟨second⟩ same
  have digits : Nat.repr first = Nat.repr second := (String.append_right_inj "L").mp same
  rw [Nat.repr_injective digits]

/-! ## Items with labels -/

/-- Items with their places, a label in front of each one whose place is among the offsets, and a label at the end if the end
is among them. -/
def labelled {α : Type} (label : Label → α) (offsets : List Nat) (length : Nat) : List (Nat × α) → List α
  | [] => if length ∈ offsets then [label ⟨length⟩] else []
  | (place, item) :: rest =>
    if place ∈ offsets then label ⟨place⟩ :: item :: labelled label offsets length rest
    else item :: labelled label offsets length rest

/-- Only the offsets of places and of the end count. -/
theorem labelled_congr {α : Type} {label : Label → α} {offsets others : List Nat} {length : Nat} {items : List (Nat × α)}
    (places : ∀ place ∈ items.map Prod.fst, place ∈ offsets ↔ place ∈ others) (stop : length ∈ offsets ↔ length ∈ others) :
    labelled label offsets length items = labelled label others length items := by
  induction items with
  | nil => simp only [labelled, stop]
  | cons item rest ih =>
    obtain ⟨place, item⟩ := item
    have here := places place List.mem_cons_self
    have later := ih fun place mem => places place (List.mem_cons_of_mem _ mem)
    simp only [labelled, here, later]

namespace Walk

@[simp] theorem events_after (events : List Event) (walk : Walk) : (walk.after events).events = events ++ walk.events := rfl

@[simp] theorem failure_after (events : List Event) (walk : Walk) : (walk.after events).failure = walk.failure := rfl

/-! ## Weaving -/

/-- After the last instruction there is at most one label, that of the end. -/
theorem offsets_of_trailingLabels {length : Nat} {offsets : List Nat} (ascending : offsets.Pairwise (· < ·))
    (woven : (trailingLabels length offsets).failure = none) : offsets = [] ∨ offsets = [length] := by
  have stop : ∀ offset ∈ offsets, offset = length := by
    clear ascending
    induction offsets with
    | nil => simp
    | cons offset rest ih =>
      rw [trailingLabels] at woven
      split at woven
      · rename_i here
        intro other mem
        rcases List.mem_cons.mp mem with rfl | mem
        · exact here
        · exact ih woven other mem
      · cases woven
  rcases offsets with _ | ⟨first, _ | ⟨second, rest⟩⟩
  · exact Or.inl rfl
  · exact Or.inr (by rw [stop first List.mem_cons_self])
  · have less := List.rel_of_pairwise_cons ascending List.mem_cons_self
    have same := (stop first (by simp)).trans (stop second (by simp)).symm
    omega

/-- Ascending offsets that are woven into instructions without a failure are places of instructions or the end, and each is
labelled once. -/
theorem weave_eq_labelled {length : Nat} {offsets : List Nat} {placed : List (Nat × Instruction)}
    (marks : offsets.Pairwise (· < ·)) (places : (placed.map Prod.fst).Pairwise (· < ·))
    (inside : ∀ place ∈ placed.map Prod.fst, place < length) (woven : (weave length offsets placed).failure = none) :
    (weave length offsets placed).events =
        labelled Event.label offsets length (placed.map fun entry => (entry.1, .instruction entry.2)) ∧
      ∀ offset ∈ offsets, offset ∈ placed.map Prod.fst ∨ offset = length := by
  fun_induction weave length offsets placed with
  | case1 offsets =>
    rcases offsets_of_trailingLabels marks woven with rfl | rfl
    · exact ⟨rfl, by simp⟩
    · exact ⟨by simp [trailingLabels, labelled], by simp⟩
  | case2 place instruction rest ih =>
    obtain ⟨events, _⟩ := ih marks places.of_cons (fun place mem => inside place (List.mem_cons_of_mem _ mem)) woven
    refine ⟨?_, by simp⟩
    rw [events_after, events]
    rfl
  | case3 offset offsets place instruction rest passed => cases woven
  | case4 offsets place instruction rest passed ih =>
    obtain ⟨events, found⟩ :=
      ih marks.of_cons places.of_cons (fun place mem => inside place (List.mem_cons_of_mem _ mem)) woven
    -- The offset that is used up belongs to no later instruction and is not the end.
    have later : ∀ other ∈ rest.map Prod.fst, other ≠ place := fun other mem =>
      Nat.ne_of_gt (List.rel_of_pairwise_cons places mem)
    have end_ne : length ≠ place := Nat.ne_of_gt (inside place List.mem_cons_self)
    refine ⟨?_, ?_⟩
    · have same : labelled Event.label (place :: offsets) length (rest.map fun entry => (entry.1, .instruction entry.2)) =
          labelled Event.label offsets length (rest.map fun entry => (entry.1, .instruction entry.2)) := by
        refine labelled_congr (fun other mem => ?_) (by simp [end_ne])
        rw [List.map_map] at mem
        simp [later other mem]
      rw [events_after, events, List.map_cons, labelled, if_pos List.mem_cons_self, same]
      rfl
    · intro other mem
      rcases List.mem_cons.mp mem with rfl | mem
      · exact Or.inl List.mem_cons_self
      · exact (found other mem).imp_left (List.mem_cons_of_mem _)
  | case5 offset offsets place instruction rest passed differs ih =>
    obtain ⟨events, found⟩ :=
      ih marks places.of_cons (fun place mem => inside place (List.mem_cons_of_mem _ mem)) woven
    have unmarked : place ∉ offset :: offsets := by
      intro mem
      rcases List.mem_cons.mp mem with rfl | mem
      · exact differs rfl
      · have := List.rel_of_pairwise_cons marks mem
        omega
    refine ⟨?_, fun other mem => (found other mem).imp_left (List.mem_cons_of_mem _)⟩
    rw [events_after, events, List.map_cons, labelled, if_neg unmarked]
    rfl

/-! ## Offsets that are referred to -/

/-- The offsets of events are those of the labels that they refer to. -/
theorem mem_offsets {events : List Event} {offset : Nat} :
    offset ∈ offsets events ↔ ⟨offset⟩ ∈ events.flatMap Event.labels := by
  rw [offsets, Std.TreeSet.mem_toList, Std.TreeSet.mem_ofList, List.contains_iff_mem, List.mem_map]
  constructor
  · rintro ⟨label, mem, rfl⟩
    exact mem
  · intro mem
    exact ⟨_, mem, rfl⟩

/-- Offsets are listed in ascending order, each once. -/
theorem offsets_ascending (events : List Event) : (offsets events).Pairwise (· < ·) := by
  refine List.Pairwise.imp (fun less => ?_) Std.TreeSet.ordered_toList
  exact Nat.compare_eq_lt.mp less

end Walk

/-! ## Rows of tables -/

/-- The event of a row of the exception table that lies in the code. -/
def Handler.event (row : Handler) : Event :=
  .guard ⟨row.start.toNat⟩ ⟨row.stop.toNat⟩ ⟨row.handler.toNat⟩ row.catchType

/-- The event of a local variable that lives in the code. -/
def LocalVariable.event (row : LocalVariable) : Event :=
  .localVariable row.name row.descriptor ⟨row.start.toNat⟩ ⟨row.start.toNat + row.length.toNat⟩ row.slot

/-- Results that are known for each item are known for all. -/
theorem eq_map_of_mapM {α β ε : Type} {f : α → Except ε β} {g : α → β}
    (each : ∀ item result, f item = .ok result → result = g item) {items : List α} {results : List β}
    (h : items.mapM f = .ok results) : results = items.map g := by
  induction items generalizing results with
  | nil =>
    cases h
    rfl
  | cons item rest ih =>
    rw [List.mapM_cons] at h
    obtain ⟨result, first, h⟩ := bind_eq_ok.mp h
    obtain ⟨found, others, h⟩ := bind_eq_ok.mp h
    cases h
    rw [List.map_cons, ← each item result first, ← ih others]

/-- The events that refer to places of the code: rows of the exception table, instructions, and local variables. -/
def CodeInfo.referring (code : CodeInfo) (placed : List (Nat × Instruction)) : List Event :=
  code.handlers.map Handler.event ++ placed.map (fun entry => .instruction entry.2) ++ code.locals.map LocalVariable.event

namespace Walk

/-- A place in the code is labelled by its offset. -/
theorem eq_of_mark {length : Nat} {offset : UInt16} {label : Label} (h : mark length offset = .ok label) :
    label = ⟨offset.toNat⟩ := by
  unfold mark at h
  split at h
  · cases h
  · cases h
    rfl

/-- The event of a handler has the labels of its row. -/
theorem eq_of_guardEvent {length : Nat} (row : Handler) (event : Event) (h : guardEvent length row = .ok event) :
    event = row.event := by
  unfold guardEvent at h
  obtain ⟨start, first, h⟩ := bind_eq_ok.mp h
  obtain ⟨stop, second, h⟩ := bind_eq_ok.mp h
  obtain ⟨handler, third, h⟩ := bind_eq_ok.mp h
  cases h
  rw [Handler.event, eq_of_mark first, eq_of_mark second, eq_of_mark third]

/-- The event of a local variable has the labels of its row. -/
theorem eq_of_localEvent {length : Nat} (row : LocalVariable) (event : Event) (h : localEvent length row = .ok event) :
    event = row.event := by
  unfold localEvent at h
  obtain ⟨start, first, h⟩ := bind_eq_ok.mp h
  simp only at h
  split at h
  · cases h
  · cases h
    rw [LocalVariable.event, eq_of_mark first]

/-! ## Walks that succeed -/

/-- A walk that does not fail has come through its first step. -/
theorem eq_of_andThen {α : Type} {value : Except Error α} {next : α → Walk} (walked : (andThen value next).failure = none) :
    ∃ a, value = .ok a ∧ andThen value next = next a := by
  cases value with
  | error e => cases walked
  | ok a => exact ⟨a, rfl, rfl⟩

/-- Events that are put behind a walk are there when the walk does not fail. -/
theorem events_of_before {walk : Walk} {events : List Event} (walked : (walk.before events).failure = none) :
    walk.failure = none ∧ (walk.before events).events = walk.events ++ events := by
  unfold before at walked ⊢
  split at walked
  · rename_i succeeded
    rw [succeeded]
    exact ⟨rfl, rfl⟩
  · cases walked

/-- A walk over the code of a method that succeeds: the rows of the exception table, the instructions of the code array with a
label at every place that is referred to, the local variables, and the end. Every such place is that of an instruction or the
end of the code. -/
theorem events_of_ofCode {pool : Pool} {code : CodeInfo} (walked : (ofCode pool code).failure = none) :
    ∃ placed, Instruction.Linear pool code.bytes 0 placed ∧
      (ofCode pool code).events = code.handlers.map Handler.event ++
        (labelled Event.label (offsets (code.referring placed)) code.bytes.length
            (placed.map fun entry => (entry.1, .instruction entry.2)) ++
          (code.locals.map LocalVariable.event ++ [.finish])) ∧
      ∀ offset ∈ offsets (code.referring placed), offset ∈ placed.map Prod.fst ∨ offset = code.bytes.length := by
  unfold ofCode at walked ⊢
  obtain ⟨placed, decoded, same⟩ := eq_of_andThen walked
  rw [same] at walked ⊢
  obtain ⟨guards, handled, same⟩ := eq_of_andThen walked
  rw [same] at walked ⊢
  obtain ⟨locals, declared, same⟩ := eq_of_andThen walked
  rw [same] at walked ⊢
  have linear := Instruction.decodeAll_eq_ok_iff.mp decoded
  obtain rfl := eq_map_of_mapM eq_of_guardEvent handled
  obtain rfl := eq_map_of_mapM eq_of_localEvent declared
  rw [failure_after] at walked
  obtain ⟨woven, events⟩ := events_of_before walked
  obtain ⟨marked, found⟩ := weave_eq_labelled (offsets_ascending _) linear.ascending
    (fun place mem => (linear.bounds place mem).2) woven
  refine ⟨placed, linear, ?_, found⟩
  rw [events_after, events, marked]
  rfl

end Walk

end JvmUnits
