import JvmUnits.Bytes
import JvmUnits.Proofs.Mention

/-!
# What readers give

A reader takes what it needs from a state and gives a value, or fails. `Gives` says what holds of every value that a reader gives,
wherever it starts, and is kept when readers are put together. The like is said of folds and of lists of results, for steps that
may fail and have no state.
-/

namespace JvmUnits

section

variable {σ ε α β : Type}

/-- Every value that the reader gives has the property. -/
def Gives (read : StateT σ (Except ε) α) (property : α → Prop) : Prop :=
  ∀ state value after, read state = .ok (value, after) → property value

namespace Gives

variable {property : α → Prop} {other : β → Prop}

/-- A value that is given without reading. -/
theorem pure {a : α} (holds : property a) : Gives (pure a : StateT σ (Except ε) α) property := by
  intro state value after read
  cases read
  exact holds

theorem error (e : ε) : Gives (fun _ => .error e : StateT σ (Except ε) α) property := by
  intro state value after read
  cases read

/-- A reader that goes on with what was read may use what holds of it. -/
theorem bind {read : StateT σ (Except ε) α} {next : α → StateT σ (Except ε) β} (head : Gives read property)
    (tail : ∀ a, property a → Gives (next a) other) : Gives (read >>= next) other := by
  intro state value after found
  change (read state).bind (fun p => next p.1 p.2) = _ at found
  cases first : read state with
  | error e =>
    rw [first] at found
    cases found
  | ok p =>
    rw [first] at found
    exact tail p.1 (head state p.1 p.2 first) p.2 value after found

/-- Nothing is said of what is read. -/
theorem any {read : StateT σ (Except ε) α} : Gives read fun _ => True := fun _ _ _ _ => trivial

/-- What is read first does not matter. -/
theorem after {read : StateT σ (Except ε) α} {next : α → StateT σ (Except ε) β} (tail : ∀ a, Gives (next a) other) :
    Gives (read >>= next) other :=
  any.bind fun a _ => tail a

theorem map {read : StateT σ (Except ε) α} {f : α → β} (head : Gives read property) (holds : ∀ a, property a → other (f a)) :
    Gives (f <$> read) other :=
  head.bind fun a given => pure (holds a given)

/-- Both ways of a choice give values with the property. -/
theorem ite {c : Prop} [Decidable c] {yes no : StateT σ (Except ε) α} (first : Gives yes property)
    (second : Gives no property) : Gives (if c then yes else no) property := by
  split
  · exact first
  · exact second

/-- Values that are read one after the other have the property that each of them has. -/
theorem times {read : StateT σ (Except ε) α} (item : Gives read property) (count : Nat) :
    Gives (times read count) fun values => ∀ value ∈ values, property value := by
  induction count with
  | zero => exact pure (by simp)
  | succ count ih =>
    refine item.bind fun first here => ih.bind fun rest later => pure ?_
    exact List.forall_mem_cons.mpr ⟨here, later⟩

end Gives

/-! ## Results of steps that may fail -/

/-- What each step keeps, a fold keeps. -/
theorem invariant_foldlM {step : β → α → Except ε β} {holds : β → Prop} {items : List α}
    (each : ∀ item ∈ items, ∀ before after, holds before → step before item = .ok after → holds after) {before after : β}
    (start : holds before) (folded : items.foldlM step before = .ok after) : holds after := by
  induction items generalizing before with
  | nil =>
    cases folded
    exact start
  | cons item rest ih =>
    obtain ⟨here, later⟩ := List.forall_mem_cons.mp each
    rw [List.foldlM_cons] at folded
    obtain ⟨middle, first, others⟩ := bind_eq_ok.mp folded
    exact ih later (here before middle start first) others

/-- What each result has got from its item, all results have. -/
theorem forall_of_mapM {f : α → Except ε β} {holds : β → Prop} {items : List α}
    (each : ∀ item ∈ items, ∀ result, f item = .ok result → holds result) {results : List β}
    (mapped : items.mapM f = .ok results) : ∀ result ∈ results, holds result := by
  induction items generalizing results with
  | nil =>
    cases mapped
    simp
  | cons item rest ih =>
    obtain ⟨here, later⟩ := List.forall_mem_cons.mp each
    rw [List.mapM_cons] at mapped
    obtain ⟨first, found, mapped⟩ := bind_eq_ok.mp mapped
    obtain ⟨others, more, mapped⟩ := bind_eq_ok.mp mapped
    cases mapped
    exact List.forall_mem_cons.mpr ⟨here first found, ih later more⟩

end

end JvmUnits
