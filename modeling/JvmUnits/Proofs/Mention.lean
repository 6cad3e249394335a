import JvmUnits.Mention
import Mathlib.Data.List.Forall2

/-!
# Work that mentions classes

`Yields work names a` says that work succeeds with the result `a` and has mentioned exactly `names`, in this order. Each way of
putting work together has one equivalence that takes it apart again, so a proof about a translation follows its steps without
looking at how mentions are kept.
-/

namespace JvmUnits

/-- A step that is followed by another gives a result when both do. -/
theorem bind_eq_ok {ε α β : Type} {first : Except ε α} {next : α → Except ε β} {b : β} :
    (first >>= next) = .ok b ↔ ∃ a, first = .ok a ∧ next a = .ok b := by
  cases first with
  | error e => simp [bind, Except.bind]
  | ok a => simp [bind, Except.bind]

/-- Going on with a result neither makes a failure nor changes one. -/
theorem map_eq_error_iff {ε α β : Type} {result : Except ε α} {f : α → β} {e : ε} :
    result.map f = .error e ↔ result = .error e := by
  cases result with
  | error cause => simp [Except.map]
  | ok a => simp [Except.map]

namespace Mentioning

theorem map_identity {α : Type} (work : Mentioning α) : id <$> work = work := by
  obtain ⟨names, e | a⟩ := work
  · rfl
  · change (⟨names ++ [], .ok a⟩ : Mentioning α) = _
    rw [List.append_nil]

/-- Three steps may be taken two at a time, from either end. -/
theorem bind_bind {α β γ : Type} (work : Mentioning α) (next : α → Mentioning β) (last : β → Mentioning γ) :
    work >>= next >>= last = work >>= fun a => next a >>= last := by
  obtain ⟨names, e | a⟩ := work
  · rfl
  · cases h : next a with
    | mk more outcome => cases outcome <;> simp [bind, andThen, h]

instance : LawfulMonad Mentioning :=
  LawfulMonad.mk' Mentioning map_identity (fun _ _ => rfl) bind_bind

/-- The work succeeds with a result, and has mentioned exactly the names listed. -/
def Yields {α : Type} (work : Mentioning α) (names : List String) (a : α) : Prop := work = ⟨names, .ok a⟩

section

variable {α β : Type} {names : List String}

/-- Work yields a result with names if it succeeds with this result and has mentioned these names. -/
theorem yields_iff {work : Mentioning α} {a : α} : work.Yields names a ↔ work.mentions = names ∧ work.outcome = .ok a := by
  obtain ⟨mentions, outcome⟩ := work
  exact Mentioning.mk.injEq _ _ _ _ ▸ Iff.rfl

/-- Work that succeeds yields its result with what it has mentioned. -/
theorem yields_of_outcome {work : Mentioning α} {a : α} (h : work.outcome = .ok a) : work.Yields work.mentions a :=
  yields_iff.mpr ⟨rfl, h⟩

/-- Work that is done mentions nothing. -/
@[simp] theorem yields_pure {a b : α} : (pure a : Mentioning α).Yields names b ↔ names = [] ∧ b = a := by
  rw [yields_iff]
  change [] = names ∧ Except.ok a = .ok b ↔ _
  rw [Except.ok.injEq, eq_comm, @eq_comm _ a]

/-- A check mentions nothing. -/
@[simp] theorem yields_ofExcept {outcome : Except Error α} {a : α} :
    (ofExcept outcome).Yields names a ↔ names = [] ∧ outcome = .ok a := by
  rw [yields_iff, ofExcept, eq_comm]

@[simp] theorem yields_mention {given : List String} {a : Unit} : (mention given).Yields names a ↔ names = given := by
  rw [yields_iff, mention, eq_comm]
  exact and_iff_left rfl

/-- Work that fails yields nothing. -/
@[simp] theorem not_yields_fail {e : Error} {a : α} : ¬ (fail e : Mentioning α).Yields names a := by
  rw [yields_iff]
  rintro ⟨-, h⟩
  cases h

/-- Work in two steps mentions what the first step mentions, then what the second one does. -/
theorem yields_bind {work : Mentioning α} {next : α → Mentioning β} {b : β} :
    (work >>= next).Yields names b ↔
      ∃ a first second, work.Yields first a ∧ (next a).Yields second b ∧ names = first ++ second := by
  obtain ⟨mentions, e | a⟩ := work
  · constructor
    · intro h
      exact absurd (yields_iff.mp h).2 nofun
    · rintro ⟨a, first, second, h, -⟩
      exact absurd (yields_iff.mp h).2 nofun
  · simp only [yields_iff, bind, andThen, Except.ok.injEq]
    constructor
    · rintro ⟨rfl, h⟩
      exact ⟨a, mentions, (next a).mentions, ⟨rfl, rfl⟩, ⟨rfl, h⟩, rfl⟩
    · rintro ⟨_, _, _, ⟨rfl, rfl⟩, ⟨rfl, h⟩, rfl⟩
      exact ⟨rfl, h⟩

/-- Going on with a result mentions nothing more. -/
theorem yields_map {work : Mentioning α} {f : α → β} {b : β} :
    (f <$> work).Yields names b ↔ ∃ a, work.Yields names a ∧ b = f a := by
  rw [← bind_pure_comp, yields_bind]
  constructor
  · rintro ⟨a, first, second, h, last, rfl⟩
    obtain ⟨rfl, rfl⟩ := yields_pure.mp last
    exact ⟨a, by rwa [List.append_nil], rfl⟩
  · rintro ⟨a, h, rfl⟩
    exact ⟨a, names, [], h, yields_pure.mpr ⟨rfl, rfl⟩, (List.append_nil _).symm⟩

/-- Work on a list yields the results of the work on its items, one for each. -/
theorem forall₂_of_yields_mapM {f : α → Mentioning β} {items : List α} {results : List β}
    (h : (items.mapM f).Yields names results) :
    List.Forall₂ (fun item result => ∃ mentions, (f item).Yields mentions result) items results := by
  induction items generalizing names results with
  | nil =>
    obtain ⟨-, rfl⟩ := yields_pure.mp h
    exact .nil
  | cons item items ih =>
    rw [List.mapM_cons] at h
    obtain ⟨result, first, _, head, h, -⟩ := yields_bind.mp h
    obtain ⟨results, second, _, tail, h, -⟩ := yields_bind.mp h
    obtain ⟨-, rfl⟩ := yields_pure.mp h
    exact .cons ⟨first, head⟩ (ih tail)

/-- Where the work on each item mentions, under other names, what its result names, the work on a list mentions what the
results name, in order. -/
theorem names_of_yields_mapM {f : α → Mentioning β} {rename : String → String} {named : β → List String}
    (each : ∀ item mentions result, (f item).Yields mentions result → mentions.map rename = named result)
    {items : List α} {results : List β} (h : (items.mapM f).Yields names results) :
    names.map rename = results.flatMap named := by
  induction items generalizing names results with
  | nil =>
    obtain ⟨rfl, rfl⟩ := yields_pure.mp h
    rfl
  | cons item items ih =>
    rw [List.mapM_cons] at h
    obtain ⟨result, first, _, head, more, rfl⟩ := yields_bind.mp h
    obtain ⟨results, second, _, tail, last, rfl⟩ := yields_bind.mp more
    obtain ⟨rfl, rfl⟩ := yields_pure.mp last
    rw [List.append_nil, List.map_append, each item first result head, ih tail, List.flatMap_cons]

end

end Mentioning

end JvmUnits
