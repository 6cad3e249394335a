import JvmUnits.Error

/-!
# Mentions

Translating a class names other classes along the way, and it may fail after some of them were named. A `Mentioning` value
holds both: the class names mentioned so far, in order, and how the work ended.
-/

namespace JvmUnits

/-- The outcome of some work together with the class names that it mentioned. -/
structure Mentioning (α : Type) where
  mentions : List String
  outcome : Except Error α

namespace Mentioning

/-- Work that mentions nothing. -/
def ofExcept {α : Type} (outcome : Except Error α) : Mentioning α := ⟨[], outcome⟩

/-- Mentions some classes. -/
def mention (names : List String) : Mentioning Unit := ⟨names, .ok ()⟩

/-- Work followed by more work that depends on its result; what was mentioned before a failure stays mentioned. -/
def andThen {α β : Type} (first : Mentioning α) (next : α → Mentioning β) : Mentioning β :=
  match first.outcome with
  | .error e => ⟨first.mentions, .error e⟩
  | .ok a =>
    let second := next a
    ⟨first.mentions ++ second.mentions, second.outcome⟩

instance : Monad Mentioning where
  pure a := ⟨[], .ok a⟩
  bind := andThen

/-- Gives up. -/
def fail {α : Type} (e : Error) : Mentioning α := ⟨[], .error e⟩

end Mentioning

end JvmUnits
