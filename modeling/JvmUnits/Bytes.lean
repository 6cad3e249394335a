/-!
# Bytes

Runs of bytes, and numbers written in them with the most significant byte first.
-/

namespace JvmUnits

/-- A run of bytes. -/
abbrev Bytes := List UInt8

/-- The number that bytes write, the most significant first. -/
def bigEndian (bytes : Bytes) : Nat := bytes.foldl (fun n b => n * 256 + b.toNat) 0

/-- The signed number that a word of a given number of bits stands for. -/
def signed (bits n : Nat) : Int := if n < 1 <<< (bits - 1) then n else (n : Int) - (1 <<< bits : Nat)

/-- Runs an action a number of times and collects the results in order. -/
def times {m : Type → Type} [Monad m] {α : Type} (action : m α) : Nat → m (List α)
  | 0 => pure []
  | n + 1 => do
    let first ← action
    let rest ← times action n
    pure (first :: rest)

end JvmUnits
