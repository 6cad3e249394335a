/-!
# Progress

What a run tells about its progress: how much of the known work is done, and what it is busy with.
-/

namespace JvmUnits

/-- A piece of news about a run. -/
inductive Progress where
  | indeterminate
  | fraction (done total : Nat)
  | message (text : String)
  deriving DecidableEq, Repr

/-- The done part of the known work, as a single-precision number. -/
def Progress.ratio (done total : Nat) : Float32 := Float32.ofNat done / Float32.ofNat total

/-- A ratio as a whole percentage: a half is rounded away from zero, and the result is kept in the range of 32 bits. -/
def percentage (ratio : Float32) : UInt32 := (ratio * 100).round.toUInt32

end JvmUnits
