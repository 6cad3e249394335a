import JvmUnits.ClassFile.Reader

/-!
# Parts of a class file that are passed over

Annotations, the types that annotations stand on, and the frames of the verifier carry nothing that a unit needs. They are
read all the same: the format gives no other way to find where they end. The values of annotations nest; the depth given to
a reader bounds the nesting, and the number of bytes of the file is always enough, since every level takes some.
-/

namespace JvmUnits

namespace Reader

/-- Passes over an annotation, given how to pass over a value. -/
def skipAnnotationItem (value : Reader Unit) : Reader Unit := do
  skip 1
  skipCounted do
    skip 1
    value

/-- Passes over the value of an annotation's element. -/
def skipValue : (depth : Nat) → Reader Unit
  | 0 => fun bytes => .error (.numberPastEnd bytes.length)
  | depth + 1 => do
    let tag ← u1
    match Char.ofNat tag.toNat with
    | 'B' | 'C' | 'D' | 'F' | 'I' | 'J' | 'S' | 'Z' | 's' | 'c' => skip 1
    | 'e' => skip 2
    | '@' => skipAnnotationItem (skipValue depth)
    | '[' => skipCounted (skipValue depth)
    | _ => fail (.elementTag tag)

/-- Passes over what the annotation of a type stands on. -/
def skipTarget : Reader Unit := do
  let target ← u1
  match target.toNat with
  | 0x00 | 0x01 | 0x16 => do let _ ← u1
  | 0x10 | 0x17 | 0x42 | 0x43 | 0x44 | 0x45 | 0x46 => skip 1
  | 0x11 | 0x12 => do
    let _ ← u1
    let _ ← u1
  | 0x13 | 0x14 | 0x15 => pure ()
  | 0x40 | 0x41 => skipCounted (skip 3)
  | 0x47 | 0x48 | 0x49 | 0x4A | 0x4B => do
    skip 1
    let _ ← u1
  | _ => fail (.targetType target)

/-- Passes over the annotation of a type: what it stands on, the path into the type, and the annotation. -/
def skipTypeAnnotationItem (depth : Nat) : Reader Unit := do
  skipTarget
  skipCountedShort do
    let _ ← u1
    let _ ← u1
  skipAnnotationItem (skipValue depth)

/-- Passes over the type of a local variable or a stack entry in a frame. -/
def skipVerificationType : Reader Unit := do
  let tag ← u1
  if tag ≤ 6 then pure ()
  else if tag ≤ 8 then skip 1
  else fail (.verificationTag tag)

/-- Passes over a frame of the verifier. -/
def skipFrame : Reader Unit := do
  let tag ← u1
  if tag ≤ 63 then pure ()
  else if tag ≤ 127 then skipVerificationType
  else if tag < 247 then fail (.frameType tag)
  else if tag = 247 then do
    skip 1
    skipVerificationType
  else if tag ≤ 251 then skip 1
  else if tag ≤ 254 then do
    skip 1
    let _ ← times skipVerificationType (tag.toNat - 251)
  else do
    skip 1
    skipCounted skipVerificationType
    skipCounted skipVerificationType

end Reader

end JvmUnits
