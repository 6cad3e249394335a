import JvmUnits.Proofs.References
import JvmUnits.Proofs.StepwiseDecoding

/-!
# Rejected descriptors mention nothing

Decoding step by step mentions a class as soon as it is converted, and a later step may still refuse the text. Since decoding
step by step is decoding after the whole text has been read, a text that is rejected has mentioned nothing, and the references
that were collected before stay as they are (`ShapeReader.Faithful.rejected_silent`).
-/

namespace JvmUnits

namespace Mentioning

variable {α β : Type}

/-- Work that fails has mentioned nothing. -/
def FailsSilently (work : Mentioning α) : Prop := ∀ e, work.outcome = .error e → work.mentions = []

/-- Work that fails leaves the references that were collected before as they are. -/
def SparesReferences (work : Mentioning α) : Prop :=
  ∀ naming owner earlier e, work.outcome = .error e →
    collectReferences naming owner (earlier ++ work.mentions) = collectReferences naming owner earlier

namespace FailsSilently

theorem fail (e : Error) : FailsSilently (fail e : Mentioning α) := fun _ _ => rfl

theorem succeed (names : List String) (a : α) : FailsSilently ⟨names, .ok a⟩ := by
  intro e failed
  cases failed

/-- What is done with the result of the work neither fails nor mentions anything. -/
theorem bind_pure {work : Mentioning α} (silent : work.FailsSilently) (f : α → β) :
    (work >>= fun a => pure (f a)).FailsSilently := by
  obtain ⟨names, e | a⟩ := work
  · intro _ _
    exact silent e rfl
  · exact succeed _ _

/-- Work that fails silently adds no references. -/
theorem sparesReferences {work : Mentioning α} (silent : work.FailsSilently) : work.SparesReferences := by
  intro naming owner earlier e failed
  rw [silent e failed, List.append_nil]

end FailsSilently

end Mentioning

/-- A type is mentioned after the whole descriptor has been read. -/
theorem TypeToken.failsSilently_decode (text : String) : (decode text).FailsSilently := by
  unfold decode
  split
  · exact .fail _
  · exact .succeed _ _

/-- A class name is mentioned after it has been checked. -/
theorem TypeToken.failsSilently_decodeInternalName (name : String) : (decodeInternalName name).FailsSilently := by
  unfold decodeInternalName
  split
  · exact failsSilently_decode name
  · split
    · exact .fail _
    · exact .succeed _ _

/-- The classes of a signature are mentioned after the whole descriptor has been read. -/
theorem MethodSignature.failsSilently_decode (text : String) : (decode text).FailsSilently := by
  unfold decode
  split
  · exact .fail _
  · exact .succeed _ _

/-- Decoding a type, a class name or a signature step by step, with any faithful reader, is decoding it after the whole text has
been read. A text that is rejected has mentioned nothing by then, wherever in it the fault lies, so the references that a
translation has collected before stay as they are. -/
theorem ShapeReader.Faithful.rejected_silent {reader : ShapeReader} (faithful : reader.Faithful) (text : String) :
    (TypeToken.decodeStepwise reader text = TypeToken.decode text ∧
        TypeToken.decodeInternalNameStepwise reader text = TypeToken.decodeInternalName text ∧
        MethodSignature.decodeStepwise reader text = MethodSignature.decode text) ∧
      ((TypeToken.decodeStepwise reader text).FailsSilently ∧
        (TypeToken.decodeInternalNameStepwise reader text).FailsSilently ∧
        (MethodSignature.decodeStepwise reader text).FailsSilently) ∧
      ∀ naming : Naming, (naming.typeToken text).SparesReferences ∧ (naming.classToken text).SparesReferences ∧
        (naming.methodSignature text).SparesReferences ∧ (naming.callSignature text).SparesReferences := by
  have type := faithful.decodeStepwise_eq text
  have name := faithful.decodeInternalNameStepwise_eq text
  have method := faithful.decodeStepwise_signature_eq text
  have silentType := TypeToken.failsSilently_decode text
  have silentName := TypeToken.failsSilently_decodeInternalName text
  have silentMethod := MethodSignature.failsSilently_decode text
  refine ⟨⟨type, name, method⟩, ?_, fun naming => ?_⟩
  · rw [type, name, method]
    exact ⟨silentType, silentName, silentMethod⟩
  · exact ⟨(silentType.bind_pure _).sparesReferences, (silentName.bind_pure _).sparesReferences,
      (silentMethod.bind_pure _).sparesReferences, ((silentMethod.bind_pure _).bind_pure _).sparesReferences⟩

namespace ShapeReader

/-- A signature whose return type has more dimensions than an array may have. -/
def deepReturn : MethodSignature := ⟨Nat.repeat .arrayOf 256 .int, [.objectRef "app/A", .arrayOf (.objectRef "app/B")]⟩

/-- The classes of the arguments are spelled well, and the fault lies behind them: in the last argument, in the return type, or
in the dimensions of the return type. -/
theorem rejected_late :
    (MethodSignature.decodeStepwise ofParsers "(Lapp/A;[Lapp/B;[V)V").outcome =
        .error (.malformedDescriptor "Lapp/A;[Lapp/B;[V" .argumentType) ∧
      (MethodSignature.decodeStepwise ofParsers "(Lapp/A;[Lapp/B;[V)V").mentions = [] ∧
      (MethodSignature.decodeStepwise ofParsers "(Lapp/A;[Lapp/B;I)[[Lapp/C").outcome =
        .error (.malformedDescriptor "(Lapp/A;[Lapp/B;I)[[Lapp/C" .returnType) ∧
      (MethodSignature.decodeStepwise ofParsers "(Lapp/A;[Lapp/B;I)[[Lapp/C").mentions = [] ∧
      (MethodSignature.decodeStepwise ofParsers (String.ofList deepReturn.descriptor)).outcome =
        .error (.malformedDescriptor (String.ofList deepReturn.descriptor) .tooManyDimensionsInMethod) ∧
      (MethodSignature.decodeStepwise ofParsers (String.ofList deepReturn.descriptor)).mentions = [] := by
  have argument := faithful_ofParsers.rejected_silent "(Lapp/A;[Lapp/B;[V)V"
  have returned := faithful_ofParsers.rejected_silent "(Lapp/A;[Lapp/B;I)[[Lapp/C"
  have deep := faithful_ofParsers.rejected_silent (String.ofList deepReturn.descriptor)
  have first : (MethodSignature.decodeStepwise ofParsers "(Lapp/A;[Lapp/B;[V)V").outcome =
      .error (.malformedDescriptor "Lapp/A;[Lapp/B;[V" .argumentType) := by
    rw [argument.1.2.2]
    decide +kernel
  have second : (MethodSignature.decodeStepwise ofParsers "(Lapp/A;[Lapp/B;I)[[Lapp/C").outcome =
      .error (.malformedDescriptor "(Lapp/A;[Lapp/B;I)[[Lapp/C" .returnType) := by
    rw [returned.1.2.2]
    decide +kernel
  have third : (MethodSignature.decodeStepwise ofParsers (String.ofList deepReturn.descriptor)).outcome =
      .error (.malformedDescriptor (String.ofList deepReturn.descriptor) .tooManyDimensionsInMethod) := by
    have spelled : deepReturn.IsSpelled := ⟨by decide, .inr (by decide +kernel)⟩
    have refused : ¬ deepReturn.isShallow = true := by decide +kernel
    rw [deep.1.2.2, MethodSignature.decode, MethodSignature.parse_of_isSpelled spelled, if_neg refused]
    rfl
  exact ⟨first, argument.2.1.2.2 _ first, second, returned.2.1.2.2 _ second, third, deep.2.1.2.2 _ third⟩

end ShapeReader

end JvmUnits
