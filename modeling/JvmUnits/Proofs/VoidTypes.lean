import JvmUnits.Proofs.StrippedSignatures

/-!
# Where `void` stands in a unit

Nothing has the type `void`: it says of a method that it returns nothing. In a unit it never stands inside another type, as an
argument or where a class is named. In four places the type is one that the class file gives by a descriptor of its own, and
there `void` is taken over as it is: the type of a field, of a field that an instruction uses, of an array that an instruction
makes, and of a local variable. So `void` is only a return type in exactly those units whose class file gives it in none of
these places (`ClassFile.voids_of_translate`).
-/

namespace JvmUnits

/-- Where a type stands in a unit. -/
inductive TypePlace where
  | field | argument | returned | owner | operand | access | multiArray | localVariable
  deriving DecidableEq, Repr

/-- The type is `void`, or an array with `void` at the bottom. -/
def TypeToken.hasVoid : TypeToken → Bool
  | void => true
  | arrayOf element => element.hasVoid
  | _ => false

/-! ## The types of a unit, and the descriptors of a class file -/

def FieldUnit.types (field : FieldUnit) : List (TypePlace × TypeToken) := [(.field, field.token)]

/-- The types of a signature, with their places. -/
def MethodSignature.types (signature : MethodSignature) : List (TypePlace × TypeToken) :=
  signature.arguments.map (Prod.mk .argument) ++ [(.returned, signature.returnType)]

/-- The types of a node, with their places. -/
def Node.types : Node → List (TypePlace × TypeToken)
  | type _ token => [(.operand, token)]
  | field _ owner _ token => [(.owner, owner), (.access, token)]
  | method _ owner _ signature _ => (.owner, owner) :: signature.parts.types
  | multiArray token _ => [(.multiArray, token)]
  | declare _ token _ _ _ => [(.localVariable, token)]
  | _ => []

/-- The types of an implementation are those of its nodes. -/
def Implementation.types : Implementation → List (TypePlace × TypeToken)
  | native _ => []
  | nodes list => list.flatMap Node.types

def MethodUnit.types (method : MethodUnit) : List (TypePlace × TypeToken) :=
  method.signature.types ++ method.implementation.types

/-- The types of a unit, with their places. -/
def ClassUnit.types (unit : ClassUnit) : List (TypePlace × TypeToken) :=
  unit.fields.flatMap FieldUnit.types ++ unit.methods.flatMap MethodUnit.types

/-- In the unit `void` stands only as the whole return type of a signature. -/
def ClassUnit.VoidOnlyReturned (unit : ClassUnit) : Prop :=
  ∀ placed ∈ unit.types, placed.2.hasVoid = true → placed.1 = .returned ∧ placed.2 = .void

/-- The places at which `void` stands in a type, other than those of return types. -/
def strayVoids (types : List (TypePlace × TypeToken)) : List TypePlace :=
  (types.filter fun placed => placed.2.hasVoid && placed.1 ≠ .returned).map Prod.fst

def FieldInfo.typeTexts (field : FieldInfo) : List (TypePlace × String) := [(.field, field.descriptor)]

/-- The type descriptors that an event gives, with the places of their types. Types inside the descriptor of a method are not
among them, nor are classes that are given by their name. -/
def Event.typeTexts : Event → List (TypePlace × String)
  | instruction (.field _ _ _ descriptor) => [(.access, descriptor)]
  | instruction (.multiArray descriptor _) => [(.multiArray, descriptor)]
  | localVariable _ descriptor _ _ _ => [(.localVariable, descriptor)]
  | _ => []

/-- The type descriptors in the code of a method. The code of a native method is not looked at. -/
def MethodInfo.typeTexts (pool : Pool) (method : MethodInfo) : List (TypePlace × String) :=
  if isNativeWord method.flags.toNat then [] else (Walk.ofMethod pool method).events.flatMap Event.typeTexts

/-- The type descriptors of a class, with the places of their types. -/
def ClassFile.typeTexts (file : ClassFile) : List (TypePlace × String) :=
  file.fields.flatMap FieldInfo.typeTexts ++ file.methods.flatMap (MethodInfo.typeTexts file.pool)

/-- The places at which a descriptor is that of `void`. -/
def voidTexts (texts : List (TypePlace × String)) : List TypePlace :=
  (texts.filter fun placed => placed.2 = "V").map Prod.fst

/-! ## Types and the descriptors that they come from -/

/-- `void` stands inside no type, and other than as a return type just where a descriptor gives it. -/
structure VoidsFrom (texts : List (TypePlace × String)) (types : List (TypePlace × TypeToken)) : Prop where
  whole : ∀ placed ∈ types, placed.2.hasVoid = true → placed.2 = .void
  stray : strayVoids types = voidTexts texts

namespace VoidsFrom

theorem nil : VoidsFrom [] [] := ⟨fun _ mem => absurd mem List.not_mem_nil, rfl⟩

/-- Types one behind the other have the `void`s of both texts. -/
theorem append {texts moreTexts : List (TypePlace × String)} {types moreTypes : List (TypePlace × TypeToken)}
    (first : VoidsFrom texts types) (second : VoidsFrom moreTexts moreTypes) :
    VoidsFrom (texts ++ moreTexts) (types ++ moreTypes) where
  whole placed mem := by
    rcases List.mem_append.mp mem with mem | mem
    · exact first.whole placed mem
    · exact second.whole placed mem
  stray := by
    have here := first.stray
    have there := second.stray
    unfold strayVoids voidTexts at here there ⊢
    rw [List.filter_append, List.map_append, here, there, List.filter_append, List.map_append]

/-- What holds of each item and its result holds of the lists of both. -/
theorem flatMap {α β : Type} {textsOf : α → List (TypePlace × String)} {typesOf : β → List (TypePlace × TypeToken)}
    {items : List α} {results : List β}
    (each : List.Forall₂ (fun item result => VoidsFrom (textsOf item) (typesOf result)) items results) :
    VoidsFrom (items.flatMap textsOf) (results.flatMap typesOf) := by
  induction each with
  | nil => exact nil
  | cons here _ ih =>
    rw [List.flatMap_cons, List.flatMap_cons]
    exact here.append ih

/-- Types without `void` come from any place. -/
theorem of_free {types : List (TypePlace × TypeToken)} (free : ∀ placed ∈ types, placed.2.hasVoid = false) :
    VoidsFrom [] types where
  whole placed mem found := absurd found (by simp [free placed mem])
  stray := by
    have none : (types.filter fun placed => placed.2.hasVoid && placed.1 ≠ .returned) = [] :=
      List.filter_eq_nil_iff.mpr fun placed mem => by simp [free placed mem]
    rw [strayVoids, none]
    rfl

/-- A return type that is `void` is in its place. -/
theorem returned {token : TypeToken} (whole : token.hasVoid = true → token = .void) : VoidsFrom [] [(.returned, token)] where
  whole placed mem := by
    obtain rfl := List.mem_singleton.mp mem
    exact whole
  stray := by simp [strayVoids, voidTexts]

end VoidsFrom

namespace TypeToken

/-- A change of names makes no `void`. -/
@[simp] theorem hasVoid_mapNames (rename : String → String) (token : TypeToken) :
    (token.mapNames rename).hasVoid = token.hasVoid := by
  induction token with
  | arrayOf element ih => exact ih
  | _ => rfl

/-- The types of fields have no `void` in them. -/
theorem hasVoid_of_isField {token : TypeToken} (field : token.IsField) : token.hasVoid = false := by
  induction token with
  | void => exact field.elim
  | arrayOf element ih => exact ih field
  | _ => rfl

/-- A type that is read has `void` in it only as the whole of it. -/
theorem hasVoid_iff {token : TypeToken} (form : token = void ∨ token.IsField) : token.hasVoid = true ↔ token = void := by
  constructor
  · intro found
    refine form.resolve_right fun field => ?_
    rw [hasVoid_of_isField field] at found
    cases found
  · rintro rfl
    rfl

theorem mapNames_void (rename : String → String) : void.mapNames rename = void := rfl

end TypeToken

open Mentioning

namespace Naming

variable {naming : Naming} {text : String} {names : List String} {token : TypeToken}

/-- The type of a descriptor is `void` for the descriptor of `void`, and has no `void` in it for any other. -/
theorem voidsFrom_typeToken {place : TypePlace} (direct : place ≠ .returned) (h : (naming.typeToken text).Yields names token) :
    VoidsFrom [(place, text)] [(place, token)] := by
  obtain ⟨read, _, _, decoded, last, _⟩ := yields_bind.mp h
  obtain ⟨-, rfl⟩ := yields_pure.mp last
  obtain ⟨written, form, -⟩ := TypeToken.parse_eq_ok_iff.mp (TypeToken.yields_decode_iff.mp decoded).2
  have spelled : read = .void ↔ text = "V" := by
    constructor
    · rintro rfl
      exact String.toList_inj.mp written.symm
    · rintro rfl
      exact TypeToken.descriptor_injective form (Or.inl rfl) written
  constructor
  · intro placed mem found
    obtain rfl := List.mem_singleton.mp mem
    rw [TypeToken.hasVoid_mapNames, TypeToken.hasVoid_iff form] at found
    rw [found, TypeToken.mapNames_void]
  · have same : read.hasVoid = decide (text = "V") := by
      rw [Bool.eq_iff_iff, TypeToken.hasVoid_iff form, decide_eq_true_iff, spelled]
    by_cases empty : text = "V"
    · simp [strayVoids, voidTexts, same, empty, direct]
    · simp [strayVoids, voidTexts, same, empty]

/-- The type of a class has no `void` in it, wherever it stands. -/
theorem voidsFrom_classToken {place : TypePlace} (h : (naming.classToken text).Yields names token) :
    VoidsFrom [] [(place, token)] := by
  obtain ⟨read, _, _, decoded, last, _⟩ := yields_bind.mp h
  obtain ⟨-, rfl⟩ := yields_pure.mp last
  refine .of_free (List.forall_mem_singleton.mpr ?_)
  rw [TypeToken.hasVoid_mapNames]
  by_cases array : text.toList.head? = some '['
  · rw [TypeToken.decodeInternalName, if_pos array] at decoded
    obtain ⟨written, form, -⟩ := TypeToken.parse_eq_ok_iff.mp (TypeToken.yields_decode_iff.mp decoded).2
    refine TypeToken.hasVoid_of_isField (form.resolve_left ?_)
    rintro rfl
    rw [← written] at array
    cases array
  · obtain ⟨-, rfl, -⟩ := (TypeToken.yields_decodeInternalName_iff array).mp decoded
    rfl

/-- No argument of a signature has `void` in it, and the return type only as the whole of it. -/
theorem voidsFrom_signature {signature : MethodSignature} (parsed : MethodSignature.parse text = .ok signature) :
    VoidsFrom [] (signature.mapNames naming.strip).types := by
  obtain ⟨-, arguments, form, -⟩ := MethodSignature.parse_signature_eq_ok_iff.mp parsed
  refine VoidsFrom.append (VoidsFrom.of_free ?_) (VoidsFrom.returned ?_)
  · intro placed mem
    simp only [MethodSignature.mapNames, List.mem_map] at mem
    obtain ⟨_, ⟨argument, among, rfl⟩, rfl⟩ := mem
    rw [TypeToken.hasVoid_mapNames]
    exact TypeToken.hasVoid_of_isField (arguments argument among).1
  · intro found
    rw [MethodSignature.mapNames, TypeToken.hasVoid_mapNames, TypeToken.hasVoid_iff form] at found
    rw [MethodSignature.mapNames, found, TypeToken.mapNames_void]

end Naming

/-- The node of an instruction has `void` where the instruction's descriptors have it. -/
theorem Instruction.Translated.voidsFrom {naming : Naming} {i : Instruction} {names : List String} {node : Node}
    (made : i.Translated naming names node) : VoidsFrom (Event.instruction i).typeTexts node.types := by
  cases made with
  | type _ read => exact Naming.voidsFrom_classToken read
  | field _ owned read => exact (Naming.voidsFrom_classToken owned).append (Naming.voidsFrom_typeToken (by decide) read)
  | method _ owned read =>
    obtain ⟨signature, parsed, -, rfl⟩ := Naming.yields_callSignature_iff.mp read
    exact (Naming.voidsFrom_classToken owned).append (Naming.voidsFrom_signature parsed)
  | multiArray read => exact Naming.voidsFrom_typeToken (by decide) read
  | _ => exact .nil

/-- The node of an event has `void` where the event's descriptors have it. -/
theorem Event.voidsFrom_of_becomes {naming : Naming} {event : Event} {node : Node} (h : event.Becomes naming node) :
    VoidsFrom event.typeTexts node.types := by
  obtain ⟨names, made⟩ := h.translated
  cases made with
  | instruction made => exact made.voidsFrom
  | localVariable read => exact Naming.voidsFrom_typeToken (by decide) read
  | _ => exact .nil

/-! ## Members -/

/-- A field has `void` where its descriptor has it. -/
theorem FieldInfo.voidsFrom_translate {naming : Naming} {pool : Pool} {field : FieldInfo} {names : List String}
    {unit : FieldUnit} (h : (field.translate naming pool).Yields names unit) : VoidsFrom field.typeTexts unit.types := by
  obtain ⟨token, _, _, decoded, more, _⟩ := yields_bind.mp h
  obtain ⟨value, _, _, _, rest, _⟩ := yields_bind.mp more
  obtain ⟨access, _, _, _, last, _⟩ := yields_bind.mp rest
  obtain ⟨-, rfl⟩ := yields_pure.mp last
  exact Naming.voidsFrom_typeToken (by decide) decoded

namespace MethodInfo

variable {naming : Naming} {pool : Pool} {runtimeName : String} {method : MethodInfo} {names : List String}

/-- The nodes of a method have `void` where its descriptors have it. -/
theorem voidsFrom_implementation {implementation : Implementation}
    (h : (method.implementation naming pool runtimeName).Yields names implementation) :
    VoidsFrom (method.typeTexts pool) implementation.types := by
  unfold MethodInfo.implementation at h
  unfold MethodInfo.typeTexts
  by_cases native : isNativeWord method.flags.toNat = true
  · rw [if_pos native] at h ⊢
    obtain ⟨-, rfl⟩ := yields_pure.mp h
    exact .nil
  · rw [if_neg native] at h ⊢
    obtain ⟨nodes, finished, rfl⟩ := yields_map.mp h
    refine VoidsFrom.flatMap ((forall₂_of_yields_mapM (Body.finished_ofWalk finished).2).imp ?_)
    rintro event node ⟨mentions, yields⟩
    exact Event.voidsFrom_of_becomes (yields_iff.mp yields).2

/-- A method has `void` where its descriptors have it, besides its return type. -/
theorem voidsFrom_translate {unit : MethodUnit} (h : (method.translate naming pool runtimeName).Yields names unit) :
    VoidsFrom (method.typeTexts pool) unit.types := by
  obtain ⟨signature, parsed, -, same⟩ := signature_of_translate h
  obtain ⟨_, implemented⟩ := implementation_of_translate h
  have own : VoidsFrom [] unit.signature.types := by
    rw [same]
    exact Naming.voidsFrom_signature parsed
  exact own.append (voidsFrom_implementation implemented)

end MethodInfo

namespace ClassFile

variable {naming : Naming} {file : ClassFile} {unit : ClassUnit}

/-- The fields of a unit are those of the class, in the same order. -/
theorem fields_of_translate (translated : file.translate naming = .ok unit) :
    List.Forall₂ (fun field fieldUnit => ∃ names, (field.translate naming file.pool).Yields names fieldUnit)
      file.fields unit.fields := by
  obtain ⟨names, fields, methods, members, rfl⟩ := translate_eq_ok translated
  obtain ⟨_, _, _, _, more, _⟩ := yields_bind.mp members
  obtain ⟨found, _, _, each, rest, _⟩ := yields_bind.mp more
  obtain ⟨_, _, _, _, last, _⟩ := yields_bind.mp rest
  obtain ⟨-, same⟩ := yields_pure.mp last
  cases same
  exact forall₂_of_yields_mapM each

/-- A unit has `void` where the descriptors of its class have it, besides return types. -/
theorem voidsFrom_translate (translated : file.translate naming = .ok unit) : VoidsFrom file.typeTexts unit.types := by
  refine VoidsFrom.append (VoidsFrom.flatMap ?_) (VoidsFrom.flatMap ?_)
  · refine (fields_of_translate translated).imp ?_
    rintro field fieldUnit ⟨names, yields⟩
    exact FieldInfo.voidsFrom_translate yields
  · refine (methods_of_translate translated).imp ?_
    rintro method methodUnit ⟨names, yields⟩
    exact MethodInfo.voidsFrom_translate yields

end ClassFile

/-- Where `void` stands inside no type, it is only a return type if it strays to no other place. -/
theorem ClassUnit.voidOnlyReturned_iff {unit : ClassUnit}
    (whole : ∀ placed ∈ unit.types, placed.2.hasVoid = true → placed.2 = .void) :
    unit.VoidOnlyReturned ↔ strayVoids unit.types = [] := by
  rw [strayVoids, List.map_eq_nil_iff, List.filter_eq_nil_iff]
  constructor
  · intro only placed mem found
    rw [Bool.and_eq_true, decide_eq_true_iff] at found
    exact found.2 (only placed mem found.1).1
  · intro none placed mem found
    refine ⟨?_, whole placed mem found⟩
    by_contra elsewhere
    exact none placed mem (by simp [found, elsewhere])

/-- In the unit of every class, `void` stands inside no other type. The places at which it stands other than as a return type
are those at which the class gives it by the descriptor of a field, of a field that an instruction uses, of an array that an
instruction makes or of a local variable, in the same order; so it is only a return type exactly if the class gives it in none
of these. -/
theorem ClassFile.voids_of_translate {naming : Naming} {file : ClassFile} {unit : ClassUnit}
    (translated : file.translate naming = .ok unit) :
    (∀ placed ∈ unit.types, placed.2.hasVoid = true → placed.2 = .void) ∧
      strayVoids unit.types = voidTexts file.typeTexts ∧
      (unit.VoidOnlyReturned ↔ ∀ placed ∈ file.typeTexts, placed.2 ≠ "V") := by
  obtain ⟨whole, stray⟩ := file.voidsFrom_translate translated
  refine ⟨whole, stray, ?_⟩
  rw [ClassUnit.voidOnlyReturned_iff whole, stray, voidTexts, List.map_eq_nil_iff, List.filter_eq_nil_iff]
  simp only [decide_eq_true_eq, ne_eq]

/-- A method and the method that it calls may return nothing. -/
theorem RenamedCall.voids_unit :
    file.translate ⟨"rt/"⟩ = .ok unit ∧ (TypePlace.returned, TypeToken.void) ∈ unit.types ∧ unit.VoidOnlyReturned := by
  have translated : file.translate ⟨"rt/"⟩ = .ok unit := by decide +kernel
  refine ⟨translated, by decide +kernel, (ClassFile.voids_of_translate translated).2.2.mpr ?_⟩
  decide +kernel

/-! ## A class that gives `void` as a type -/

namespace VoidEverywhere

def code : CodeInfo where
  bytes := [0xb2, 0, 6, 0x04, 0xc5, 0, 7, 1, 0xb1]
  handlers := []
  locals := [⟨0, 9, "v", "V", 0⟩]

/-- Has a field of type `void`, uses it, makes an array whose class has the name `V`, and has a local variable of type
`void`. -/
def file : ClassFile where
  pool := ⟨#[.unused, .utf8 "f", .utf8 "V", .nameAndType 1 2, .utf8 "A", .classRef 4, .fieldRef 5 3, .classRef 2]⟩
  name := "A"
  superName := none
  interfaces := []
  fields := [⟨8, "f", "V", none⟩]
  methods := [⟨8, "m", "()V", [], [], some code⟩]

def nodes : List Node :=
  [.label ⟨0⟩, .field "GETSTATIC" (.objectRef "A") "f" .void, .plain "ICONST_1", .multiArray .void 1, .plain "RETURN",
    .label ⟨9⟩, .declare "v" .void 0 ⟨0⟩ ⟨9⟩, .finish]

def unit : ClassUnit :=
  ⟨"A", none, [], [⟨"f", .void, none, [.isStatic]⟩], [⟨"m", "()V", ⟨.void, []⟩, [], .nodes nodes, [.isStatic]⟩], []⟩

/-- The class is translated, with `void` in all four places. -/
theorem voids_accepted :
    file.translate Naming.standard = .ok unit ∧
      strayVoids unit.types = [.field, .access, .multiArray, .localVariable] ∧ ¬ unit.VoidOnlyReturned := by
  refine ⟨by decide +kernel, by decide +kernel, fun only => ?_⟩
  have placed := only (.field, .void) (by decide +kernel) rfl
  cases placed.1

end VoidEverywhere

end JvmUnits
