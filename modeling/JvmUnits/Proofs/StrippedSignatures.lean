import JvmUnits.Proofs.ControlFlow
import JvmUnits.Proofs.Naming
import JvmUnits.Proofs.Signatures

/-!
# Signatures under runtime names

A unit keeps a signature twice: as a text, from which the home package is removed in one pass over all of it, and in parts, in
which each class is renamed on its own. The two agree (`Naming.strip_eq_descriptor`) where the home package never reaches across
the end of a class name: it has no semicolon, which ends every name, and does not start with a character that stands outside
the names. So in every unit the text of a signature is the descriptor of the parts beside it (`Naming.signatures_agree`).
-/

namespace JvmUnits

/-! ## Removing a pattern piece by piece -/

section

variable {pattern : List Char} (nonempty : pattern ≠ [])
include nonempty

/-- A character that the pattern does not start with stays. -/
theorem eraseOccurrences_cons {c : Char} (foreign : pattern.head? ≠ some c) (rest : List Char) :
    eraseOccurrences pattern 0 (c :: rest) = c :: eraseOccurrences pattern 0 rest := by
  have absent : ¬ pattern.isPrefixOf (c :: rest) = true := by
    rw [List.isPrefixOf_iff_prefix]
    intro found
    obtain ⟨first, more, rfl⟩ := List.exists_cons_of_ne_nil nonempty
    have same : first = c := (List.cons_prefix_cons.mp found).1
    exact foreign (by simp [same])
  rw [eraseOccurrences, if_neg absent]

/-- A pattern without a delimiter is removed in front of the delimiter and behind it separately. The occurrence that is being
passed over, if there is one, ends in front of the delimiter. -/
theorem eraseOccurrences_append_delimiter {delimiter : Char} (free : delimiter ∉ pattern) {skip : Nat} {front : List Char}
    (inside : skip ≤ front.length) (rest : List Char) :
    eraseOccurrences pattern skip (front ++ delimiter :: rest) =
      eraseOccurrences pattern skip front ++ delimiter :: eraseOccurrences pattern 0 rest := by
  induction front generalizing skip with
  | nil =>
    obtain rfl : skip = 0 := by simpa using inside
    have foreign : pattern.head? ≠ some delimiter := fun head => free (List.mem_of_head? head)
    exact eraseOccurrences_cons nonempty foreign rest
  | cons c front ih =>
    cases skip with
    | succ skip => exact ih (by simpa using inside)
    | zero =>
      by_cases found : pattern <+: c :: front
      · have further : pattern <+: c :: (front ++ delimiter :: rest) := found.trans (List.prefix_append _ _)
        have short : pattern.length - 1 ≤ front.length := by
          have := found.length_le
          simp only [List.length_cons] at this
          omega
        rw [List.cons_append, eraseOccurrences, if_pos (List.isPrefixOf_iff_prefix.mpr further), ih short,
          eraseOccurrences, if_pos (List.isPrefixOf_iff_prefix.mpr found)]
      · -- An occurrence that starts here would reach up to the delimiter.
        have nowhere : ¬ pattern <+: (c :: front) ++ delimiter :: rest :=
          Naming.not_prefix_append (fun mem => free (List.mem_of_mem_tail mem)) (List.cons_ne_nil _ _) found rfl
        rw [List.cons_append] at nowhere ⊢
        rw [eraseOccurrences, if_neg (by rwa [List.isPrefixOf_iff_prefix]), ih (Nat.zero_le _), eraseOccurrences,
          if_neg (by rwa [List.isPrefixOf_iff_prefix]), List.cons_append]

end

namespace Naming

/-! ## Descriptors -/

/-- The characters that stand in a method descriptor outside the names of classes, other than the end of a name. -/
def descriptorTags : List Char := "()[LVZBCSIJFD".toList

/-- The home package reaches across the end of no class name in a descriptor. -/
structure SparesTags (naming : Naming) : Prop where
  closed : ';' ∉ naming.home.toList
  foreign : ∀ tag ∈ descriptorTags, naming.home.toList.head? ≠ some tag

theorem mapNames_of_empty {naming : Naming} (empty : naming.home = "") (token : TypeToken) :
    token.mapNames naming.strip = token := by
  induction token with
  | objectRef name => rw [TypeToken.mapNames, strip_of_empty empty]
  | arrayOf element ih => rw [TypeToken.mapNames, ih]
  | _ => rfl

section

variable {naming : Naming} (nonempty : naming.home ≠ "") (spares : naming.SparesTags)
include nonempty spares

/-- A character outside the names stays. -/
theorem eraseOccurrences_tag {tag : Char} (known : tag ∈ descriptorTags) (rest : List Char) :
    eraseOccurrences naming.home.toList 0 (tag :: rest) = tag :: eraseOccurrences naming.home.toList 0 rest :=
  eraseOccurrences_cons (by simpa using nonempty) (spares.foreign tag known) rest

/-- Removing the home package from a text that starts with a descriptor renames the class of the descriptor. -/
theorem eraseOccurrences_descriptor (token : TypeToken) (rest : List Char) :
    eraseOccurrences naming.home.toList 0 (token.descriptor ++ rest) =
      (token.mapNames naming.strip).descriptor ++ eraseOccurrences naming.home.toList 0 rest := by
  induction token with
  | objectRef name =>
    have opened : eraseOccurrences naming.home.toList 0 ('L' :: (name.toList ++ ';' :: rest)) = _ :=
      eraseOccurrences_tag nonempty spares (by decide) _
    have divided := eraseOccurrences_append_delimiter (by simpa using nonempty) spares.closed
      (Nat.zero_le name.toList.length) rest
    simp only [TypeToken.descriptor, TypeToken.mapNames, List.cons_append, List.append_assoc, List.nil_append]
    rw [opened, divided, toList_strip nonempty]
  | arrayOf element ih =>
    rw [TypeToken.descriptor, List.cons_append, eraseOccurrences_tag nonempty spares (by decide), ih]
    rfl
  | _ => exact eraseOccurrences_tag nonempty spares (by decide) rest

theorem eraseOccurrences_descriptors (tokens : List TypeToken) (rest : List Char) :
    eraseOccurrences naming.home.toList 0 (tokens.flatMap TypeToken.descriptor ++ rest) =
      (tokens.map (TypeToken.mapNames naming.strip)).flatMap TypeToken.descriptor ++
        eraseOccurrences naming.home.toList 0 rest := by
  induction tokens with
  | nil => rfl
  | cons token tokens ih =>
    rw [List.flatMap_cons, List.append_assoc, eraseOccurrences_descriptor nonempty spares, ih, List.map_cons,
      List.flatMap_cons, List.append_assoc]

end

/-- Removing the home package from the descriptor of a signature renames the classes of the signature. -/
theorem strip_descriptor {naming : Naming} (spares : naming.SparesTags) (signature : MethodSignature) :
    naming.strip (String.ofList signature.descriptor) = String.ofList (signature.mapNames naming.strip).descriptor := by
  by_cases empty : naming.home = ""
  · have renamed : TypeToken.mapNames naming.strip = id := funext (mapNames_of_empty empty)
    rw [strip_of_empty empty, MethodSignature.mapNames, renamed, List.map_id]
    rfl
  · have result := eraseOccurrences_descriptor empty spares signature.returnType []
    rw [List.append_nil, eraseOccurrences, List.append_nil] at result
    rw [← String.toList_inj, toList_strip empty, String.toList_ofList, String.toList_ofList]
    simp only [MethodSignature.descriptor, MethodSignature.mapNames, List.cons_append]
    rw [eraseOccurrences_tag empty spares (by decide), eraseOccurrences_descriptors empty spares,
      eraseOccurrences_tag empty spares (by decide), result]

/-- A text that is read as a signature becomes, without the home package, the descriptor of the signature under runtime names. -/
theorem strip_eq_descriptor {naming : Naming} (spares : naming.SparesTags) {text : String} {signature : MethodSignature}
    (parsed : MethodSignature.parse text = .ok signature) :
    naming.strip text = String.ofList (signature.mapNames naming.strip).descriptor := by
  have written := (MethodSignature.parse_signature_eq_ok_iff.mp parsed).1
  rw [← strip_descriptor spares, ← written, String.ofList_toList]

end Naming

/-! ## Signatures in a unit -/

/-- The signature of the method that a node calls. -/
def Node.call? : Node → Option CallSignature
  | method _ _ _ signature _ => some signature
  | _ => none

/-- The signatures of the methods that the nodes of an implementation call, in order. -/
def Implementation.calls : Implementation → List CallSignature
  | native _ => []
  | nodes list => list.filterMap Node.call?

open Mentioning

namespace Naming

variable {naming : Naming} {text : String} {names : List String}

/-- A signature under runtime names is read from its descriptor. -/
theorem yields_methodSignature_iff {renamed : MethodSignature} :
    (naming.methodSignature text).Yields names renamed ↔
      ∃ signature, MethodSignature.parse text = .ok signature ∧ names = signature.classes ∧
        renamed = signature.mapNames naming.strip := by
  unfold methodSignature
  rw [yields_bind]
  constructor
  · rintro ⟨signature, _, _, decoded, last, rfl⟩
    obtain ⟨rfl, parsed⟩ := MethodSignature.yields_decode_signature_iff.mp decoded
    obtain ⟨rfl, rfl⟩ := yields_pure.mp last
    exact ⟨signature, parsed, List.append_nil _, rfl⟩
  · rintro ⟨signature, parsed, rfl, rfl⟩
    have decoded := MethodSignature.yields_decode_signature_iff.mpr ⟨rfl, parsed⟩
    exact ⟨signature, _, [], decoded, yields_pure.mpr ⟨rfl, rfl⟩, (List.append_nil _).symm⟩

/-- The signature of a called method has the text of its descriptor beside its parts, both under runtime names. -/
theorem yields_callSignature_iff {call : CallSignature} :
    (naming.callSignature text).Yields names call ↔
      ∃ signature, MethodSignature.parse text = .ok signature ∧ names = signature.classes ∧
        call = ⟨naming.strip text, signature.mapNames naming.strip⟩ := by
  unfold callSignature
  rw [yields_bind]
  constructor
  · rintro ⟨_, _, _, read, last, rfl⟩
    obtain ⟨signature, parsed, rfl, rfl⟩ := yields_methodSignature_iff.mp read
    obtain ⟨rfl, rfl⟩ := yields_pure.mp last
    exact ⟨signature, parsed, List.append_nil _, rfl⟩
  · rintro ⟨signature, parsed, rfl, rfl⟩
    have read : (naming.methodSignature text).Yields signature.classes (signature.mapNames naming.strip) :=
      yields_methodSignature_iff.mpr ⟨signature, parsed, rfl, rfl⟩
    exact ⟨_, _, [], read, yields_pure.mpr ⟨rfl, rfl⟩, (List.append_nil _).symm⟩

end Naming

/-- Only the node of a call has the signature of a called method, and it is that of the descriptor in the instruction. -/
theorem Instruction.Translated.call {naming : Naming} {i : Instruction} {names : List String} {node : Node}
    (made : i.Translated naming names node) {call : CallSignature} (calls : node.call? = some call) :
    ∃ text mentions, (naming.callSignature text).Yields mentions call := by
  cases made with
  | method _ _ read =>
    cases calls
    exact ⟨_, _, read⟩
  | _ => cases calls

/-- Of the nodes of events, only those of calls have the signature of a called method. -/
theorem Event.call_of_becomes {naming : Naming} {event : Event} {node : Node} (h : event.Becomes naming node)
    {call : CallSignature} (calls : node.call? = some call) :
    ∃ text mentions, (naming.callSignature text).Yields mentions call := by
  obtain ⟨names, made⟩ := h.translated
  cases made with
  | instruction made => exact made.call calls
  | _ => cases calls

namespace MethodInfo

variable {naming : Naming} {pool : Pool} {runtimeName : String} {method : MethodInfo} {names : List String}

/-- Every called method in an implementation has a signature that was read from a descriptor. -/
theorem calls_of_implementation {implementation : Implementation}
    (h : (method.implementation naming pool runtimeName).Yields names implementation) {call : CallSignature}
    (mem : call ∈ implementation.calls) : ∃ text mentions, (naming.callSignature text).Yields mentions call := by
  unfold MethodInfo.implementation at h
  split at h
  · obtain ⟨-, rfl⟩ := yields_pure.mp h
    cases mem
  · obtain ⟨nodes, finished, rfl⟩ := yields_map.mp h
    obtain ⟨node, among, calls⟩ := List.mem_filterMap.mp mem
    obtain ⟨event, _, becomes⟩ := exists_of_mem_of_forall₂ (forall₂_of_yields_mapM (Body.finished_ofWalk finished).2) among
    exact Event.call_of_becomes (yields_iff.mp becomes).2 calls

/-- The unit of a method has the text of its descriptor beside its signature, both under runtime names. -/
theorem signature_of_translate {unit : MethodUnit} (h : (method.translate naming pool runtimeName).Yields names unit) :
    ∃ signature, MethodSignature.parse method.descriptor = .ok signature ∧
      unit.descriptor = naming.strip method.descriptor ∧ unit.signature = signature.mapNames naming.strip := by
  obtain ⟨_, _, _, read, more, _⟩ := yields_bind.mp h
  obtain ⟨signature, parsed, -, rfl⟩ := Naming.yields_methodSignature_iff.mp read
  obtain ⟨_, _, _, _, rest, _⟩ := yields_bind.mp more
  obtain ⟨access, _, _, _, body, _⟩ := yields_bind.mp rest
  obtain ⟨implementation, _, _, _, last, _⟩ := yields_bind.mp body
  obtain ⟨-, rfl⟩ := yields_pure.mp last
  exact ⟨signature, parsed, rfl, rfl⟩

end MethodInfo

/-- Where the home package has no semicolon and does not start with a parenthesis, a bracket or a tag of a type, a text that is
read as a signature becomes, without the home package, the descriptor of the signature under runtime names; so does the text
beside the parts of a called method. In every class that is translated, the text kept for each method and for each called
method is the descriptor of the parts kept beside it. -/
theorem Naming.signatures_agree {naming : Naming} (closed : ';' ∉ naming.home.toList)
    (foreign : ∀ tag ∈ "()[LVZBCSIJFD".toList, naming.home.toList.head? ≠ some tag) :
    (∀ text signature, (MethodSignature.decode text).outcome = .ok signature →
        naming.strip text = String.ofList (signature.mapNames naming.strip).descriptor ∧
          (naming.callSignature text).outcome = .ok ⟨naming.strip text, signature.mapNames naming.strip⟩) ∧
      ∀ file unit, ClassFile.translate naming file = .ok unit → ∀ method ∈ unit.methods,
        method.descriptor = String.ofList method.signature.descriptor ∧
          ∀ call ∈ method.implementation.calls, call.raw = String.ofList call.parts.descriptor := by
  have spares : naming.SparesTags := ⟨closed, foreign⟩
  refine ⟨fun text signature decoded => ?_, fun file unit translated method mem => ?_⟩
  · obtain ⟨-, parsed⟩ := MethodSignature.yields_decode_signature_iff.mp (yields_of_outcome decoded)
    refine ⟨strip_eq_descriptor spares parsed, ?_⟩
    exact (yields_iff.mp (yields_callSignature_iff.mpr ⟨signature, parsed, rfl, rfl⟩)).2
  · obtain ⟨info, _, yields⟩ := exists_of_mem_of_forall₂ (ClassFile.methods_of_translate translated) mem
    constructor
    · obtain ⟨signature, parsed, text, parts⟩ := MethodInfo.signature_of_translate yields
      rw [text, parts, strip_eq_descriptor spares parsed]
    · intro call calls
      obtain ⟨_, implemented⟩ := MethodInfo.implementation_of_translate yields
      obtain ⟨text, _, read⟩ := MethodInfo.calls_of_implementation implemented calls
      obtain ⟨signature, parsed, -, rfl⟩ := yields_callSignature_iff.mp read
      exact strip_eq_descriptor spares parsed

/-! ## A call with the home package in many places -/

namespace RenamedCall

/-- The home package stands at the start of names, inside them, twice in a row and at the end of a longer word. -/
def file : ClassFile where
  pool := ⟨#[.unused, .utf8 "m", .utf8 "(Lrt/rt/X;)V", .nameAndType 1 2, .utf8 "rt/O", .classRef 4, .methodRef 5 3]⟩
  name := "A"
  superName := none
  interfaces := []
  fields := []
  methods := [⟨8, "f", "([Lrt/a/rt/B;J)Lart/C;", [], [], some ⟨[0xb8, 0, 6], [], []⟩⟩]

def nodes : List Node :=
  [.method "INVOKESTATIC" (.objectRef "O") "m" ⟨"(LX;)V", ⟨.void, [.objectRef "X"]⟩⟩ false, .finish]

def method : MethodUnit :=
  ⟨"f", "([La/B;J)LaC;", ⟨.objectRef "aC", [.arrayOf (.objectRef "a/B"), .long]⟩, [], .nodes nodes, [.isStatic]⟩

def unit : ClassUnit := ⟨"A", none, [], [], [method], ["rt/a/rt/B", "art/C", "rt/O", "rt/rt/X"]⟩

/-- The texts of the method and of the method that it calls are the descriptors of their parts. -/
theorem signatures_unit :
    (MethodSignature.decode "([Lrt/a/rt/B;J)Lart/C;").outcome =
        .ok ⟨.objectRef "art/C", [.arrayOf (.objectRef "rt/a/rt/B"), .long]⟩ ∧
      Naming.strip ⟨"rt/"⟩ "([Lrt/a/rt/B;J)Lart/C;" = String.ofList method.signature.descriptor ∧
      file.translate ⟨"rt/"⟩ = .ok unit ∧ method.descriptor = String.ofList method.signature.descriptor ∧
      ∀ call ∈ method.implementation.calls, call.raw = String.ofList call.parts.descriptor := by
  have decoded : (MethodSignature.decode "([Lrt/a/rt/B;J)Lart/C;").outcome =
      .ok ⟨.objectRef "art/C", [.arrayOf (.objectRef "rt/a/rt/B"), .long]⟩ := by decide +kernel
  have translated : file.translate ⟨"rt/"⟩ = .ok unit := by decide +kernel
  obtain ⟨texts, units⟩ := @Naming.signatures_agree ⟨"rt/"⟩ (by decide) (by simp)
  have renamed := (texts _ _ decoded).1
  exact ⟨decoded, renamed, translated, units file unit translated method List.mem_cons_self⟩

end RenamedCall

end JvmUnits
