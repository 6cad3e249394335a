import JvmUnits.Proofs.JsonText
import JvmUnits.Proofs.Labels
import JvmUnits.Unit.Render
import Mathlib.Data.List.Forall2
import Std.Data.String.ToInt

/-!
# What the text of a unit tells

Two units are written alike exactly if they are the same, but for numbers: a number is written without its width, so an `int`
and a `long` may look the same. `Alike` says this of constants, nodes, fields and methods. Each part is first shown to be
determined by its JSON (`toJson_eq_iff`), and JSON by its text (`Json.Proper.tellsApart`).
-/

namespace JvmUnits

open Json

/-! ## Numbers, texts and types -/

namespace Json

/-- An integer is determined by its digits and sign. -/
theorem ofInt_injective : Function.Injective ofInt := by
  intro value other same
  have texts : Int.repr value = Int.repr other := Json.number.inj same
  exact Int.repr_injective texts

/-- A natural number is determined by its digits. -/
theorem ofNat_injective : Function.Injective ofNat := by
  intro value other same
  have texts : Nat.repr value = Nat.repr other := Json.number.inj same
  exact Nat.repr_injective texts

@[simp] theorem ofInt_inj {value other : Int} : ofInt value = ofInt other ↔ value = other := ofInt_injective.eq_iff

@[simp] theorem ofNat_inj {value other : Nat} : ofNat value = ofNat other ↔ value = other := ofNat_injective.eq_iff

/-- A list of texts is determined by its JSON. -/
@[simp] theorem ofStrings_inj {texts others : List String} : ofStrings texts = ofStrings others ↔ texts = others := by
  have strings : Function.Injective Json.string := fun _ _ => Json.string.inj
  rw [ofStrings, ofStrings, Json.array.injEq, strings.list_map.eq_iff]

/-- A text that may be missing is told from a missing one: that is written as `null`. -/
@[simp] theorem ofOption_inj {text other : Option String} : ofOption text = ofOption other ↔ text = other := by
  cases text <;> cases other <;> simp [ofOption]

end Json

/-- No two flags have the same name. -/
theorem AccessFlag.name_injective : Function.Injective AccessFlag.name := by
  intro flag other
  cases flag <;> cases other <;> simp [AccessFlag.name]

/-- Flags are determined by their JSON, in order. -/
@[simp] theorem accessJson_inj {access other : List AccessFlag} : accessJson access = accessJson other ↔ access = other := by
  rw [accessJson, accessJson, ofStrings_inj, AccessFlag.name_injective.list_map.eq_iff]

/-- A label is determined by its JSON: the number of its offset is in it. -/
@[simp] theorem Label.toJson_inj {label other : Label} : label.toJson = other.toJson ↔ label = other := by
  rw [Label.toJson, Label.toJson, Json.string.injEq, Label.name_injective.eq_iff]

@[simp] theorem labelsJson_inj {labels others : List Label} : labelsJson labels = labelsJson others ↔ labels = others := by
  have injective : Function.Injective Label.toJson := fun _ _ => Label.toJson_inj.mp
  rw [labelsJson, labelsJson, Json.array.injEq, injective.list_map.eq_iff]

/-- Different types are written differently. -/
theorem TypeToken.toJson_injective : Function.Injective TypeToken.toJson := by
  intro token
  induction token with
  | arrayOf element ih =>
    intro other same
    cases other with
    | arrayOf otherElement =>
      simp only [TypeToken.toJson, Json.object.injEq, List.cons.injEq, Prod.mk.injEq, and_true, true_and] at same
      rw [ih same]
    | _ => simp [TypeToken.toJson] at same
  | _ =>
    intro other same
    cases other <;> simp_all [TypeToken.toJson]

@[simp] theorem TypeToken.toJson_inj {token other : TypeToken} : token.toJson = other.toJson ↔ token = other :=
  TypeToken.toJson_injective.eq_iff

/-- A signature is determined by the members that it is written as. -/
@[simp] theorem MethodSignature.jsonMembers_inj {signature other : MethodSignature} :
    signature.jsonMembers = other.jsonMembers ↔ signature = other := by
  cases signature
  cases other
  simp [MethodSignature.jsonMembers, TypeToken.toJson_injective.list_map.eq_iff]

/-- An object with a tag is determined by the tag and the other members. -/
@[simp] theorem tagged_inj {tag other : String} {members others : List (String × Json)} :
    tagged tag members = tagged other others ↔ tag = other ∧ members = others := by
  simp [tagged]

/-! ## Constants -/

/-- The text of a number. -/
def Numeric.text (value : Numeric) : String := value.toJson.compact

/-- A number is written in the same way at every level. -/
theorem Numeric.text_eq_pretty (value : Numeric) (level : Nat) : value.text = value.toJson.pretty level := by
  have word (format : BinaryFormat) (layout : DecimalLayout) (word : Nat) :
      (ofBinary format layout word).compact = (ofBinary format layout word).pretty level := by
    rw [ofBinary]
    split <;> simp only [compact, pretty]
  cases value with
  | int value => simp only [Numeric.text, Numeric.toJson, ofInt, compact, pretty]
  | long value => simp only [Numeric.text, Numeric.toJson, ofInt, compact, pretty]
  | float bits => exact word ..
  | double bits => exact word ..

/-- A number is written without anything that the text around it could be confused with. -/
@[simp] theorem Numeric.proper_toJson (value : Numeric) : Proper value.toJson := by
  cases value <;> simp [Numeric.toJson]

/-- Numbers are the same in JSON exactly if they have the same text. -/
@[simp] theorem Numeric.toJson_eq_iff {value other : Numeric} : value.toJson = other.toJson ↔ value.text = other.text := by
  rw [value.text_eq_pretty 0, other.text_eq_pretty 0, value.proper_toJson.pretty_inj other.proper_toJson]

/-- The same constant, but for the width of a number. -/
def Literal.Alike : Literal → Literal → Prop
  | numeric value, numeric other => value.text = other.text
  | literal, other => literal = other

/-- The same first value, but for the width of a number. -/
def FieldValue.Alike : FieldValue → FieldValue → Prop
  | numeric value, numeric other => value.text = other.text
  | value, other => value = other

/-- Constants are written alike exactly if they are alike: the key tells what kind of constant it is. -/
@[simp] theorem Literal.jsonMember_eq_iff {literal other : Literal} :
    literal.jsonMember = other.jsonMember ↔ literal.Alike other := by
  cases literal <;> cases other <;> simp [Literal.jsonMember, Literal.Alike]

/-- Values of fields are written alike exactly if they are alike. -/
@[simp] theorem FieldValue.jsonMember_eq_iff {value other : FieldValue} :
    value.jsonMember = other.jsonMember ↔ value.Alike other := by
  cases value <;> cases other <;> simp [FieldValue.jsonMember, FieldValue.Alike]

/-! ## Nodes -/

/-- The same node, but for the width of a number that it loads. -/
def Node.Alike : Node → Node → Prop
  | load literal, load other => literal.Alike other
  | node, other => node = other

/-- The signature of a call is its text and its parts. -/
theorem CallSignature.eq_iff {signature other : CallSignature} :
    signature = other ↔ signature.raw = other.raw ∧ signature.parts = other.parts := by
  cases signature
  cases other
  simp

/-- Nodes are the same in JSON exactly if they are alike. -/
@[simp] theorem Node.toJson_eq_iff {node other : Node} : node.toJson = other.toJson ↔ node.Alike other := by
  have keys : Function.Injective (List.map Json.ofInt) := ofInt_injective.list_map
  -- nodes of different forms have different tags
  cases node <;> cases other <;>
    simp [Node.toJson, Node.Alike, keys.eq_iff, UInt16.toNat_inj, UInt8.toNat_inj, CallSignature.eq_iff]

-- the width of a number is not written
example : (Node.load (.numeric (.int 7))).toJson = (Node.load (.numeric (.long 7))).toJson := rfl

/-! ## Fields and methods -/

/-- Items are mapped to the same list exactly if they are related one by one. -/
theorem map_eq_map_iff_forall₂ {α β : Type} {write : α → β} {related : α → α → Prop}
    (same : ∀ {item other}, write item = write other ↔ related item other) {items others : List α} :
    items.map write = others.map write ↔ List.Forall₂ related items others := by
  rw [← List.forall₂_eq_eq_eq, List.forall₂_map_left_iff, List.forall₂_map_right_iff]
  simp only [same]

/-- The same field, but for the width of a number that is its first value. -/
def FieldUnit.Alike (field other : FieldUnit) : Prop :=
  field.name = other.name ∧ field.token = other.token ∧ Option.Rel FieldValue.Alike field.value other.value ∧
    field.access = other.access

/-- The same implementation, node by node. -/
def Implementation.Alike : Implementation → Implementation → Prop
  | native path, native other => path = other
  | nodes list, nodes others => List.Forall₂ Node.Alike list others
  | _, _ => False

/-- The same method, but for the widths of the numbers that its nodes load. -/
def MethodUnit.Alike (method other : MethodUnit) : Prop :=
  method.name = other.name ∧ method.descriptor = other.descriptor ∧ method.signature = other.signature ∧
    method.exceptions = other.exceptions ∧ method.implementation.Alike other.implementation ∧
    method.access = other.access

/-- Fields are the same in JSON exactly if they are alike. -/
theorem FieldUnit.toJson_eq_iff {field other : FieldUnit} : field.toJson = other.toJson ↔ field.Alike other := by
  obtain ⟨name, token, value, access⟩ := field
  obtain ⟨otherName, otherToken, otherValue, otherAccess⟩ := other
  -- a first value is one member more
  cases value <;> cases otherValue <;> simp [FieldUnit.toJson, FieldUnit.Alike]

/-- Implementations are written alike exactly if they are alike: as a text if native, and as a list of nodes otherwise. -/
@[simp] theorem Implementation.toJson_eq_iff {implementation other : Implementation} :
    implementation.toJson = other.toJson ↔ implementation.Alike other := by
  cases implementation <;> cases other <;>
    simp [Implementation.toJson, Implementation.Alike, map_eq_map_iff_forall₂ Node.toJson_eq_iff]

/-- Methods are the same in JSON exactly if they are alike. -/
theorem MethodUnit.toJson_eq_iff {method other : MethodUnit} : method.toJson = other.toJson ↔ method.Alike other := by
  obtain ⟨name, descriptor, signature, exceptions, implementation, access⟩ := method
  obtain ⟨otherName, otherDescriptor, otherSignature, otherExceptions, otherImplementation, otherAccess⟩ := other
  -- exceptions are one member more
  cases exceptions <;> cases otherExceptions <;> simp [MethodUnit.toJson, MethodUnit.Alike]

/-! ## Numbers are written like numbers everywhere -/

/-- An object with a tag is proper if its other members are. -/
@[simp] theorem proper_tagged_iff {tag : String} {members : List (String × Json)} :
    Proper (tagged tag members) ↔ ∀ member ∈ members, Proper member.2 := by
  simp [tagged]

@[simp] theorem proper_accessJson (access : List AccessFlag) : Proper (accessJson access) := proper_ofStrings _

@[simp] theorem Label.proper_toJson (label : Label) : Proper label.toJson := .string _

@[simp] theorem proper_labelsJson (labels : List Label) : Proper (labelsJson labels) := by
  simp [labelsJson]

/-- The JSON of a type is proper, however deep an array is. -/
@[simp] theorem TypeToken.proper_toJson (token : TypeToken) : Proper token.toJson := by
  induction token with
  | arrayOf element ih => simpa [TypeToken.toJson] using ih
  | _ => simp [TypeToken.toJson]

/-- The members of a signature are proper. -/
theorem MethodSignature.proper_jsonMembers (signature : MethodSignature) :
    ∀ member ∈ signature.jsonMembers, Proper member.2 := by
  simp [MethodSignature.jsonMembers]

@[simp] theorem Literal.proper_jsonMember (literal : Literal) : Proper literal.jsonMember.2 := by
  cases literal <;> simp [Literal.jsonMember]

@[simp] theorem FieldValue.proper_jsonMember (value : FieldValue) : Proper value.jsonMember.2 := by
  cases value <;> simp [FieldValue.jsonMember]

/-- The JSON of a node is proper, whatever node it is. -/
@[simp] theorem Node.proper_toJson (node : Node) : Proper node.toJson := by
  cases node with
  | method mnemonic owner name signature inInterface =>
    have parts := signature.parts.proper_jsonMembers
    simpa [Node.toJson] using parts
  | _ => simp [Node.toJson]

/-- The JSON of a field is proper. -/
@[simp] theorem FieldUnit.proper_toJson (field : FieldUnit) : Proper field.toJson := by
  obtain ⟨name, token, value, access⟩ := field
  cases value <;> simp [FieldUnit.toJson]

@[simp] theorem Implementation.proper_toJson (implementation : Implementation) : Proper implementation.toJson := by
  cases implementation <;> simp [Implementation.toJson]

/-- The JSON of a method is proper. -/
@[simp] theorem MethodUnit.proper_toJson (method : MethodUnit) : Proper method.toJson := by
  obtain ⟨name, descriptor, signature, exceptions, implementation, access⟩ := method
  have parts := signature.proper_jsonMembers
  cases exceptions <;> simpa [MethodUnit.toJson] using parts

/-! ## Units -/

/-- The value is an object with a type in front. -/
def Json.hasTag (tag : String) : Json → Bool
  | object ((key, string text) :: _) => key == "type" && text == tag
  | _ => false

/-- An object has the tag that it was given, and no other. -/
@[simp] theorem hasTag_tagged (tag other : String) (members : List (String × Json)) :
    (tagged other members).hasTag tag = (other == tag) := by
  simp [tagged, Json.hasTag]

/-- A field is tagged as such. -/
@[simp] theorem FieldUnit.hasTag_toJson (field : FieldUnit) (tag : String) : field.toJson.hasTag tag = ("field" == tag) :=
  hasTag_tagged ..

/-- A method is tagged as such, and so told from a field. -/
@[simp] theorem MethodUnit.hasTag_toJson (method : MethodUnit) (tag : String) :
    method.toJson.hasTag tag = ("method" == tag) :=
  hasTag_tagged ..

namespace ClassUnit

/-- The members of a unit are proper. -/
@[simp] theorem proper_membersJson (naming : Naming) (unit : ClassUnit) : Proper (unit.membersJson naming) := by
  simp only [membersJson, proper_array_iff, List.forall_mem_append, List.forall_mem_map, List.forall_mem_singleton]
  exact ⟨⟨fun field _ => field.proper_toJson, fun method _ => method.proper_toJson⟩, by simp⟩

/-- Fields, methods and references do not get mixed up: the members of a unit are a run of fields, a run of methods and the
references. -/
theorem membersJson_eq_iff {naming : Naming} {unit other : ClassUnit} :
    unit.membersJson naming = other.membersJson naming ↔
      List.Forall₂ FieldUnit.Alike unit.fields other.fields ∧ List.Forall₂ MethodUnit.Alike unit.methods other.methods ∧
        unit.runtimeReferences naming = other.runtimeReferences naming := by
  rw [← map_eq_map_iff_forall₂ FieldUnit.toJson_eq_iff, ← map_eq_map_iff_forall₂ MethodUnit.toJson_eq_iff]
  have isField (fields : List FieldUnit) : ∀ json ∈ fields.map FieldUnit.toJson, json.hasTag "field" := by simp
  have isMethod (methods : List MethodUnit) : ∀ json ∈ methods.map MethodUnit.toJson, json.hasTag "method" := by simp
  have afterFields (methods : List MethodUnit) (references : List (String × Json)) :
      Stops (hasTag "field") (methods.map MethodUnit.toJson ++ [tagged "references" references]) := by
    cases methods <;> simp
  have afterMethods (references : List (String × Json)) : Stops (hasTag "method") [tagged "references" references] := by
    simp
  simp only [membersJson, Json.array.injEq, List.append_assoc]
  constructor
  · intro same
    obtain ⟨fields, behind⟩ := append_inj_of_stops (isField _) (isField _) (afterFields _ _) (afterFields _ _) same
    obtain ⟨methods, references⟩ := append_inj_of_stops (isMethod _) (isMethod _) (afterMethods _) (afterMethods _) behind
    exact ⟨fields, methods, by simpa using references⟩
  · rintro ⟨fields, methods, references⟩
    rw [fields, methods, references]

/-- A name that is mangled has no parenthesis in it. -/
theorem parenthesis_not_mem_mangle (name : String) : ∀ c ∈ (mangle name).toList, c != '(' := by
  intro c mem
  rw [mangle, String.toList_ofList] at mem
  obtain ⟨original, -, rfl⟩ := List.mem_map.mp mem
  split
  · next kept =>
    have differs : original ≠ '(' := fun same => absurd (same ▸ kept) (by decide)
    simpa using differs
  · decide

/-- The text of a unit around its name, its interfaces, its parent and its members. -/
def framed (name : String) (interfaces : List String) (parent : Option String) (members : Json) : String :=
  "(function JVM_" ++ mangle name ++ "($JVM, JVM)\x7b\n\t$JVM.ClassLoader.defineClass(" ++ (Json.string name).compact ++
    ", " ++ (ofStrings interfaces).compact ++ ", " ++ (ofOption parent).compact ++ ", " ++ members.pretty 0 ++
    ");\n\x7d)($currentJVM, JVM);\n"

/-- The text of a unit is a frame around its runtime names and its members. -/
theorem render_eq_framed (naming : Naming) (unit : ClassUnit) :
    unit.render naming = framed (naming.strip unit.name) (unit.interfaces.map naming.strip)
      (unit.superName.map naming.strip) (unit.membersJson naming) := rfl

/-- The parts of a unit's text can be told apart: the function's name ends at the first parenthesis, and each of the other
parts ends by itself. -/
theorem framed_inj {name otherName : String} {interfaces otherInterfaces : List String} {parent otherParent : Option String}
    {members otherMembers : Json} (proper : Proper members) (otherProper : Proper otherMembers) :
    framed name interfaces parent members = framed otherName otherInterfaces otherParent otherMembers ↔
      name = otherName ∧ interfaces = otherInterfaces ∧ parent = otherParent ∧ members = otherMembers := by
  constructor
  · intro same
    have texts := congrArg String.toList same
    unfold framed at texts
    simp only [String.toList_append, List.append_assoc] at texts
    have fromName := List.append_cancel_left texts
    have atParenthesis (rest : List Char) :
        Stops (· != '(') ("($JVM, JVM)\x7b\n\t$JVM.ClassLoader.defineClass(".toList ++ rest) := by
      simp
    obtain ⟨-, fromCall⟩ := append_inj_of_stops (parenthesis_not_mem_mangle _) (parenthesis_not_mem_mangle _)
      (atParenthesis _) (atParenthesis _) fromName
    obtain ⟨names, fromInterfaces⟩ := literal_append_inj (List.append_cancel_left fromCall)
    obtain ⟨interfaces, fromParent⟩ := compact_ofStrings_append_inj (List.append_cancel_left fromInterfaces)
    obtain ⟨parents, fromMembers⟩ := compact_ofOption_append_inj (List.append_cancel_left fromParent)
    have ends : Stops isNumberChar ");\n\x7d)($currentJVM, JVM);\n".toList := by simp [isNumberChar]
    obtain ⟨members, -⟩ := proper.tellsApart 0 _ otherProper _ _ ends ends (List.append_cancel_left fromMembers)
    exact ⟨names, interfaces, parents, members⟩
  · rintro ⟨rfl, rfl, rfl, rfl⟩
    rfl

/-- Rendering loses nothing but the widths of numbers. Units have the same text exactly if their runtime names, interfaces and
parents are the same, their fields and methods are alike in the same order, and their references are the same. On its own, too,
each node, type, constant and member is determined by its text, and no text ends the quotes around it. -/
theorem render_lossless (naming : Naming) :
    (∀ unit other : ClassUnit, unit.render naming = other.render naming ↔
      naming.strip unit.name = naming.strip other.name ∧
        unit.interfaces.map naming.strip = other.interfaces.map naming.strip ∧
        unit.superName.map naming.strip = other.superName.map naming.strip ∧
        List.Forall₂ FieldUnit.Alike unit.fields other.fields ∧
        List.Forall₂ MethodUnit.Alike unit.methods other.methods ∧
        unit.runtimeReferences naming = other.runtimeReferences naming) ∧
    (∀ (level : Nat) (node other : Node), node.toJson.pretty level = other.toJson.pretty level ↔ node.Alike other) ∧
    (∀ (level : Nat) (token other : TypeToken), token.toJson.pretty level = other.toJson.pretty level ↔ token = other) ∧
    (∀ (level : Nat) (constant other : Literal),
      (object [constant.jsonMember]).pretty level = (object [other.jsonMember]).pretty level ↔ constant.Alike other) ∧
    (∀ (level : Nat) (value other : FieldValue),
      (object [value.jsonMember]).pretty level = (object [other.jsonMember]).pretty level ↔ value.Alike other) ∧
    (∀ (level : Nat) (field other : FieldUnit),
      field.toJson.pretty level = other.toJson.pretty level ↔ field.Alike other) ∧
    (∀ (level : Nat) (method other : MethodUnit),
      method.toJson.pretty level = other.toJson.pretty level ↔ method.Alike other) ∧
    (∀ (level : Nat) (field : FieldUnit) (method : MethodUnit),
      field.toJson.pretty level ≠ method.toJson.pretty level) ∧
    (∀ text other rest more : String, literal text ++ rest = literal other ++ more ↔ text = other ∧ rest = more) := by
  refine ⟨fun unit other => ?_, fun level node other => ?_, fun level token other => ?_, fun level constant other => ?_,
    fun level value other => ?_, fun level field other => ?_, fun level method other => ?_, fun level field method same => ?_,
    fun text other rest more => literal_append_eq_iff⟩
  · rw [render_eq_framed, render_eq_framed, framed_inj (proper_membersJson ..) (proper_membersJson ..), membersJson_eq_iff]
  · rw [node.proper_toJson.pretty_inj other.proper_toJson, Node.toJson_eq_iff]
  · rw [token.proper_toJson.pretty_inj other.proper_toJson, TypeToken.toJson_inj]
  · rw [Proper.pretty_inj (by simp) (by simp)]
    simp
  · rw [Proper.pretty_inj (by simp) (by simp)]
    simp
  · rw [field.proper_toJson.pretty_inj other.proper_toJson, FieldUnit.toJson_eq_iff]
  · rw [method.proper_toJson.pretty_inj other.proper_toJson, MethodUnit.toJson_eq_iff]
  · have tags := congrArg (hasTag "field") ((field.proper_toJson.pretty_inj method.proper_toJson).mp same)
    simp at tags

end ClassUnit

end JvmUnits
