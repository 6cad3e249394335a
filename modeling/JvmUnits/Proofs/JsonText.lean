import JvmUnits.Json.Basic
import Mathlib.Data.List.Basic

/-!
# The text of a value of JSON

A value is determined by its text, also when more text follows. The first character tells the kind of the value (`Json.Kind`);
a text ends at the first quote that is not escaped, a number at the first character that no number has (`Stops`), and the
parts of an array or an object at the closing bracket. `Proper` says that the numbers of a value are written like numbers; from
there, by induction on the value, `Proper.tellsApart` takes the value off the front of a text in one way only.
-/

namespace JvmUnits

/-! ## Where a run ends -/

section Runs

variable {α : Type} {kind : α → Bool}

/-- A list does not go on with an item of a kind. -/
def Stops (kind : α → Bool) (rest : List α) : Prop := ∀ item ∈ rest.head?, kind item = false

@[simp] theorem stops_cons {item : α} {rest : List α} : Stops kind (item :: rest) ↔ kind item = false := by
  simp [Stops]

/-- A run of items of a kind is as long as it can be, so a list has only one such run at its front. -/
theorem append_inj_of_stops {front other rest more : List α} (run : ∀ item ∈ front, kind item)
    (otherRun : ∀ item ∈ other, kind item) (stops : Stops kind rest) (otherStops : Stops kind more)
    (same : front ++ rest = other ++ more) : front = other ∧ rest = more := by
  induction front generalizing other with
  | nil =>
    cases other with
    | nil => exact ⟨rfl, same⟩
    | cons item other =>
      have goesOn : rest = item :: (other ++ more) := same
      rw [goesOn, stops_cons] at stops
      exact absurd (otherRun item List.mem_cons_self) (by simp [stops])
  | cons item front ih =>
    cases other with
    | nil =>
      have goesOn : item :: (front ++ rest) = more := same
      rw [← goesOn, stops_cons] at otherStops
      exact absurd (run item List.mem_cons_self) (by simp [otherStops])
    | cons otherItem other =>
      obtain ⟨rfl, tails⟩ := List.cons_eq_cons.mp same
      obtain ⟨rfl, rests⟩ := ih (fun item mem => run item (List.mem_cons_of_mem _ mem))
        (fun item mem => otherRun item (List.mem_cons_of_mem _ mem)) tails
      exact ⟨rfl, rests⟩

end Runs

namespace Json

/-! ## Texts -/

/-- The characters that are escaped inside a text. -/
def escapedChars : List Char := '"' :: '\\' :: (List.range 0x20).map Char.ofNat

/-- Control characters are escaped. -/
theorem mem_escapedChars_of_lt {c : Char} (control : c.toNat < 0x20) : c ∈ escapedChars := by
  have listed : c ∈ (List.range 0x20).map Char.ofNat :=
    List.mem_map.mpr ⟨c.toNat, List.mem_range.mpr control, Char.ofNat_toNat c⟩
  exact List.mem_cons_of_mem _ (List.mem_cons_of_mem _ listed)

/-- All other characters stand for themselves. -/
theorem toList_escapedChar {c : Char} (plain : c ∉ escapedChars) : (escapedChar c).toList = [c] := by
  have notQuote : c ≠ '"' := fun same => plain (by rw [same]; decide)
  have notBackslash : c ≠ '\\' := fun same => plain (by rw [same]; decide)
  have notControl : 0x20 ≤ c.toNat := Nat.le_of_not_lt fun control => plain (mem_escapedChars_of_lt control)
  rw [escapedChar, if_neg notQuote, if_neg notBackslash, if_pos notControl]
  exact String.toList_singleton c

/-- An escape starts with a backslash. -/
theorem head_escapedChar {c : Char} (mem : c ∈ escapedChars) : (escapedChar c).toList.head? = some '\\' := by
  have each : escapedChars.all fun c => (escapedChar c).toList.head? == some '\\' := by decide +kernel
  simpa using List.all_eq_true.mp each c mem

/-- No escape is the start of another. -/
theorem escapedChar_prefix_free {c d : Char} (mem : c ∈ escapedChars) (otherMem : d ∈ escapedChars)
    (starts : (escapedChar c).toList <+: (escapedChar d).toList) : c = d := by
  have each : escapedChars.all fun c => escapedChars.all fun d =>
      !(escapedChar c).toList.isPrefixOf (escapedChar d).toList || c == d := by decide +kernel
  have pair := List.all_eq_true.mp (List.all_eq_true.mp each c mem) d otherMem
  have found := List.isPrefixOf_iff_prefix.mpr starts
  simpa [found] using pair

/-- A character of a text starts with a backslash or is plain. -/
theorem escapedChar_cases (c : Char) :
    (c ∈ escapedChars ∧ ∃ code, (escapedChar c).toList = '\\' :: code) ∨
      c ≠ '"' ∧ c ≠ '\\' ∧ (escapedChar c).toList = [c] := by
  by_cases mem : c ∈ escapedChars
  · exact .inl ⟨mem, List.head?_eq_some_iff.mp (head_escapedChar mem)⟩
  · refine .inr ⟨fun same => mem ?_, fun same => mem ?_, toList_escapedChar mem⟩ <;> rw [same] <;> decide

/-- Inside a text each character can be told from what follows. -/
theorem escapedChar_append_inj {c d : Char} {rest more : List Char}
    (same : (escapedChar c).toList ++ rest = (escapedChar d).toList ++ more) : c = d ∧ rest = more := by
  rcases escapedChar_cases c with ⟨mem, code, escape⟩ | ⟨-, notBackslash, plain⟩ <;>
    rcases escapedChar_cases d with ⟨otherMem, otherCode, otherEscape⟩ | ⟨-, otherNotBackslash, otherPlain⟩
  · have equal : c = d := by
      rcases List.prefix_or_prefix_of_prefix (List.prefix_append _ rest) (same ▸ List.prefix_append _ more) with
        shorter | longer
      · exact escapedChar_prefix_free mem otherMem shorter
      · exact (escapedChar_prefix_free otherMem mem longer).symm
    subst equal
    exact ⟨rfl, List.append_cancel_left same⟩
  · rw [escape, otherPlain] at same
    exact absurd (List.cons_eq_cons.mp same).1.symm otherNotBackslash
  · rw [plain, otherEscape] at same
    exact absurd (List.cons_eq_cons.mp same).1 notBackslash
  · rw [plain, otherPlain] at same
    exact List.cons_eq_cons.mp same

/-- The quote inside a text is escaped. -/
theorem escapedChar_append_ne_quote (c : Char) (rest more : List Char) :
    (escapedChar c).toList ++ rest ≠ '"' :: more := by
  intro same
  rcases escapedChar_cases c with ⟨-, code, escape⟩ | ⟨notQuote, -, plain⟩
  · rw [escape] at same
    exact absurd (List.cons_eq_cons.mp same).1 (by decide)
  · rw [plain] at same
    exact notQuote (List.cons_eq_cons.mp same).1

/-- A text is written between quotes, character by character. -/
theorem toList_literal (text : String) :
    (literal text).toList = '"' :: (text.toList.flatMap fun c => (escapedChar c).toList) ++ ['"'] := by
  simp [literal, String.toList_join, List.flatMap_map]

/-- Up to the closing quote, a text is told apart character by character. -/
theorem flatMap_escapedChar_append_inj {text other rest more : List Char}
    (same : text.flatMap (fun c => (escapedChar c).toList) ++ '"' :: rest =
      other.flatMap (fun c => (escapedChar c).toList) ++ '"' :: more) : text = other ∧ rest = more := by
  induction text generalizing other with
  | nil =>
    cases other with
    | nil => exact ⟨rfl, (List.cons_eq_cons.mp same).2⟩
    | cons d other =>
      rw [List.flatMap_cons, List.append_assoc] at same
      exact absurd same.symm (escapedChar_append_ne_quote d _ _)
  | cons c text ih =>
    cases other with
    | nil =>
      rw [List.flatMap_cons, List.append_assoc] at same
      exact absurd same (escapedChar_append_ne_quote c _ _)
    | cons d other =>
      simp only [List.flatMap_cons, List.append_assoc] at same
      obtain ⟨rfl, tails⟩ := escapedChar_append_inj same
      obtain ⟨rfl, rests⟩ := ih tails
      exact ⟨rfl, rests⟩

/-- A text ends with its literal: nothing inside it closes the quotes. -/
theorem literal_append_inj {text other : String} {rest more : List Char}
    (same : (literal text).toList ++ rest = (literal other).toList ++ more) : text = other ∧ rest = more := by
  simp only [toList_literal, List.cons_append, List.append_assoc, List.nil_append] at same
  obtain ⟨chars, rests⟩ := flatMap_escapedChar_append_inj (List.cons_eq_cons.mp same).2
  exact ⟨String.toList_inj.mp chars, rests⟩

/-- A text at the front can be taken off, whatever follows it. -/
theorem literal_append_eq_iff {text other rest more : String} :
    literal text ++ rest = literal other ++ more ↔ text = other ∧ rest = more := by
  constructor
  · intro same
    have chars : (literal text).toList ++ rest.toList = (literal other).toList ++ more.toList := by
      rw [← String.toList_append, same, String.toList_append]
    obtain ⟨texts, rests⟩ := literal_append_inj chars
    exact ⟨texts, String.toList_inj.mp rests⟩
  · rintro ⟨rfl, rfl⟩
    rfl

/-! ## Numbers -/

/-- A character with which numbers are written. -/
def isNumberChar (c : Char) : Bool := c.isDigit || c == '-' || c == '+' || c == '.' || c == 'e'

/-- A text written like a number. -/
def IsNumber (text : List Char) : Prop := text ≠ [] ∧ ∀ c ∈ text, isNumberChar c

/-- Decimal digits are characters of numbers. -/
theorem isNumberChar_of_mem_toDigits {n : Nat} {c : Char} (mem : c ∈ Nat.toDigits 10 n) : isNumberChar c := by
  have digit := Nat.isDigit_of_mem_toDigits (by decide) (by decide) mem
  simp [isNumberChar, digit]

theorem isNumber_toDigits (n : Nat) : IsNumber (Nat.toDigits 10 n) :=
  ⟨Nat.toDigits_ne_nil, fun _ => isNumberChar_of_mem_toDigits⟩

/-- A natural number is written like a number. -/
theorem isNumber_repr (n : Nat) : IsNumber (Nat.repr n).toList := by
  simpa [Nat.repr] using isNumber_toDigits n

/-- An integer is written like a number, with its sign. -/
theorem isNumber_toString (value : Int) : IsNumber (toString value).toList := by
  have sign : isNumberChar '-' := by decide
  rw [Int.toString_eq_repr, Int.repr_eq_if]
  split
  · exact isNumber_repr _
  · rw [String.toList_append]
    exact ⟨by simp, List.forall_mem_append.mpr ⟨by simpa using sign, (isNumber_repr _).2⟩⟩

/-- Digits with a point among them, or with zeros at an end, are written like a number. -/
theorem isNumber_inFull {digits : List Char} (written : ∀ c ∈ digits, isNumberChar c) (exponent : Int) :
    IsNumber (DecimalLayout.inFull digits exponent) := by
  have zeros : ∀ n, ∀ c ∈ List.replicate n '0', isNumberChar c := fun n c mem => by
    rw [List.eq_of_mem_replicate mem]
    decide
  have zero : isNumberChar '0' := by decide
  have point : isNumberChar '.' := by decide
  rw [DecimalLayout.inFull]
  split
  · refine ⟨by simp, ?_⟩
    simp only [List.cons_append, List.forall_mem_cons, List.forall_mem_append]
    exact ⟨zero, point, zeros _, written⟩
  · dsimp only
    split
    · refine ⟨by simp, ?_⟩
      simp only [List.forall_mem_cons, List.forall_mem_append]
      exact ⟨⟨written, zeros _⟩, point, zero, by simp⟩
    · refine ⟨by simp, ?_⟩
      simp only [List.forall_mem_cons, List.forall_mem_append]
      exact ⟨fun c mem => written c (List.mem_of_mem_take mem), point, fun c mem => written c (List.mem_of_mem_drop mem)⟩

/-- Digits with an exponent are written like a number. -/
theorem isNumber_withExponent (layout : DecimalLayout) {digits : List Char} (written : ∀ c ∈ digits, isNumberChar c)
    (exponent : Int) : IsNumber (layout.withExponent digits exponent) := by
  have mark : isNumberChar 'e' := by decide
  have minus : isNumberChar '-' := by decide
  have plus : isNumberChar '+' := by decide
  have point : isNumberChar '.' := by decide
  unfold DecimalLayout.withExponent
  refine ⟨by simp, ?_⟩
  simp only [List.forall_mem_cons, List.forall_mem_append]
  refine ⟨⟨?_, mark, ?_⟩, fun c => isNumberChar_of_mem_toDigits⟩
  · rcases digits with - | ⟨d, - | ⟨next, rest⟩⟩
    · simp
    · exact written
    · rw [List.forall_mem_cons] at written
      exact List.forall_mem_cons.mpr ⟨written.1, List.forall_mem_cons.mpr ⟨point, written.2⟩⟩
  · split
    · simpa using minus
    · split
      · simpa using plus
      · simp

/-- A binary number that is finite is written like a number, in full or with an exponent. -/
theorem isNumber_writeBinary (layout : DecimalLayout) (negative : Bool) (m : Nat) (q : Int) (narrow : Bool) :
    IsNumber (layout.writeBinary negative m q narrow).toList := by
  have body : IsNumber (if m = 0 then ['0', '.', '0'] else layout.write (Decimal.shortest layout.tie m q narrow)) := by
    split
    · exact ⟨by simp, List.all_eq_true.mp (by decide)⟩
    · have digits := fun c => @isNumberChar_of_mem_toDigits (Decimal.shortest layout.tie m q narrow).digits c
      rw [DecimalLayout.write]
      split
      · exact isNumber_inFull digits _
      · exact isNumber_withExponent layout digits _
  rw [DecimalLayout.writeBinary, String.toList_ofList]
  split
  · exact ⟨by simp, List.forall_mem_cons.mpr ⟨by decide, body.2⟩⟩
  · exact body

/-! ## Values -/

/-- A value whose numbers are written like numbers. -/
inductive Proper : Json → Prop where
  | null : Proper null
  | bool (value : Bool) : Proper (bool value)
  | number {text : String} (written : IsNumber text.toList) : Proper (number text)
  | string (text : String) : Proper (string text)
  | array {items : List Json} (each : ∀ item ∈ items, Proper item) : Proper (array items)
  | object {members : List (String × Json)} (each : ∀ member ∈ members, Proper member.2) : Proper (object members)

attribute [simp] Proper.null Proper.bool Proper.string

@[simp] theorem proper_array_iff {items : List Json} : Proper (array items) ↔ ∀ item ∈ items, Proper item :=
  ⟨fun proper => by cases proper with | array each => exact each, .array⟩

@[simp] theorem proper_object_iff {members : List (String × Json)} :
    Proper (object members) ↔ ∀ member ∈ members, Proper member.2 :=
  ⟨fun proper => by cases proper with | object each => exact each, .object⟩

@[simp] theorem proper_ofInt (value : Int) : Proper (ofInt value) := .number (isNumber_toString value)

@[simp] theorem proper_ofNat (value : Nat) : Proper (ofNat value) := .number (isNumber_repr value)

/-- Texts have no numbers in them. -/
@[simp] theorem proper_ofStrings (texts : List String) : Proper (ofStrings texts) := by
  simp [ofStrings]

@[simp] theorem proper_ofOption (text : Option String) : Proper (ofOption text) := by
  cases text <;> simp [ofOption]

/-- A binary number is a number, or a text if it is not finite. -/
@[simp] theorem proper_ofBinary (format : BinaryFormat) (layout : DecimalLayout) (word : Nat) :
    Proper (ofBinary format layout word) := by
  rw [ofBinary]
  split
  · exact .string _
  · exact .string _
  · exact .number (isNumber_writeBinary ..)

/-- What the first character of a value tells. -/
inductive Kind where
  | null
  | bool (value : Bool)
  | number
  | string
  | array
  | object

/-- The kind of a value. -/
def kind : Json → Kind
  | null => .null
  | bool value => .bool value
  | number _ => .number
  | string _ => .string
  | array _ => .array
  | object _ => .object

/-- The kind of the values that start with a character. -/
def Kind.ofChar (c : Char) : Kind :=
  if c = 'n' then .null
  else if c = 't' then .bool true
  else if c = 'f' then .bool false
  else if c = '"' then .string
  else if c = '[' then .array
  else if c = '\x7b' then .object
  else .number

/-- A character of numbers starts a number. -/
theorem Kind.ofChar_of_isNumberChar {c : Char} (written : isNumberChar c) : ofChar c = .number := by
  have differs : ∀ d, isNumberChar d = false → c ≠ d := fun d other same => by simp [same, other] at written
  rw [ofChar, if_neg (differs _ (by decide)), if_neg (differs _ (by decide)), if_neg (differs _ (by decide)),
    if_neg (differs _ (by decide)), if_neg (differs _ (by decide)), if_neg (differs _ (by decide))]

/-! ## Parts between brackets -/

/-- A new line is followed by two blanks for each level. -/
theorem toList_newLine (level : Nat) : (newLine level).toList = '\n' :: List.replicate (2 * level) ' ' := by
  simp [newLine]

/-- The first part stands by itself, and each of the others has a separator in front of it. -/
theorem toList_intercalate_cons (separator first : String) (parts : List String) :
    (separator.intercalate (first :: parts)).toList =
      first.toList ++ parts.flatMap fun part => separator.toList ++ part.toList := by
  induction parts generalizing first with
  | nil => simp
  | cons next rest ih =>
    have later := ih next
    rw [String.toList_intercalate] at later ⊢
    rw [List.map_cons, List.map_cons, List.intercalate_cons_cons, ← List.map_cons, later, List.flatMap_cons]
    simp only [List.append_assoc]

/-- One item is never taken for another when both are written in front of texts that do not go on like a number. -/
def TellsApart {α : Type} (write : α → String) (item other : α) : Prop :=
  ∀ rest more, Stops isNumberChar rest → Stops isNumberChar more →
    (write item).toList ++ rest = (write other).toList ++ more → item = other ∧ rest = more

section Parts

variable {α : Type} {write : α → String} {items others : List α} {rest more : List Char}

/-- Items with a comma in front of each, up to a character that is no comma. -/
theorem separated_append_inj {gap : List Char} {stop : Char} (notComma : stop ≠ ',') (ends : isNumberChar stop = false)
    (apart : ∀ item ∈ items, ∀ other ∈ others, TellsApart write item other)
    (same : items.flatMap (fun item => ',' :: gap ++ (write item).toList) ++ stop :: rest =
      others.flatMap (fun item => ',' :: gap ++ (write item).toList) ++ stop :: more) : items = others ∧ rest = more := by
  have stops : ∀ (later : List α) text,
      Stops isNumberChar (later.flatMap (fun item => ',' :: gap ++ (write item).toList) ++ stop :: text) := by
    intro later text
    cases later with
    | nil => exact stops_cons.mpr ends
    | cons => exact stops_cons.mpr (by decide)
  induction items generalizing others with
  | nil =>
    cases others with
    | nil => exact ⟨rfl, (List.cons_eq_cons.mp same).2⟩
    | cons => exact absurd (List.cons_eq_cons.mp same).1 notComma
  | cons item items ih =>
    cases others with
    | nil => exact absurd (List.cons_eq_cons.mp same).1.symm notComma
    | cons other others =>
      simp only [List.flatMap_cons, List.append_assoc, List.cons_append] at same
      have here := List.append_cancel_left (List.cons_eq_cons.mp same).2
      obtain ⟨rfl, later⟩ := apart item List.mem_cons_self other List.mem_cons_self _ _ (stops _ _) (stops _ _) here
      obtain ⟨rfl, rests⟩ := ih (fun item mem other otherMem =>
        apart item (List.mem_cons_of_mem _ mem) other (List.mem_cons_of_mem _ otherMem)) later
      exact ⟨rfl, rests⟩

/-- Items with commas between them, up to a character that is no comma. -/
theorem intercalate_append_inj {separator : String} {gap : List Char} {stop : Char} {item other : α}
    (comma : separator.toList = ',' :: gap) (notComma : stop ≠ ',') (ends : isNumberChar stop = false)
    (apart : ∀ one ∈ item :: items, ∀ two ∈ other :: others, TellsApart write one two)
    (same : (separator.intercalate ((item :: items).map write)).toList ++ stop :: rest =
      (separator.intercalate ((other :: others).map write)).toList ++ stop :: more) :
    item :: items = other :: others ∧ rest = more := by
  simp only [List.map_cons, toList_intercalate_cons, List.flatMap_map, comma, List.append_assoc] at same
  -- the first item has no comma in front; with one added on both sides, all items are alike
  have separated : (item :: items).flatMap (fun item => ',' :: gap ++ (write item).toList) ++ stop :: rest =
      (other :: others).flatMap (fun item => ',' :: gap ++ (write item).toList) ++ stop :: more := by
    simpa using same
  exact separated_append_inj notComma ends apart separated

/-- Parts over several lines, up to the closing bracket. -/
theorem spread_append_inj {level : Nat} {opening closing : String} {bracket : Char} (close : closing.toList = [bracket])
    (notLine : bracket ≠ '\n') (apart : ∀ item ∈ items, ∀ other ∈ others, TellsApart write item other)
    (same : (spread level opening closing (items.map write)).toList ++ rest =
      (spread level opening closing (others.map write)).toList ++ more) : items = others ∧ rest = more := by
  cases items with
  | nil =>
    cases others with
    | nil => exact ⟨rfl, List.append_cancel_left same⟩
    | cons other others => simp [spread, close, toList_newLine, notLine] at same
  | cons item items =>
    cases others with
    | nil => simp [spread, close, toList_newLine, Ne.symm notLine] at same
    | cons other others =>
      have filled (item : α) (items : List α) : ((item :: items).map write).isEmpty = false := rfl
      simp only [spread, filled, Bool.false_eq_true, if_false, String.toList_append, toList_newLine level,
        List.append_assoc, List.cons_append] at same
      have inside := List.append_cancel_left (List.append_cancel_left same)
      have comma : ("," ++ newLine (level + 1)).toList = ',' :: (newLine (level + 1)).toList := by simp
      obtain ⟨all, behind⟩ := intercalate_append_inj comma (by decide) (by decide) apart inside
      exact ⟨all, List.append_cancel_left (List.append_cancel_left behind)⟩

end Parts

/-- Items are written one by one, all at the same level. -/
theorem prettyItems_eq_map (level : Nat) (items : List Json) : prettyItems level items = items.map (pretty level) := by
  induction items with
  | nil => rfl
  | cons item rest ih => rw [prettyItems, ih, List.map_cons]

/-- A member of an object at a level of nesting. -/
def prettyMember (level : Nat) (member : String × Json) : String := literal member.1 ++ ": " ++ pretty level member.2

/-- Members are written one by one, all at the same level. -/
theorem prettyMembers_eq_map (level : Nat) (members : List (String × Json)) :
    prettyMembers level members = members.map (prettyMember level) := by
  induction members with
  | nil => rfl
  | cons member rest ih => rw [prettyMembers, ih, List.map_cons, prettyMember]

/-- A list that is spread over lines starts with its opening bracket. -/
theorem exists_toList_spread (level : Nat) (opening closing : String) (parts : List String) :
    ∃ later, (spread level opening closing parts).toList = opening.toList ++ later := by
  rw [spread]
  split <;> simp only [String.toList_append, List.append_assoc] <;> exact ⟨_, rfl⟩

/-- The first character of a value tells its kind. -/
theorem Proper.kind_of_pretty {value : Json} (proper : Proper value) (level : Nat) :
    ∃ c later, (pretty level value).toList = c :: later ∧ Kind.ofChar c = value.kind := by
  cases proper with
  | null => exact ⟨'n', "ull".toList, by simp [pretty], rfl⟩
  | bool value =>
    cases value with
    | false => exact ⟨'f', "alse".toList, by simp [pretty], rfl⟩
    | true => exact ⟨'t', "rue".toList, by simp [pretty], rfl⟩
  | @number text written =>
    obtain ⟨c, later, first⟩ := List.exists_cons_of_ne_nil written.1
    exact ⟨c, later, first, Kind.ofChar_of_isNumberChar (written.2 c (first ▸ List.mem_cons_self))⟩
  | string text => exact ⟨'"', _, toList_literal text, rfl⟩
  | @array items =>
    obtain ⟨later, first⟩ := exists_toList_spread level "[" "]" (prettyItems (level + 1) items)
    exact ⟨'[', later, first, rfl⟩
  | @object members =>
    obtain ⟨later, first⟩ := exists_toList_spread level "\x7b" "\x7d" (prettyMembers (level + 1) members)
    exact ⟨'\x7b', later, first, rfl⟩

/-- Values that start the same text are of the same kind. -/
theorem Proper.kind_eq {value other : Json} (proper : Proper value) (otherProper : Proper other) {level : Nat}
    {rest more : List Char} (same : (pretty level value).toList ++ rest = (pretty level other).toList ++ more) :
    value.kind = other.kind := by
  obtain ⟨c, later, first, kind⟩ := proper.kind_of_pretty level
  obtain ⟨d, otherLater, otherFirst, otherKind⟩ := otherProper.kind_of_pretty level
  rw [first, otherFirst] at same
  obtain rfl : c = d := (List.cons_eq_cons.mp same).1
  exact kind.symm.trans otherKind

/-- A member is told apart by its key and then by its value. -/
theorem tellsApart_prettyMember {level : Nat} {member other : String × Json}
    (values : TellsApart (pretty level) member.2 other.2) : TellsApart (prettyMember level) member other := by
  intro rest more stops otherStops same
  simp only [prettyMember, String.toList_append, List.append_assoc] at same
  obtain ⟨keys, afterKeys⟩ := literal_append_inj same
  obtain ⟨equal, rests⟩ := values rest more stops otherStops (List.append_cancel_left afterKeys)
  exact ⟨Prod.ext keys equal, rests⟩

/-- A value is determined by its text, whatever follows it. -/
theorem Proper.tellsApart {value : Json} (proper : Proper value) :
    ∀ level, ∀ other, Proper other → TellsApart (pretty level) value other := by
  induction proper with
  | null =>
    intro level other otherProper rest more _ _ same
    have kinds := Proper.null.kind_eq otherProper same
    cases otherProper with
    | null => exact ⟨rfl, List.append_cancel_left same⟩
    | _ => cases kinds
  | bool value =>
    intro level other otherProper rest more _ _ same
    have kinds := (Proper.bool value).kind_eq otherProper same
    cases otherProper with
    | bool =>
      cases kinds
      exact ⟨rfl, List.append_cancel_left same⟩
    | _ => cases kinds
  | number written =>
    intro level other otherProper rest more stops otherStops same
    have kinds := (Proper.number written).kind_eq otherProper same
    cases otherProper with
    | number otherWritten =>
      obtain ⟨texts, rests⟩ := append_inj_of_stops written.2 otherWritten.2 stops otherStops same
      exact ⟨congrArg Json.number (String.toList_inj.mp texts), rests⟩
    | _ => cases kinds
  | string text =>
    intro level other otherProper rest more _ _ same
    have kinds := (Proper.string text).kind_eq otherProper same
    cases otherProper with
    | string other =>
      obtain ⟨rfl, rests⟩ := literal_append_inj same
      exact ⟨rfl, rests⟩
    | _ => cases kinds
  | array each ih =>
    intro level other otherProper rest more _ _ same
    have kinds := (Proper.array each).kind_eq otherProper same
    cases otherProper with
    | array otherEach =>
      simp only [pretty, prettyItems_eq_map] at same
      obtain ⟨rfl, rests⟩ := spread_append_inj rfl (by decide)
        (fun item mem other otherMem => ih item mem (level + 1) other (otherEach other otherMem)) same
      exact ⟨rfl, rests⟩
    | _ => cases kinds
  | object each ih =>
    intro level other otherProper rest more _ _ same
    have kinds := (Proper.object each).kind_eq otherProper same
    cases otherProper with
    | object otherEach =>
      simp only [pretty, prettyMembers_eq_map] at same
      obtain ⟨rfl, rests⟩ := spread_append_inj rfl (by decide)
        (fun member mem other otherMem =>
          tellsApart_prettyMember (ih member mem (level + 1) other.2 (otherEach other otherMem))) same
      exact ⟨rfl, rests⟩
    | _ => cases kinds

/-- Values with the same text are the same. -/
theorem Proper.pretty_inj {value other : Json} (proper : Proper value) (otherProper : Proper other) {level : Nat} :
    pretty level value = pretty level other ↔ value = other := by
  refine ⟨fun same => ?_, fun same => same ▸ rfl⟩
  have ends : Stops isNumberChar [] := by simp [Stops]
  exact (proper.tellsApart level other otherProper [] [] ends ends (by rw [same])).1

/-! ## Texts on one line -/

/-- Texts on one line are written one by one. -/
theorem compactItems_map_string (texts : List String) : compactItems (texts.map string) = texts.map literal := by
  induction texts with
  | nil => rfl
  | cons text rest ih => rw [List.map_cons, compactItems, ih, List.map_cons, compact]

/-- A list of texts on one line can be taken off the front. -/
theorem compact_ofStrings_append_inj {texts others : List String} {rest more : List Char}
    (same : (compact (ofStrings texts)).toList ++ rest = (compact (ofStrings others)).toList ++ more) :
    texts = others ∧ rest = more := by
  simp only [ofStrings, compact, compactItems_map_string] at same
  cases texts with
  | nil =>
    cases others with
    | nil => exact ⟨rfl, List.append_cancel_left same⟩
    | cons => simp [toList_literal] at same
  | cons text texts =>
    cases others with
    | nil => simp [toList_literal] at same
    | cons other others =>
      simp only [String.toList_append, List.append_assoc] at same
      exact intercalate_append_inj rfl (by decide) (by decide) (fun _ _ _ _ _ _ _ _ => literal_append_inj)
        (List.append_cancel_left same)

/-- A text or `null` can be taken off the front. -/
theorem compact_ofOption_append_inj {text other : Option String} {rest more : List Char}
    (same : (compact (ofOption text)).toList ++ rest = (compact (ofOption other)).toList ++ more) :
    text = other ∧ rest = more := by
  cases text with
  | none =>
    cases other with
    | none => exact ⟨rfl, List.append_cancel_left same⟩
    | some => simp [ofOption, compact, toList_literal] at same
  | some text =>
    cases other with
    | none => simp [ofOption, compact, toList_literal] at same
    | some other =>
      obtain ⟨rfl, rests⟩ := literal_append_inj same
      exact ⟨rfl, rests⟩

end Json

end JvmUnits
