import JvmUnits.Decimal.Binary
import JvmUnits.Decimal.Layout
import JvmUnits.Text.Hex

/-!
# JSON

Values of JSON and their text, on one line or spread over lines. The members of an object keep their order. A number is kept
as it is written.
-/

namespace JvmUnits

/-- A value of JSON. -/
inductive Json where
  | null
  | bool (value : Bool)
  | number (literal : String)
  | string (text : String)
  | array (items : List Json)
  | object (members : List (String × Json))

namespace Json

/-- A whole number. -/
def ofInt (value : Int) : Json := number (toString value)

/-- A whole number. -/
def ofNat (value : Nat) : Json := number (toString value)

/-- A list of texts. -/
def ofStrings (texts : List String) : Json := array (texts.map string)

/-- A text, or null where there is none. -/
def ofOption (text : Option String) : Json :=
  match text with
  | none => null
  | some value => string value

/-- Words of 32 bits are written in full when their first digit stands for `10 ^ (-6)` to `10 ^ 12`; ties go to even. -/
def singleLayout : DecimalLayout := ⟨-6, 12, true, .even⟩

/-- Words of 64 bits are written in full when their first digit stands for `10 ^ (-5)` to `10 ^ 15`; ties go to even. -/
def doubleLayout : DecimalLayout := ⟨-5, 15, true, .even⟩

/-- A floating-point word; one that is not finite is written as a text. -/
def ofBinary (format : BinaryFormat) (layout : DecimalLayout) (word : Nat) : Json :=
  match format.decode word with
  | .notANumber => string "NaN"
  | .infinite negative => string (if negative then "-Infinity" else "Infinity")
  | .finite negative m q narrow => number (layout.writeBinary negative m q narrow)

/-- A character inside a text: the quote, the backslash and the control characters are escaped. -/
def escapedChar (c : Char) : String :=
  if c = '"' then "\\\""
  else if c = '\\' then "\\\\"
  else if 0x20 ≤ c.toNat then c.toString
  else if c.toNat = 0x08 then "\\b"
  else if c.toNat = 0x09 then "\\t"
  else if c.toNat = 0x0A then "\\n"
  else if c.toNat = 0x0C then "\\f"
  else if c.toNat = 0x0D then "\\r"
  else "\\u" ++ hexDigits 4 c.toNat

/-- A text with its quotes. -/
def literal (text : String) : String := "\"" ++ String.join (text.toList.map escapedChar) ++ "\""

mutual

/-- A value on one line, without spaces. -/
def compact : Json → String
  | null => "null"
  | bool true => "true"
  | bool false => "false"
  | number text => text
  | string text => literal text
  | array items => "[" ++ ",".intercalate (compactItems items) ++ "]"
  | object members => "\x7b" ++ ",".intercalate (compactMembers members) ++ "\x7d"

/-- The items of an array, each on one line. -/
def compactItems : List Json → List String
  | [] => []
  | item :: rest => compact item :: compactItems rest

/-- The members of an object, each on one line. -/
def compactMembers : List (String × Json) → List String
  | [] => []
  | (key, value) :: rest => (literal key ++ ":" ++ compact value) :: compactMembers rest

end

/-- The start of a line at a level of nesting, two spaces for each level. -/
def newLine (level : Nat) : String := "\n" ++ String.ofList (List.replicate (2 * level) ' ')

/-- Parts of a value inside a level of nesting, one to a line, between two brackets; without parts the brackets touch. -/
def spread (level : Nat) (opening closing : String) (parts : List String) : String :=
  if parts.isEmpty then opening ++ closing
  else opening ++ newLine (level + 1) ++ ("," ++ newLine (level + 1)).intercalate parts ++ newLine level ++ closing

mutual

/-- A value spread over lines, at a level of nesting. -/
def pretty (level : Nat) : Json → String
  | null => "null"
  | bool true => "true"
  | bool false => "false"
  | number text => text
  | string text => literal text
  | array items => spread level "[" "]" (prettyItems (level + 1) items)
  | object members => spread level "\x7b" "\x7d" (prettyMembers (level + 1) members)

/-- The items of an array at a level of nesting. -/
def prettyItems (level : Nat) : List Json → List String
  | [] => []
  | item :: rest => pretty level item :: prettyItems level rest

/-- The members of an object at a level of nesting. -/
def prettyMembers (level : Nat) : List (String × Json) → List String
  | [] => []
  | (key, value) :: rest => (literal key ++ ": " ++ pretty level value) :: prettyMembers level rest

end

end Json

end JvmUnits
