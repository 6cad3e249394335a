import JvmUnits.Text.Combining
import JvmUnits.Text.Hex
import JvmUnits.Text.Unprintable

/-!
# Quoted text

Messages quote a faulty text between double quotes. What would not show for itself on a line is escaped: the quote and the
backslash, the usual control characters by their letter, and every other unprintable or combining character by its code point
in braces.
-/

namespace JvmUnits

/-- A character as it stands between the quotes. -/
def quotedChar (c : Char) : String :=
  if c = '"' then "\\\""
  else if c = '\\' then "\\\\"
  else if c = '\n' then "\\n"
  else if c = '\r' then "\\r"
  else if c = '\t' then "\\t"
  else if c.toNat = 0 then "\\0"
  else if isUnprintable c || isCombining c then "\\u\x7b" ++ hexDigits 1 c.toNat ++ "\x7d"
  else c.toString

/-- A text between double quotes, with escapes. -/
def quoted (text : String) : String :=
  "\"" ++ String.join (text.toList.map quotedChar) ++ "\""

end JvmUnits
