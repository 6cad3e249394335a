/-!
# Texts cut at a separator
-/

namespace JvmUnits

/-- The pieces of a text between the occurrences of a separator; there is always at least one piece. -/
def pieces (separator : Char) : List Char → List (List Char)
  | [] => [[]]
  | c :: rest =>
    if c = separator then [] :: pieces separator rest
    else match pieces separator rest with
      | [] => [[c]]
      | piece :: more => (c :: piece) :: more

/-- A text with one character replaced by another throughout. -/
def replaceChar (old new : Char) (text : List Char) : List Char :=
  text.map fun c => if c = old then new else c

/-- A dotted name as a path: every dot becomes a slash. -/
def slashed (name : String) : String := String.ofList (replaceChar '.' '/' name.toList)

/-- The text before a given ending, if the text ends so. -/
def withoutEnding (ending text : List Char) : Option (List Char) :=
  if ending.isSuffixOf text then some (text.take (text.length - ending.length)) else none

/-- A text with an ending ends so. -/
theorem withoutEnding_append (text ending : List Char) : withoutEnding ending (text ++ ending) = some text := by
  simp [withoutEnding]

end JvmUnits
