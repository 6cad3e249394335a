import JvmUnits.Text.Pieces

/-!
# Class patterns

A pattern selects class files by their path. It is written with dots or slashes between packages, and each `*` stands for one
or more characters, slashes included and newlines excluded. All other characters stand for themselves. A pattern that has been
read is a list of items, which a path is matched against from some place of it on.
-/

namespace JvmUnits

/-- The ending of the path of a class file. -/
def classEnding : List Char := ".class".toList

/-- An item of a pattern: the start or the end of a path, a character that stands for itself, or a gap, which is one or more
characters other than newlines. -/
inductive PatternItem where
  | textStart
  | textEnd
  | literal (c : Char)
  | gap
  deriving DecidableEq, Repr

/-- A class pattern as its items in order. -/
structure ClassPattern where
  items : List PatternItem
  deriving DecidableEq, Repr

namespace ClassPattern

/-- The items of a text that stands for itself throughout. -/
def escape (text : List Char) : List PatternItem := text.map .literal

/-- Reads a pattern. Its dots become slashes, the texts between its stars are escaped and joined by gaps, and with the escaped
ending of a class file behind them they take up a path from its start to its end. -/
def ofString (pattern : String) : ClassPattern :=
  let words := pieces '*' (slashed pattern).toList
  let body := [PatternItem.gap].intercalate (words.map escape)
  ⟨.textStart :: (body ++ escape classEnding ++ [.textEnd])⟩

end ClassPattern

/-! ## Matching

Whether items match is asked at every place of a path: at its start, after its first character, and so on to its end. The
answers are kept in a list, one for every place, so that no question is asked twice. -/

namespace PatternItem

/-- The answer for an item and the items behind it at a place, from the character there (none at the end of the path), from the
answers for the items behind it here and at the next place, and from the answer for all of them at the next place. -/
def answer (item : PatternItem) (atStart : Bool) (c : Option Char) (here next later : Bool) : Bool :=
  match item with
  | textStart => atStart && here
  | textEnd => c.isNone && here
  | literal x => c = some x && next
  | gap => c.isSome && c ≠ some '\n' && (next || later)

/-- The answers for an item and the items behind it, from the answers for the items behind it. -/
def answers (item : PatternItem) : Bool → List Char → List Bool → List Bool
  | atStart, [], known => [item.answer atStart none (known.headD false) false false]
  | atStart, c :: rest, known =>
    let later := item.answers false rest (known.drop 1)
    item.answer atStart (some c) (known.headD false) ((known.drop 1).headD false) (later.headD false) :: later

end PatternItem

namespace ClassPattern

/-- The answers for all items of a pattern. With no items left the answer is yes, at every place. -/
def answers (pattern : ClassPattern) (path : List Char) : List Bool :=
  pattern.items.foldr (fun item known => item.answers true path known) (true :: path.map fun _ => true)

/-- The pattern selects the path: its items match from some place on. -/
def selects (pattern : ClassPattern) (path : String) : Bool := (pattern.answers path.toList).any id

end ClassPattern

/-! ## Size

A pattern stands for two automata, one that reads a path from its start and one that reads it from its end. A pattern is too
large when either of them takes more bytes than the limit of the engine that builds them. -/

/-- An engine for patterns: the most bytes that an automaton may take, and the bytes that the automata of a pattern take. This is
all that is asked of an engine, and nothing is known of its answers: what holds of a session holds with every engine. -/
structure PatternEngine where
  sizeLimit : Nat
  sizes : ClassPattern → List Nat

/-- The pattern is too large for the engine. -/
def PatternEngine.refuses (engine : PatternEngine) (pattern : ClassPattern) : Bool :=
  (engine.sizes pattern).any fun size => engine.sizeLimit < size

/-- What an automaton takes in bytes: once, for every gap, and for every byte of the characters that stand for themselves. -/
structure AutomatonCost where
  once : Nat
  gap : Nat
  byte : Nat

namespace AutomatonCost

/-- The bytes that an automaton takes for an item. -/
def item (cost : AutomatonCost) : PatternItem → Nat
  | .literal c => cost.byte * c.utf8Size
  | .gap => cost.gap
  | _ => 0

/-- The bytes that an automaton of a pattern takes. -/
def size (cost : AutomatonCost) (pattern : ClassPattern) : Nat :=
  pattern.items.foldl (fun size item => size + cost.item item) cost.once

/-- The cost of the automaton that reads a path from its start. A state takes 32 bytes. A gap takes ten states, one for each
place inside an encoded character and one to go on or back, with 17 ranges of bytes and two ways out. -/
def forward : AutomatonCost := ⟨192, 464, 32⟩

/-- The cost of the automaton that reads a path from its end. A gap takes 31 states, because the last bytes of a character do
not tell how many bytes come before them, with 12 ways out. -/
def backward : AutomatonCost := ⟨128, 1040, 32⟩

end AutomatonCost

/-- The engine of sessions that start. -/
def PatternEngine.standard : PatternEngine where
  sizeLimit := 10485760
  sizes pattern := [AutomatonCost.forward.size pattern, AutomatonCost.backward.size pattern]

end JvmUnits
