import JvmUnits.ClassPath.Index
import JvmUnits.Proofs.Paths

/-!
# What a class pattern selects

The items of a pattern match a path from a place on if each of them takes up a span of the path, one behind the other (`Leads`).
Matching fills in the answers for every place, item by item from the last one on, and finds exactly these paths
(`ClassPattern.selects_iff_accepts`). A pattern is written as words with stars between them. It selects the paths that are made
of these words, of a gap in the place of each star, and of the ending of a class file (`ClassPattern.Matches`), however many
stars there are and wherever they stand (`ClassPattern.selects_iff_matches`). The classes that some pattern selects are listed
once each, in the order of their paths (`ClassIndex.matching_exact`).
-/

namespace JvmUnits

namespace ClassPattern

/-- What may stand in the place of a star: one or more characters, none of them a newline. -/
def IsGap (text : List Char) : Prop := text ≠ [] ∧ '\n' ∉ text

/-- The path is made of the words of the pattern with a gap in the place of each star, and of the ending of a class file. The
pattern is its first word and, star by star, the words behind the stars; its dots are slashes. With the word behind each star
goes the gap in front of it. -/
def Matches (pattern path : String) : Prop :=
  ∃ (first : List Char) (rest : List (List Char × List Char)),
    ['*'].intercalate (first :: rest.map Prod.snd) = replaceChar '.' '/' pattern.toList ∧
      (∀ word ∈ first :: rest.map Prod.snd, '*' ∉ word) ∧ (∀ gap ∈ rest.map Prod.fst, IsGap gap) ∧
      path.toList = first ++ rest.flatMap (fun item => item.1 ++ item.2) ++ ".class".toList

/-- A gap is a character that is no newline with nothing or with another gap behind it. -/
theorem isGap_cons_iff {c : Char} {text : List Char} : IsGap (c :: text) ↔ c ≠ '\n' ∧ (text = [] ∨ IsGap text) := by
  by_cases empty : text = []
  · simp [IsGap, empty, eq_comm]
  · simp [IsGap, empty, eq_comm]

end ClassPattern

/-! ## What items mean -/

namespace PatternItem

/-- The item takes up a span of a path, given whether the path starts there and what is behind the span. -/
def Takes : PatternItem → Bool → List Char → List Char → Prop
  | textStart, atStart, span, _ => atStart = true ∧ span = []
  | textEnd, _, span, rest => span = [] ∧ rest = []
  | literal c, _, span, _ => span = [c]
  | gap, _, span, _ => ClassPattern.IsGap span

/-- The items match from a place of a path on, which is given by whether it is the start and by what is behind it: each item takes
up a span, one behind the other. -/
def Leads : List PatternItem → Bool → List Char → Prop
  | [], _, _ => True
  | item :: items, atStart, path =>
    ∃ span rest, path = span ++ rest ∧ item.Takes atStart span rest ∧ Leads items (atStart && span.isEmpty) rest

variable {items : List PatternItem} {atStart : Bool} {path : List Char}

/-- The start of a path takes up nothing, and is at the start only. -/
theorem leads_textStart_iff : Leads (textStart :: items) atStart path ↔ atStart = true ∧ Leads items true path := by
  constructor
  · rintro ⟨_, rest, rfl, ⟨rfl, rfl⟩, more⟩
    exact ⟨rfl, more⟩
  · rintro ⟨rfl, more⟩
    exact ⟨[], path, rfl, ⟨rfl, rfl⟩, more⟩

/-- The end of a path takes up nothing, and has nothing behind it. -/
theorem leads_textEnd_iff : Leads (textEnd :: items) atStart path ↔ path = [] ∧ Leads items atStart path := by
  constructor
  · rintro ⟨_, _, rfl, ⟨rfl, rfl⟩, more⟩
    exact ⟨rfl, by simpa using more⟩
  · rintro ⟨rfl, more⟩
    exact ⟨[], [], rfl, ⟨rfl, rfl⟩, by simpa using more⟩

/-- A literal takes up its character. -/
theorem leads_literal_iff {c : Char} :
    Leads (literal c :: items) atStart path ↔ ∃ rest, path = c :: rest ∧ Leads items false rest := by
  constructor
  · rintro ⟨_, rest, rfl, rfl, more⟩
    exact ⟨rest, rfl, by simpa using more⟩
  · rintro ⟨rest, rfl, more⟩
    exact ⟨[c], rest, rfl, rfl, by simpa using more⟩

/-- A gap takes up some characters, so that the start of the path lies before it. -/
theorem leads_gap_iff :
    Leads (gap :: items) atStart path ↔ ∃ span rest, path = span ++ rest ∧ ClassPattern.IsGap span ∧ Leads items false rest := by
  have behind : ∀ span, ClassPattern.IsGap span → (atStart && span.isEmpty) = false := by
    intro span isGap
    simp [isGap.1]
  constructor
  · rintro ⟨span, rest, split, isGap, more⟩
    exact ⟨span, rest, split, isGap, behind span isGap ▸ more⟩
  · rintro ⟨span, rest, split, isGap, more⟩
    exact ⟨span, rest, split, isGap, (behind span isGap).symm ▸ more⟩

/-- A gap takes up the next character, unless it is a newline, and there it ends or goes on. -/
theorem leads_gap_cons_iff {c : Char} :
    Leads (gap :: items) atStart (c :: path) ↔ c ≠ '\n' ∧ (Leads items false path ∨ Leads (gap :: items) false path) := by
  rw [leads_gap_iff, leads_gap_iff]
  constructor
  · rintro ⟨span, rest, split, isGap, more⟩
    obtain ⟨d, span, rfl⟩ := List.exists_cons_of_ne_nil isGap.1
    obtain ⟨rfl, rfl⟩ := List.cons.inj split
    obtain ⟨visible, rfl | longer⟩ := ClassPattern.isGap_cons_iff.mp isGap
    · exact ⟨visible, Or.inl more⟩
    · exact ⟨visible, Or.inr ⟨span, rest, rfl, longer, more⟩⟩
  · rintro ⟨visible, more | ⟨span, rest, rfl, isGap, more⟩⟩
    · exact ⟨[c], path, rfl, ClassPattern.isGap_cons_iff.mpr ⟨visible, Or.inl rfl⟩, more⟩
    · exact ⟨c :: span, rest, rfl, ClassPattern.isGap_cons_iff.mpr ⟨visible, Or.inr isGap⟩, more⟩

/-! ## Answers -/

/-- The answer at the end of a path. -/
theorem answer_nil_iff {item : PatternItem} {here : Bool} (told : here = true ↔ Leads items atStart []) :
    item.answer atStart none here false false = true ↔ Leads (item :: items) atStart [] := by
  cases item with
  | textStart =>
    rw [leads_textStart_iff, answer, Bool.and_eq_true, told]
    exact and_congr_right fun first => by rw [first]
  | textEnd =>
    rw [leads_textEnd_iff, answer, Bool.and_eq_true, told]
    simp
  | literal c =>
    rw [leads_literal_iff]
    simp [answer]
  | gap =>
    rw [leads_gap_iff]
    simp [answer, ClassPattern.IsGap]

/-- The answer at a place with a character behind it. -/
theorem answer_cons_iff {item : PatternItem} {c : Char} {here next later : Bool}
    (told : here = true ↔ Leads items atStart (c :: path)) (ahead : next = true ↔ Leads items false path)
    (again : later = true ↔ Leads (item :: items) false path) :
    item.answer atStart (some c) here next later = true ↔ Leads (item :: items) atStart (c :: path) := by
  cases item with
  | textStart =>
    rw [leads_textStart_iff, answer, Bool.and_eq_true, told]
    exact and_congr_right fun first => by rw [first]
  | textEnd =>
    rw [leads_textEnd_iff]
    simp [answer]
  | literal x =>
    rw [leads_literal_iff, answer, Bool.and_eq_true, decide_eq_true_iff, ahead]
    constructor
    · rintro ⟨same, more⟩
      obtain rfl := Option.some.inj same
      exact ⟨path, rfl, more⟩
    · rintro ⟨rest, split, more⟩
      obtain ⟨rfl, rfl⟩ := List.cons.inj split
      exact ⟨rfl, more⟩
  | gap =>
    rw [leads_gap_cons_iff, ← ahead, ← again]
    simp [answer]

/-- The list has the answers to a question at every place of a path from some place on. -/
inductive Tells (asks : Bool → List Char → Prop) : Bool → List Char → List Bool → Prop
  | last {atStart answer : Bool} (told : answer = true ↔ asks atStart []) : Tells asks atStart [] [answer]
  | cons {atStart answer : Bool} {c : Char} {rest : List Char} {later : List Bool}
    (told : answer = true ↔ asks atStart (c :: rest)) (ahead : Tells asks false rest later) :
    Tells asks atStart (c :: rest) (answer :: later)

namespace Tells

variable {asks : Bool → List Char → Prop} {known : List Bool}

/-- The first answer is the one for the place itself. -/
theorem headD_iff (tells : Tells asks atStart path known) : known.headD false = true ↔ asks atStart path := by
  cases tells with
  | last told => exact told
  | cons told => exact told

/-- Some answer is yes when there is a place where it is yes. -/
theorem any_iff (tells : Tells asks atStart path known) :
    known.any id = true ↔ ∃ before rest, path = before ++ rest ∧ asks (atStart && before.isEmpty) rest := by
  induction tells with
  | last told => simp [told]
  | @cons atStart answer c rest later told ahead ih =>
    rw [List.any_cons, Bool.or_eq_true, ih, id, told]
    constructor
    · rintro (first | ⟨before, rest, rfl, more⟩)
      · exact ⟨[], c :: rest, rfl, by simpa using first⟩
      · exact ⟨c :: before, rest, rfl, by simpa using more⟩
    · rintro ⟨_ | ⟨d, before⟩, behind, split, more⟩
      · obtain rfl : c :: rest = behind := split
        exact Or.inl (by simpa using more)
      · obtain ⟨rfl, rfl⟩ := List.cons.inj split
        exact Or.inr ⟨before, behind, rfl, by simpa using more⟩

/-- Answers for some items give the answers for one more item in front of them. -/
theorem answers (tells : Tells (Leads items) atStart path known) (item : PatternItem) :
    Tells (Leads (item :: items)) atStart path (item.answers atStart path known) := by
  induction tells with
  | last told => exact .last (answer_nil_iff told)
  | cons told ahead ih => exact .cons (answer_cons_iff told ahead.headD_iff ih.headD_iff) ih

end Tells

/-- With no items left, every answer is yes. -/
theorem tells_true (atStart : Bool) (path : List Char) : Tells (Leads []) atStart path (true :: path.map fun _ => true) := by
  induction path generalizing atStart with
  | nil => exact .last (iff_of_true rfl trivial)
  | cons c rest ih => exact .cons (iff_of_true rfl trivial) (ih false)

end PatternItem

namespace ClassPattern

open PatternItem

/-- The items of the pattern match the path from some place on. -/
def Accepts (pattern : ClassPattern) (path : List Char) : Prop :=
  ∃ before rest, path = before ++ rest ∧ Leads pattern.items before.isEmpty rest

/-- A pattern selects the paths that its items match. -/
theorem selects_iff_accepts {pattern : ClassPattern} {path : String} :
    pattern.selects path = true ↔ pattern.Accepts path.toList := by
  have told : Tells (Leads pattern.items) true path.toList (pattern.answers path.toList) := by
    unfold answers
    induction pattern.items with
    | nil => exact tells_true true path.toList
    | cons item items ih => exact ih.answers item
  rw [selects, told.any_iff, Accepts]
  simp only [Bool.true_and]

/-! ## Words and gaps -/

/-- An escaped text takes up itself. -/
theorem leads_escape_iff {word : List Char} {items : List PatternItem} {atStart : Bool} {path : List Char} :
    Leads (escape word ++ items) atStart path ↔ ∃ rest, path = word ++ rest ∧ Leads items (atStart && word.isEmpty) rest := by
  induction word generalizing atStart path with
  | nil => simp [escape]
  | cons c word ih =>
    change Leads (.literal c :: (escape word ++ items)) atStart path ↔ _
    rw [leads_literal_iff]
    constructor
    · rintro ⟨_, rfl, more⟩
      obtain ⟨rest, rfl, behind⟩ := ih.mp more
      exact ⟨rest, rfl, by simpa using behind⟩
    · rintro ⟨rest, rfl, more⟩
      exact ⟨word ++ rest, rfl, ih.mpr ⟨rest, rfl, by simpa using more⟩⟩

/-- Words that are joined by gaps match a path exactly when gaps can be put between them so that they make the path, up to the
text that the items behind them stand for. -/
theorem leads_words_iff {items : List PatternItem} {ending : List Char}
    (ends : ∀ atStart path, Leads items atStart path ↔ path = ending) {first : List Char} {words : List (List Char)}
    {atStart : Bool} {path : List Char} :
    Leads ([PatternItem.gap].intercalate ((first :: words).map escape) ++ items) atStart path ↔
      ∃ rest : List (List Char × List Char), rest.map Prod.snd = words ∧ (∀ gap ∈ rest.map Prod.fst, IsGap gap) ∧
        path = first ++ rest.flatMap (fun item => item.1 ++ item.2) ++ ending := by
  induction words generalizing first atStart path with
  | nil =>
    rw [List.map_cons, List.map_nil, List.intercalate_singleton, leads_escape_iff]
    constructor
    · rintro ⟨rest, rfl, more⟩
      exact ⟨[], rfl, by simp, by simp [(ends _ _).mp more]⟩
    · rintro ⟨rest, none, _, rfl⟩
      obtain rfl := List.map_eq_nil_iff.mp none
      exact ⟨ending, by simp, (ends _ _).mpr rfl⟩
  | cons word words ih =>
    rw [List.map_cons, List.map_cons, List.intercalate_cons_cons, List.append_assoc, List.append_assoc, leads_escape_iff]
    simp only [List.singleton_append, leads_gap_iff]
    rw [← List.map_cons]
    constructor
    · rintro ⟨_, rfl, gap, _, rfl, isGap, more⟩
      obtain ⟨rest, rfl, gaps, rfl⟩ := ih.mp more
      refine ⟨(gap, word) :: rest, rfl, ?_, by simp⟩
      rw [List.map_cons, List.forall_mem_cons]
      exact ⟨isGap, gaps⟩
    · rintro ⟨made, spelled, gaps, rfl⟩
      obtain ⟨⟨gap, _⟩, rest, rfl, rfl, rfl⟩ := List.map_eq_cons_iff.mp spelled
      rw [List.map_cons, List.forall_mem_cons] at gaps
      exact ⟨_, List.append_assoc _ _ _, gap, _, by simp, gaps.1, ih.mpr ⟨rest, rfl, gaps.2, rfl⟩⟩

/-- What stands behind the words matches the ending of a class file. -/
theorem leads_ending_iff (atStart : Bool) (path : List Char) :
    Leads (escape classEnding ++ [.textEnd]) atStart path ↔ path = classEnding := by
  rw [leads_escape_iff]
  constructor
  · rintro ⟨rest, rfl, more⟩
    rw [(leads_textEnd_iff.mp more).1, List.append_nil]
  · rintro rfl
    exact ⟨[], (List.append_nil _).symm, leads_textEnd_iff.mpr ⟨rfl, trivial⟩⟩

/-- A pattern selects exactly the paths that it matches by its meaning. -/
theorem selects_iff_matches {pattern path : String} : (ofString pattern).selects path = true ↔ Matches pattern path := by
  obtain ⟨first, words, cut⟩ := List.exists_cons_of_ne_nil (pieces_ne_nil '*' (slashed pattern).toList)
  have text : (slashed pattern).toList = replaceChar '.' '/' pattern.toList := String.toList_ofList
  -- the pattern matches at the start of a path only
  have anchored : (ofString pattern).Accepts path.toList ↔ Leads ([PatternItem.gap].intercalate
      ((first :: words).map escape) ++ (escape classEnding ++ [.textEnd])) true path.toList := by
    rw [Accepts, ofString, cut]
    simp only [leads_textStart_iff, List.isEmpty_iff, List.append_assoc]
    constructor
    · rintro ⟨_, rest, split, rfl, more⟩
      rwa [split]
    · intro more
      exact ⟨[], path.toList, rfl, rfl, more⟩
  rw [selects_iff_accepts, anchored, leads_words_iff leads_ending_iff, Matches, ← text]
  constructor
  · rintro ⟨rest, rfl, gaps, made⟩
    refine ⟨first, rest, ?_, ?_, gaps, made⟩
    · rw [← cut, intercalate_pieces]
    · rw [← cut]
      exact fun word mem => separator_not_mem_of_mem_pieces mem
  · rintro ⟨_, rest, spelled, free, gaps, made⟩
    -- the words of the pattern are its pieces
    have same := pieces_intercalate (List.cons_ne_nil _ _) free
    rw [spelled, cut] at same
    obtain ⟨rfl, rfl⟩ := List.cons.inj same
    exact ⟨rest, rfl, gaps, made⟩

end ClassPattern

/-! ## The classes that patterns select -/

namespace ClassIndex

variable {index : ClassIndex} {patterns : List ClassPattern} {name : String}

/-- A path that is read as that of a class file is the path of the class with this name. -/
theorem className?_eq_some_iff {path : String} : className? path = some name ↔ path = classFilePath name := by
  constructor
  · intro read
    obtain ⟨front, found, rfl⟩ := Option.map_eq_some_iff.mp read
    rw [withoutEnding, Option.ite_none_right_eq_some, List.isSuffixOf_iff_suffix] at found
    obtain ⟨⟨front, ends⟩, taken⟩ := found
    rw [← ends, List.length_append, Nat.add_sub_cancel, List.take_left, Option.some.injEq] at taken
    subst taken
    rw [← String.toList_inj, ← ends, classFilePath, String.toList_append, String.toList_ofList, String.toList_ofList]
  · rintro rfl
    exact className?_classFilePath name

/-- A class is selected when its class file is in the index and some pattern selects the path. -/
theorem mem_matchingClasses_iff :
    name ∈ index.matchingClasses patterns ↔
      (index.resolve (classFilePath name)).isSome = true ∧
        ∃ pattern ∈ patterns, pattern.selects (classFilePath name) = true := by
  rw [matchingClasses, resolve, ← Std.TreeMap.mem_iff_isSome_getElem?, ← Std.TreeMap.mem_keys, List.mem_filterMap]
  simp only [List.mem_filter, List.any_eq_true, className?_eq_some_iff]
  constructor
  · rintro ⟨path, found, rfl⟩
    exact found
  · intro found
    exact ⟨classFilePath name, found, rfl⟩

/-- Selected classes are in ascending order of their paths. -/
theorem ascending_matchingClasses :
    (index.matchingClasses patterns).Pairwise fun one other => classFilePath one < classFilePath other := by
  have ordered := (Std.TreeMap.ordered_keys (t := index.entries)).filter fun path => patterns.any (·.selects path)
  refine List.pairwise_filterMap.mpr (ordered.imp ?_)
  intro path other less one read two read'
  rw [← className?_eq_some_iff.mp read, ← className?_eq_some_iff.mp read']
  exact compareOfLessAndEq_eq_lt.mp less

/-- A pattern selects a path exactly when the path is made of the words of the pattern, with a gap of one or more characters
other than newlines in the place of each star, and of the ending of a class file. The classes that patterns select from an index
are those whose class file is in the index under a path that some pattern matches, in ascending order of their paths and each
once. -/
theorem matching_exact :
    (∀ pattern path, (ClassPattern.ofString pattern).selects path = true ↔ ClassPattern.Matches pattern path) ∧
      ∀ (index : ClassIndex) (patterns : List String),
        (∀ name, name ∈ index.matchingClasses (patterns.map ClassPattern.ofString) ↔
          (index.resolve (classFilePath name)).isSome = true ∧
            ∃ pattern ∈ patterns, ClassPattern.Matches pattern (classFilePath name)) ∧
        (index.matchingClasses (patterns.map ClassPattern.ofString)).Pairwise
          (fun one other => classFilePath one < classFilePath other) ∧
        (index.matchingClasses (patterns.map ClassPattern.ofString)).Nodup := by
  refine ⟨fun _ _ => ClassPattern.selects_iff_matches, fun index patterns => ⟨fun name => ?_, ?_, ?_⟩⟩
  · simp only [mem_matchingClasses_iff, List.mem_map, exists_exists_and_eq_and, ClassPattern.selects_iff_matches]
  · exact ascending_matchingClasses
  · refine ascending_matchingClasses.imp fun {one other} less same => ?_
    rw [same] at less
    exact absurd less (String.lt_irrefl _)

/-- The longest first gap, `x/B`, would leave nothing for the second. -/
example : (ClassPattern.ofString "*.B*").selects "x/B/B.class" = true := by decide +kernel

end ClassIndex

end JvmUnits
