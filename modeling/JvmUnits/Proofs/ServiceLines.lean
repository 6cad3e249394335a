import JvmUnits.ClassPath.Services
import JvmUnits.Proofs.Paths
import Mathlib.Data.List.DropRight
import Mathlib.Data.List.Forall2

/-!
# Lines of service descriptors

A service descriptor is read line by line. A line is white space, a name with dots, white space and possibly a comment, or it
has no name (`ServiceDescriptor.Lists`); how it ends, with a line feed alone or with a carriage return before it, does not
matter. So descriptors can be put together with a line feed between them, and the names that are found, written one to a line,
are a descriptor of the same classes (`ServiceDescriptor.classes_linewise`).
-/

namespace JvmUnits

/-! ## White space at the ends -/

/-- The text has white space at neither end. -/
structure Tight (text : List Char) : Prop where
  first : ∀ c, text.head? = some c → isBlank c = false
  last : ∀ c, text.getLast? = some c → isBlank c = false

/-- The text is white space throughout. -/
def AllBlank (text : List Char) : Prop := ∀ c ∈ text, isBlank c = true

theorem trimBlanks_eq (text : List Char) : trimBlanks text = (text.dropWhile isBlank).rdropWhile isBlank := rfl

/-- A text is what trimming leaves of it, with white space at both ends. -/
theorem exists_trimBlanks (text : List Char) :
    ∃ before after, AllBlank before ∧ AllBlank after ∧ text = before ++ trimBlanks text ++ after := by
  refine ⟨text.takeWhile isBlank, (text.dropWhile isBlank).rtakeWhile isBlank, ?_, ?_, ?_⟩
  · intro c mem
    exact List.mem_takeWhile_imp mem
  · intro c mem
    exact List.mem_rtakeWhile_imp mem
  · rw [trimBlanks_eq, List.append_assoc, List.rdropWhile_append_rtakeWhile, List.takeWhile_append_dropWhile]

/-- Trimming adds no character. -/
theorem mem_of_mem_trimBlanks {text : List Char} {c : Char} (mem : c ∈ trimBlanks text) : c ∈ text := by
  obtain ⟨before, after, -, -, whole⟩ := exists_trimBlanks text
  rw [whole]
  exact List.mem_append_left after (List.mem_append_right before mem)

/-- What is trimmed has no blanks at its ends. -/
theorem tight_trimBlanks (text : List Char) : Tight (trimBlanks text) where
  first c here := by
    obtain ⟨rest, whole⟩ := List.rdropWhile_prefix isBlank (text.dropWhile isBlank)
    have start : (text.dropWhile isBlank).head? = some c := by
      rw [← whole, List.head?_append]
      exact Option.or_eq_some_iff.mpr (.inl here)
    have stopped := List.head?_dropWhile_not isBlank text
    rwa [start] at stopped
  last c here := by
    rw [trimBlanks, List.getLast?_reverse] at here
    have stopped := List.head?_dropWhile_not isBlank (text.dropWhile isBlank).reverse
    rwa [here] at stopped

/-- A text without blanks at its ends stays. -/
theorem trimBlanks_of_tight {text : List Char} (tight : Tight text) : trimBlanks text = text := by
  have start : text.dropWhile isBlank = text := by
    cases text with
    | nil => rfl
    | cons c rest => exact List.dropWhile_cons_of_neg (by simp [tight.first c rfl])
  rw [trimBlanks_eq, start, List.rdropWhile_eq_self_iff]
  intro nonempty
  simp [tight.last _ (List.getLast?_eq_some_getLast nonempty)]

/-- White space at the end does not count. -/
theorem trimBlanks_concat (text : List Char) {c : Char} (blank : isBlank c = true) :
    trimBlanks (text ++ [c]) = trimBlanks text := by
  rw [trimBlanks_eq, trimBlanks_eq, List.dropWhile_append]
  split
  · rename_i empty
    rw [List.isEmpty_iff.mp empty, List.dropWhile_cons_of_pos blank, List.dropWhile_nil]
  · exact List.rdropWhile_concat_pos _ _ _ blank

namespace ServiceDescriptor

/-! ## What a line lists -/

/-- A line and the classes that it lists, none or one: `before`, `after` and `space` are white space, and a comment goes from a
`#` to the end of the line. -/
inductive Lists : List Char → List String → Prop where
  | nothing {space comment : List Char} (blank : AllBlank space) (remark : ∀ c, comment.head? = some c → c = '#') :
      Lists (space ++ comment) []
  | name {before name after comment : List Char} (front : AllBlank before) (back : AllBlank after) (present : name ≠ [])
      (tight : Tight name) (plain : '#' ∉ name) (remark : ∀ c, comment.head? = some c → c = '#') :
      Lists (before ++ name ++ after ++ comment) [String.ofList (replaceChar '.' '/' name)]

/-- The classes that a line lists, none or one. -/
def lineClasses (line : List Char) : List String := if lineClass line = [] then [] else [String.ofList (lineClass line)]

/-- A line lists nothing when there are only blanks in front of its comment. -/
theorem lineClass_eq_nil_iff {line : List Char} : lineClass line = [] ↔ trimBlanks (line.takeWhile (· ≠ '#')) = [] := by
  rw [lineClass, replaceChar, List.map_eq_nil_iff]

/-- The classes of a line are those that it lists. -/
theorem lists_lineClasses (line : List Char) : Lists line (lineClasses line) := by
  obtain ⟨before, after, front, back, whole⟩ := exists_trimBlanks (line.takeWhile (· ≠ '#'))
  have remark : ∀ c, (line.dropWhile (· ≠ '#')).head? = some c → c = '#' := by
    intro c here
    have stopped := List.head?_dropWhile_not (· ≠ '#') line
    rw [here] at stopped
    simpa using stopped
  by_cases empty : trimBlanks (line.takeWhile (· ≠ '#')) = []
  · rw [lineClasses, if_pos (lineClass_eq_nil_iff.mpr empty)]
    have blank : AllBlank (line.takeWhile (· ≠ '#')) := by
      rw [whole, empty, List.append_nil]
      exact fun c mem => (List.mem_append.mp mem).elim (front c) (back c)
    have shape := Lists.nothing blank remark
    rwa [List.takeWhile_append_dropWhile] at shape
  · rw [lineClasses, if_neg (mt lineClass_eq_nil_iff.mp empty)]
    have plain : '#' ∉ trimBlanks (line.takeWhile (· ≠ '#')) := by
      intro mem
      simpa using List.mem_takeWhile_imp (mem_of_mem_trimBlanks mem)
    have shape := Lists.name front back empty (tight_trimBlanks _) plain remark
    rwa [← whole, List.takeWhile_append_dropWhile] at shape

/-- A descriptor lists the classes that its lines list, in order. -/
theorem classes_eq_flatMap (content : String) : classes content = (pieces '\n' content.toList).flatMap lineClasses := by
  unfold classes
  induction pieces '\n' content.toList with
  | nil => rfl
  | cons line lines ih =>
    rw [List.flatMap_cons, ← ih, lineClasses, List.map_cons]
    by_cases empty : lineClass line = []
    · simp [empty]
    · simp [empty]

/-! ## How lines end -/

/-- The lines of a text. A line feed ends a line, together with a carriage return just before it; the last line may end
without it. -/
def lines (text : List Char) : List (List Char) :=
  let all := pieces '\n' text
  (all.dropLast.map fun line => (withoutEnding ['\r'] line).getD line) ++ if all.getLastD [] = [] then [] else [all.getLastD []]

/-- A carriage return at the end of a line does not count, be it part of a comment or white space. -/
theorem lineClass_concat_return (line : List Char) : lineClass (line ++ ['\r']) = lineClass line := by
  have cut : (line ++ ['\r']).takeWhile (· ≠ '#') = line.takeWhile (· ≠ '#') ∨
      (line ++ ['\r']).takeWhile (· ≠ '#') = line.takeWhile (· ≠ '#') ++ ['\r'] := by
    rw [List.takeWhile_append]
    split
    · rename_i all
      have whole : line.takeWhile (· ≠ '#') = line := (List.takeWhile_prefix _).eq_of_length all
      rw [whole]
      exact .inr rfl
    · exact .inl rfl
  unfold lineClass
  rcases cut with same | longer
  · rw [same]
  · rw [longer, trimBlanks_concat _ rfl]

/-- A return at the end of a line does not matter: it is a blank. -/
theorem lineClasses_withoutEnding (line : List Char) :
    lineClasses ((withoutEnding ['\r'] line).getD line) = lineClasses line := by
  by_cases ends : ['\r'] <:+ line
  · obtain ⟨front, rfl⟩ := ends
    rw [withoutEnding_append, Option.getD_some, lineClasses, lineClasses, lineClass_concat_return]
  · have kept : withoutEnding ['\r'] line = none := by
      rw [withoutEnding, if_neg (mt List.isSuffixOf_iff_suffix.mp ends)]
    rw [kept, Option.getD_none]

/-- Lines that end in a return and a newline list what the pieces between newlines list. -/
theorem flatMap_lines (text : List Char) : (lines text).flatMap lineClasses = (pieces '\n' text).flatMap lineClasses := by
  obtain ⟨front, last, all⟩ := (List.eq_nil_or_concat (pieces '\n' text)).resolve_left (pieces_ne_nil '\n' text)
  rw [List.concat_eq_append] at all
  have final : (if last = [] then [] else [last]).flatMap lineClasses = lineClasses last := by
    by_cases empty : last = []
    · subst empty
      decide
    · simp [empty]
  simp only [lines, all, List.dropLast_concat, List.getLastD_concat, List.flatMap_append, List.flatMap_map,
    lineClasses_withoutEnding, final, List.flatMap_singleton]

/-! ## Names -/

/-- The name of a class as a descriptor gives it. -/
structure IsListed (name : String) : Prop where
  nonempty : name ≠ ""
  plain : ∀ c ∈ name.toList, c ≠ '.' ∧ c ≠ '#' ∧ c ≠ '\n'
  tight : Tight name.toList

/-- Replacing dots makes no blanks. -/
theorem tight_replaceChar {text : List Char} (tight : Tight text) : Tight (replaceChar '.' '/' text) := by
  have slash {c : Char} (other : isBlank c = false) : isBlank (if c = '.' then '/' else c) = false := by
    split
    · rfl
    · exact other
  constructor
  · intro c here
    rw [replaceChar, List.head?_map, Option.map_eq_some_iff] at here
    obtain ⟨d, here, rfl⟩ := here
    exact slash (tight.first d here)
  · intro c here
    rw [replaceChar, List.getLast?_map, Option.map_eq_some_iff] at here
    obtain ⟨d, here, rfl⟩ := here
    exact slash (tight.last d here)

/-- The name of a class on a line has neither dots nor a comment in it. -/
theorem plain_of_mem_lineClass {line : List Char} (whole : '\n' ∉ line) {c : Char} (mem : c ∈ lineClass line) :
    c ≠ '.' ∧ c ≠ '#' ∧ c ≠ '\n' := by
  obtain ⟨d, among, rfl⟩ := List.mem_map.mp mem
  have cut := mem_of_mem_trimBlanks among
  have plain : d ≠ '#' := by simpa using List.mem_takeWhile_imp cut
  have inside : d ≠ '\n' := fun same => whole (same ▸ (List.takeWhile_sublist _).subset cut)
  split
  · decide
  · rename_i other
    exact ⟨other, plain, inside⟩

/-- What a line lists can be listed again. -/
theorem isListed_of_mem_lineClasses {line : List Char} (whole : '\n' ∉ line) {name : String} (mem : name ∈ lineClasses line) :
    IsListed name := by
  unfold lineClasses at mem
  by_cases empty : lineClass line = []
  · simp [empty] at mem
  · rw [if_neg empty, List.mem_singleton] at mem
    subst mem
    refine ⟨?_, ?_, ?_⟩
    · intro same
      exact empty (String.ofList_injective same)
    · rw [String.toList_ofList]
      exact fun c => plain_of_mem_lineClass whole
    · rw [String.toList_ofList]
      exact tight_replaceChar (tight_trimBlanks _)

/-- A name that can be listed is what its own line lists. -/
theorem lineClasses_of_isListed {name : String} (listed : IsListed name) : lineClasses name.toList = [name] := by
  have uncut : name.toList.takeWhile (· ≠ '#') = name.toList :=
    List.takeWhile_eq_self_iff.mpr fun c mem => by simpa using (listed.plain c mem).2.1
  have undotted : replaceChar '.' '/' name.toList = name.toList := by
    refine (List.map_congr_left fun c mem => ?_).trans (List.map_id _)
    exact if_neg (listed.plain c mem).1
  have own : lineClass name.toList = name.toList := by
    rw [lineClass, uncut, trimBlanks_of_tight listed.tight, undotted]
  have present : name.toList ≠ [] := fun empty => listed.nonempty (String.toList_injective empty)
  rw [lineClasses, own, if_neg present, String.ofList_toList]

/-- Names written one to a line are a descriptor of just these classes. -/
theorem classes_intercalate {names : List String} (listed : ∀ name ∈ names, IsListed name) :
    classes ("\n".intercalate names) = names := by
  by_cases empty : names = []
  · subst empty
    decide
  · have text : ("\n".intercalate names).toList = ['\n'].intercalate (names.map String.toList) := String.toList_intercalate
    have free : ∀ line ∈ names.map String.toList, '\n' ∉ line := by
      intro line mem
      obtain ⟨name, among, rfl⟩ := List.mem_map.mp mem
      exact fun inside => ((listed name among).plain _ inside).2.2 rfl
    rw [classes_eq_flatMap, text, pieces_intercalate (by simpa using empty) free, List.flatMap_map]
    calc names.flatMap (fun name => lineClasses name.toList)
        = names.flatMap (fun name => [name]) := List.flatMap_congr fun name mem => lineClasses_of_isListed (listed name mem)
      _ = names := List.flatMap_singleton' names

/-- Two descriptors with a line feed between them list what they list one after the other, also where the first ends in a
carriage return. The classes that are found, written one to a line, are found again; so they have no dot, no comment, no line
feed, and no white space at their ends. They are what the lines list, without carriage returns at their ends. -/
theorem classes_linewise (a b c : String) :
    classes (a ++ "\n" ++ b) = classes a ++ classes b ∧ classes ("\n".intercalate (classes c)) = classes c ∧
      (∀ name ∈ classes c, IsListed name) ∧
      ∃ lists, List.Forall₂ Lists (lines c.toList) lists ∧ classes c = lists.flatten := by
  have listed : ∀ name ∈ classes c, IsListed name := by
    intro name mem
    rw [classes_eq_flatMap, List.mem_flatMap] at mem
    obtain ⟨line, among, mem⟩ := mem
    exact isListed_of_mem_lineClasses (separator_not_mem_of_mem_pieces among) mem
  refine ⟨?_, ?_, listed, ?_⟩
  · have joined : (a ++ "\n" ++ b).toList = a.toList ++ '\n' :: b.toList := by simp [String.toList_append]
    rw [classes_eq_flatMap, joined, pieces_append_cons, List.flatMap_append, ← classes_eq_flatMap, ← classes_eq_flatMap]
  · exact classes_intercalate listed
  · refine ⟨(lines c.toList).map lineClasses, ?_, ?_⟩
    · rw [List.forall₂_map_right_iff, List.forall₂_same]
      exact fun line _ => lists_lineClasses line
    · rw [classes_eq_flatMap, ← flatMap_lines, List.flatMap_def]

end ServiceDescriptor

/-! ## A descriptor with carriage returns -/

namespace ReturnedLines

open ServiceDescriptor

/-- A comment and a name, with carriage returns before and without a line feed behind the last. -/
def front : String := "# used.first\r\n\t a.B \t# so\r"

/-- A name with a carriage return in the middle, and a line of white space. -/
def back : String := "c\rd.E\r\n \r"

theorem services_returned :
    classes (front ++ "\n" ++ back) = classes front ++ classes back ∧ classes front = ["a/B"] ∧ classes back = ["c\rd/E"] ∧
      classes ("\n".intercalate (classes back)) = ["c\rd/E"] ∧ IsListed "c\rd/E" ∧
      lines back.toList = ["c\rd.E".toList, " \r".toList] := by
  obtain ⟨joined, again, listed, -⟩ := classes_linewise front back back
  have own : classes back = ["c\rd/E"] := by decide +kernel
  exact ⟨joined, by decide +kernel, own, again.trans own, listed _ (by rw [own]; exact List.mem_singleton_self _),
    by decide +kernel⟩

end ReturnedLines

end JvmUnits
