import JvmUnits.Disk.Path
import Mathlib.Data.List.Basic

/-!
# Parts of paths

Statements about `pieces`, `Path.parts` and `Path.join`: a text is determined by its pieces (`pieces_injective`), and a path
inside a folder leads where its parts lead from that folder (`Path.chain_join`). A path that is clean, with no part that stays
or goes up, leads to the chain of its parts, so that two clean paths inside a folder lead to the same place only if they are
equal (`Path.chain_join_injective`).
-/

namespace JvmUnits

/-- There is always a piece. -/
theorem pieces_ne_nil (separator : Char) (text : List Char) : pieces separator text ≠ [] := by
  cases text with
  | nil => exact List.cons_ne_nil _ _
  | cons c rest =>
    unfold pieces
    split
    · exact List.cons_ne_nil _ _
    · split <;> exact List.cons_ne_nil _ _

/-- A text without the separator is one piece. -/
theorem pieces_of_not_mem {separator : Char} {text : List Char} (free : separator ∉ text) : pieces separator text = [text] := by
  induction text with
  | nil => rfl
  | cons c text ih =>
    rw [List.mem_cons, not_or] at free
    simp [pieces, Ne.symm free.1, ih free.2]

/-- A separator separates the pieces before it from those behind it. -/
theorem pieces_append_cons (separator : Char) (front back : List Char) :
    pieces separator (front ++ separator :: back) = pieces separator front ++ pieces separator back := by
  induction front with
  | nil => simp [pieces]
  | cons c front ih =>
    obtain ⟨piece, more, some⟩ := List.exists_cons_of_ne_nil (pieces_ne_nil separator front)
    rw [some] at ih
    by_cases same : c = separator
    · simp [pieces, same, ih, some]
    · simp [pieces, same, ih, some]

/-- The pieces with the separator between them are the text. -/
theorem intercalate_pieces (separator : Char) (text : List Char) : [separator].intercalate (pieces separator text) = text := by
  induction text with
  | nil => rfl
  | cons c text ih =>
    obtain ⟨piece, more, some⟩ := List.exists_cons_of_ne_nil (pieces_ne_nil separator text)
    rw [some] at ih
    by_cases same : c = separator
    · simp only [pieces, same, if_true, some]
      rw [List.intercalate_cons_cons, ih]
      rfl
    · simp only [pieces, same, if_false, some]
      rw [← ih]
      cases more <;> simp [List.intercalate]

/-- A text is determined by its pieces. -/
theorem pieces_injective (separator : Char) : Function.Injective (pieces separator) := by
  intro one other same
  rw [← intercalate_pieces separator one, same, intercalate_pieces]

/-- No piece has the separator in it. -/
theorem separator_not_mem_of_mem_pieces {separator : Char} {text piece : List Char} (mem : piece ∈ pieces separator text) :
    separator ∉ piece := by
  induction text generalizing piece with
  | nil =>
    rw [List.mem_singleton.mp mem]
    exact List.not_mem_nil
  | cons c text ih =>
    obtain ⟨first, more, some⟩ := List.exists_cons_of_ne_nil (pieces_ne_nil separator text)
    rw [some] at ih
    by_cases same : c = separator
    · simp only [pieces, same, if_true, some] at mem
      rcases List.mem_cons.mp mem with rfl | mem
      · exact List.not_mem_nil
      · exact ih mem
    · simp only [pieces, same, if_false, some] at mem
      rcases List.mem_cons.mp mem with rfl | mem
      · rw [List.mem_cons, not_or]
        exact ⟨Ne.symm same, ih List.mem_cons_self⟩
      · exact ih (List.mem_cons_of_mem first mem)

/-- Pieces without the separator, put together with separators between them, are the pieces of the text they make. -/
theorem pieces_intercalate {separator : Char} {words : List (List Char)} (nonempty : words ≠ [])
    (free : ∀ word ∈ words, separator ∉ word) : pieces separator ([separator].intercalate words) = words := by
  induction words with
  | nil => exact absurd rfl nonempty
  | cons word words ih =>
    have first := pieces_of_not_mem (free word List.mem_cons_self)
    cases words with
    | nil => simpa using first
    | cons next rest =>
      have others := ih (List.cons_ne_nil _ _) fun other mem => free other (List.mem_cons_of_mem word mem)
      rw [List.intercalate_cons_cons, List.append_assoc, List.singleton_append, pieces_append_cons, first, others,
        List.singleton_append]

/-- A text without the separator lengthens the last piece. -/
theorem pieces_append_of_not_mem {separator : Char} {tail : List Char} (free : separator ∉ tail) (text : List Char) :
    pieces separator (text ++ tail) =
      (pieces separator text).dropLast ++ [(pieces separator text).getLastD [] ++ tail] := by
  induction text with
  | nil => exact pieces_of_not_mem free
  | cons c text ih =>
    obtain ⟨first, more, some⟩ := List.exists_cons_of_ne_nil (pieces_ne_nil separator text)
    rw [some] at ih
    by_cases same : c = separator
    · simp [pieces, same, ih, some]
    · cases more with
      | nil =>
        have single : pieces separator (text ++ tail) = [first ++ tail] := by simpa using ih
        simp [pieces, same, single, some]
      | cons next rest => simp [pieces, same, ih, some]

namespace Path

theorem parts_ne_nil (path : String) : parts path ≠ [] := fun nil => pieces_ne_nil _ _ (List.map_eq_nil_iff.mp nil)

/-- A slash divides a path. -/
theorem parts_append_slash (front back : String) : parts (front ++ "/" ++ back) = parts front ++ parts back := by
  simp only [parts, String.toList_append]
  rw [← List.map_append, ← pieces_append_cons, List.append_assoc]
  rfl

/-- A path is determined by its parts. -/
theorem parts_injective : Function.Injective parts := by
  intro one other same
  have pieces := List.map_injective_iff.mpr (fun _ _ => String.ofList_injective) same
  exact String.toList_injective (pieces_injective '/' pieces)

/-- A part has no slash in it. -/
theorem slash_not_mem_of_mem_parts {path part : String} (mem : part ∈ parts path) : '/' ∉ part.toList := by
  obtain ⟨piece, among, rfl⟩ := List.mem_map.mp mem
  rw [String.toList_ofList]
  exact separator_not_mem_of_mem_pieces among

theorem fileName_mem_parts (path : String) : fileName path ∈ parts path := by
  obtain ⟨part, last⟩ := Option.isSome_iff_exists.mp (List.getLast?_isSome.mpr (parts_ne_nil path))
  rw [fileName, List.getLastD_eq_getLast?, last]
  exact List.mem_of_getLast? last

/-- Names without slashes are the parts of the path that they make. -/
theorem parts_ofParts {names : List String} (nonempty : names ≠ []) (free : ∀ name ∈ names, '/' ∉ name.toList) :
    parts (ofParts names) = names := by
  have text : (ofParts names).toList = ['/'].intercalate (names.map String.toList) := String.toList_intercalate
  have pieces : pieces '/' (ofParts names).toList = names.map String.toList := by
    rw [text]
    refine pieces_intercalate (by simpa using nonempty) fun word mem => ?_
    obtain ⟨name, among, rfl⟩ := List.mem_map.mp mem
    exact free name among
  rw [parts, pieces, List.map_map]
  exact List.map_id'' (fun _ => String.ofList_toList) names

/-- An ending without a slash belongs to the last part. -/
theorem parts_append_ending {ending : String} (free : '/' ∉ ending.toList) (path : String) :
    parts (path ++ ending) = (parts path).dropLast ++ [fileName path ++ ending] := by
  have last : fileName path = String.ofList ((pieces '/' path.toList).getLastD []) := by
    rw [fileName, parts, List.getLastD_map]
  rw [parts, String.toList_append, pieces_append_of_not_mem free, List.map_append, List.map_dropLast, last, parts]
  simp [String.ofList_append]

/-- An ending without a slash belongs to the last part. -/
theorem fileName_append_ending {ending : String} (free : '/' ∉ ending.toList) (path : String) :
    fileName (path ++ ending) = fileName path ++ ending := by
  rw [fileName, parts_append_ending free, List.getLastD_concat]

/-- The last part of a path is that of what stands behind a slash. -/
theorem fileName_append_slash (front back : String) : fileName (front ++ "/" ++ back) = fileName back := by
  obtain ⟨part, more, some⟩ := List.exists_cons_of_ne_nil (parts_ne_nil back)
  rw [fileName, fileName, parts_append_slash, some]
  simp [List.getLast?_cons]

/-- A path inside a folder has the same last part as from the working folder. -/
theorem fileName_join (folder inner : String) : fileName (join folder inner) = fileName inner := by
  unfold join
  split
  · rename_i direct
    rcases Bool.or_eq_true _ _ |>.mp direct with empty | slash
    · rw [String.isEmpty_iff.mp empty, String.empty_append]
    · obtain ⟨front, eq⟩ := List.isSuffixOf_iff_suffix.mp slash
      have split : folder = String.ofList front ++ "/" := by
        rw [← String.toList_inj, ← eq]
        simp
      rw [split, fileName_append_slash]
  · exact fileName_append_slash folder inner

/-- A path in which no part stays where it is or goes up. -/
def IsClean (path : String) : Prop := ∀ part ∈ parts path, stays part = false ∧ part ≠ ".."

instance (path : String) : Decidable (IsClean path) := inferInstanceAs (Decidable (∀ part ∈ parts path, _))

/-- A clean path starts at the working folder: an absolute path has an empty part in front. -/
theorem not_isAbsolute_of_isClean {path : String} (clean : IsClean path) : isAbsolute path = false := by
  cases absolute : isAbsolute path with
  | false => rfl
  | true =>
    obtain ⟨rest, eq⟩ := List.isPrefixOf_iff_prefix.mp absolute
    have front : "" ∈ parts path := by
      rw [parts, ← eq]
      exact List.mem_cons_self
    cases (clean "" front).1

/-- Parts that lead down are added to the folder one by one. -/
theorem foldl_step_of_clean {parts : List String} (clean : ∀ part ∈ parts, stays part = false ∧ part ≠ "..")
    (folder : List String) : parts.foldl step folder = folder ++ parts := by
  induction parts generalizing folder with
  | nil => simp
  | cons part rest ih =>
    obtain ⟨moves, down⟩ := clean part List.mem_cons_self
    have first : step folder part = folder ++ [part] := by simp [step, moves, down]
    rw [List.foldl_cons, first, ih (fun other mem => clean other (List.mem_cons_of_mem _ mem)), List.append_assoc]
    rfl

/-- The chain of names from which a path starts, given that of the working folder. -/
def origin (home : List String) (path : String) : List String := if isAbsolute path then [] else home

/-- The chain of names that a path leads to, given that of the working folder. -/
def chain (home : List String) (path : String) : List String := (parts path).foldl step (origin home path)

variable (home : List String)

/-- Where a path starts is decided by its first character. -/
theorem origin_append {front : String} (nonempty : front ≠ "") (back : String) :
    origin home (front ++ back) = origin home front := by
  obtain ⟨c, rest, some⟩ := List.exists_cons_of_ne_nil (fun nil => nonempty (String.toList_eq_nil_iff.mp nil))
  simp [origin, isAbsolute, String.toList_append, some]

/-- A path inside a folder leads where its parts lead from that folder. -/
theorem chain_join (folder : String) {inner : String} (relative : isAbsolute inner = false) :
    chain home (join folder inner) = (parts inner).foldl step (chain home folder) := by
  by_cases empty : folder = ""
  · subst empty
    have joined : join "" inner = inner := by simp [join]
    have start : origin home inner = home := by simp [origin, relative]
    rw [joined, chain, start]
    rfl
  · by_cases slash : "/".toList <:+ folder.toList
    · have joined : join folder inner = folder ++ inner := by
        unfold join
        rw [if_pos (by simpa [empty] using slash)]
      obtain ⟨front, eq⟩ := slash
      have split : folder = String.ofList front ++ "/" ++ "" := by
        rw [← String.toList_inj, ← eq]
        simp
      have whole : parts (folder ++ inner) = parts (String.ofList front) ++ parts inner := by
        rw [split, String.append_empty, parts_append_slash]
      have above : parts folder = parts (String.ofList front) ++ [""] := by
        rw [split, parts_append_slash]
        rfl
      rw [joined, chain, chain, origin_append home empty, whole, above, List.foldl_append, List.foldl_append]
      rfl
    · have joined : join folder inner = folder ++ "/" ++ inner := by
        unfold join
        rw [if_neg (by simpa [empty] using slash)]
      rw [joined, chain, chain, String.append_assoc, origin_append home empty, ← String.append_assoc, parts_append_slash,
        List.foldl_append]

/-- Two clean paths inside a folder lead to the same place only if they are equal. -/
theorem chain_join_injective (folder : String) {one other : String} (cleanOne : IsClean one) (cleanOther : IsClean other)
    (same : chain home (join folder one) = chain home (join folder other)) : one = other := by
  rw [chain_join home folder (not_isAbsolute_of_isClean cleanOne),
    chain_join home folder (not_isAbsolute_of_isClean cleanOther), foldl_step_of_clean cleanOne,
    foldl_step_of_clean cleanOther] at same
  exact parts_injective (List.append_cancel_left same)

end Path

end JvmUnits
