import JvmUnits.Naming

/-!
# Names under which a class is looked up

A class may be spelled with its home package or without it. Statements about `Naming.strip` and `Naming.physical`: the physical
name of a class has the runtime name of the class (`strip_physical`), and unless the home package lies among the platform
packages itself, looking up a physical name gives that name again (`physical_physical`).
-/

namespace JvmUnits

/-- Characters that still belong to an occurrence are passed over. -/
theorem eraseOccurrences_passed (pattern passed rest : List Char) :
    eraseOccurrences pattern passed.length (passed ++ rest) = eraseOccurrences pattern 0 rest := by
  induction passed with
  | nil => rfl
  | cons c passed ih => exact ih

/-- An occurrence at the start of a text is removed. -/
theorem eraseOccurrences_append (pattern text : List Char) (h : pattern ≠ []) :
    eraseOccurrences pattern 0 (pattern ++ text) = eraseOccurrences pattern 0 text := by
  obtain ⟨c, pattern, rfl⟩ := List.exists_cons_of_ne_nil h
  have found : (c :: pattern).isPrefixOf (c :: (pattern ++ text)) = true := by
    rw [List.isPrefixOf_iff_prefix]
    exact List.prefix_append (c :: pattern) text
  rw [List.cons_append, eraseOccurrences, if_pos found]
  exact eraseOccurrences_passed (c :: pattern) pattern text

namespace Naming

theorem strip_of_empty {naming : Naming} (empty : naming.home = "") (name : String) : naming.strip name = name := by
  simp [strip, empty]

/-- Removing the home package is one pass over the name. -/
theorem toList_strip {naming : Naming} (nonempty : naming.home ≠ "") (name : String) :
    (naming.strip name).toList = eraseOccurrences naming.home.toList 0 name.toList := by
  simp [strip, nonempty]

/-- The home package in front of a name does not change the runtime name. -/
theorem strip_home_append (naming : Naming) (name : String) : naming.strip (naming.home ++ name) = naming.strip name := by
  by_cases empty : naming.home = ""
  · rw [empty, String.empty_append]
  · have nonempty : naming.home.toList ≠ [] := fun nil => empty (String.toList_eq_nil_iff.mp nil)
    rw [← String.toList_inj, toList_strip empty, toList_strip empty, String.toList_append,
      eraseOccurrences_append _ _ nonempty]

/-- A class is looked up under a name that has its runtime name. -/
theorem strip_physical (naming : Naming) (name : String) : naming.strip (naming.physical name) = naming.strip name := by
  unfold physical
  split
  · exact strip_home_append naming name
  · rfl

/-- A pattern that has a character only at its start begins no text in which a part without the pattern stands in front of that
character. -/
theorem not_prefix_append {pattern front text : List Char} {c : Char} (once : c ∉ pattern.tail) (nonempty : front ≠ [])
    (foreign : ¬ pattern <+: front) (head : text.head? = some c) : ¬ pattern <+: front ++ text := by
  intro found
  rcases List.prefix_or_prefix_of_prefix found (List.prefix_append front text) with inside | ⟨rest, rfl⟩
  · exact foreign inside
  · rw [List.prefix_append_right_inj] at found
    cases rest with
    | nil => exact foreign (by simp)
    | cons d rest =>
      obtain ⟨more, rfl⟩ := found
      obtain ⟨e, front, rfl⟩ := List.exists_cons_of_ne_nil nonempty
      simp only [List.cons_append, List.head?_cons, Option.some.injEq] at head
      subst head
      exact once (by simp)

/-- Platform classes are those of two packages. -/
theorem isPlatform_iff (name : String) :
    isPlatform name = true ↔ "java/".toList <+: name.toList ∨ "javax/".toList <+: name.toList := by
  simp only [isPlatform, Bool.or_eq_true, List.isPrefixOf_iff_prefix]

/-- The name of a platform class starts with the letter `j`. -/
theorem head_of_isPlatform {name : String} (platform : isPlatform name = true) : name.toList.head? = some 'j' := by
  rcases (isPlatform_iff name).mp platform with ⟨rest, eq⟩ | ⟨rest, eq⟩ <;> rw [← eq] <;> rfl

/-- A package in front of the name of a platform class makes it the name of no platform class, unless the package is empty or
is one of the platform packages. -/
theorem isPlatform_append {package name : String} (nonempty : package ≠ "") (foreign : isPlatform package = false)
    (platform : isPlatform name = true) : isPlatform (package ++ name) = false := by
  have front : package.toList ≠ [] := fun nil => nonempty (String.toList_eq_nil_iff.mp nil)
  have head := head_of_isPlatform platform
  rw [← Bool.not_eq_true, isPlatform_iff, not_or] at foreign ⊢
  rw [String.toList_append]
  exact ⟨not_prefix_append (by decide) front foreign.1 head, not_prefix_append (by decide) front foreign.2 head⟩

/-- The class is looked up under its own name: it is no platform class, or there is no home package. -/
def IsPlain (naming : Naming) (name : String) : Prop := isPlatform name = false ∨ naming.home = ""

/-- A plain name is the physical name as well. -/
theorem physical_of_plain {naming : Naming} {name : String} (plain : naming.IsPlain name) :
    naming.physical name = name := by
  unfold physical
  split
  · rename_i platform
    rcases plain with foreign | empty
    · rw [platform] at foreign
      cases foreign
    · rw [empty, String.empty_append]
  · rfl

theorem physical_of_platform {naming : Naming} {name : String} (platform : isPlatform name = true) :
    naming.physical name = naming.home ++ name := if_pos platform

/-- Where the home package is no platform package, a physical name is its own physical name. -/
theorem physical_physical {naming : Naming} (foreign : isPlatform naming.home = false) (name : String) :
    naming.physical (naming.physical name) = naming.physical name := by
  by_cases platform : isPlatform name = true
  · have once : naming.physical name = naming.home ++ name := if_pos platform
    by_cases nonempty : naming.home = ""
    · have same : naming.physical name = name := by rw [once, nonempty, String.empty_append]
      rw [same, same]
    · rw [once]
      exact if_neg (by simp [isPlatform_append nonempty foreign platform])
  · have same : naming.physical name = name := if_neg platform
    rw [same, same]

end Naming

end JvmUnits
