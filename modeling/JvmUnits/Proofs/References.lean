import JvmUnits.Proofs.ClassNames

/-!
# References are first mentions

The references of a class are collected while it is translated, as they are spelled in the class file. They can be computed
again from the unit alone: the references of a unit, by runtime names, are the names that it mentions, each at its first
mention, without the name of the unit itself.
-/

namespace JvmUnits

/-- By their runtime names, first mentions are the names mentioned less those seen at the start, each once. -/
theorem map_strip_firstMentions (naming : Naming) (seen names : List String) :
    (firstMentions naming seen names).map naming.strip =
      ((names.map naming.strip).filter fun name => decide (name ∉ seen)).eraseDups := by
  induction names generalizing seen with
  | nil => rfl
  | cons name rest ih =>
    rw [firstMentions, List.map_cons]
    by_cases known : naming.strip name ∈ seen
    · rw [if_pos known, ih, List.filter_cons_of_neg (by simpa using known)]
    · rw [if_neg known, List.map_cons, ih, List.filter_cons_of_pos (by simpa using known), List.eraseDups_cons,
        List.filter_filter]
      congr 3
      funext other
      rw [Bool.eq_iff_iff]
      simp

/-- First mentions are their own first mentions. -/
theorem firstMentions_firstMentions (naming : Naming) (seen names : List String) :
    firstMentions naming seen (firstMentions naming seen names) = firstMentions naming seen names := by
  induction names generalizing seen with
  | nil => rfl
  | cons name rest ih =>
    by_cases known : naming.strip name ∈ seen
    · rw [firstMentions, if_pos known, ih]
    · rw [firstMentions, if_neg known, firstMentions, if_neg known, ih]

/-- A name that is mentioned is known at the start, or has the runtime name of some first mention. -/
theorem mem_strip_firstMentions (naming : Naming) (seen names : List String) (runtimeName : String) :
    runtimeName ∈ (firstMentions naming seen names).map naming.strip ↔
      runtimeName ∈ names.map naming.strip ∧ runtimeName ∉ seen := by
  rw [map_strip_firstMentions, List.mem_eraseDups, List.mem_filter, decide_eq_true_eq]

namespace ClassFile

/-- The references of a unit, as they are spelled, cover every name that the unit mentions, other than its own. -/
theorem covered_of_translate {naming : Naming} {file : ClassFile} {unit : ClassUnit} (h : file.translate naming = .ok unit)
    {name : String} (mentioned : name ∈ unit.mentionedNames naming) (other : name ≠ naming.strip unit.name) :
    ∃ reference ∈ unit.references, naming.strip reference = name := by
  obtain ⟨mentions, names, collected⟩ := references_of_translate h
  rw [← names] at mentioned
  rw [collected, collectReferences, ← List.mem_map, mem_strip_firstMentions]
  exact ⟨mentioned, by simpa using other⟩

/-- The references of a translated class, by runtime names, are exactly the names that its unit mentions (interfaces,
superclass, fields, then method by method its arguments, return type, exceptions and nodes), each at its first mention,
without the unit's own name. -/
theorem runtimeReferences_of_translate {naming : Naming} {file : ClassFile} {unit : ClassUnit}
    (h : file.translate naming = .ok unit) :
    unit.runtimeReferences naming =
        ((unit.mentionedNames naming).filter fun name => decide (name ≠ naming.strip unit.name)).eraseDups ∧
      ∀ name, name ∈ unit.runtimeReferences naming ↔ name ∈ unit.mentionedNames naming ∧ name ≠ naming.strip unit.name := by
  obtain ⟨mentions, names, collected⟩ := references_of_translate h
  have recomputed : unit.runtimeReferences naming =
      ((unit.mentionedNames naming).filter fun name => decide (name ≠ naming.strip unit.name)).eraseDups := by
    rw [ClassUnit.runtimeReferences, collected, collectReferences, collectReferences, firstMentions_firstMentions,
      map_strip_firstMentions, names]
    simp only [List.mem_singleton, ne_eq]
  refine ⟨recomputed, fun name => ?_⟩
  rw [recomputed, List.mem_eraseDups, List.mem_filter, decide_eq_true_eq]

/-- A platform class that mentions itself and its interface under both spellings: in its head, in a field, in a signature and
in its code. -/
def twoSpellings : ClassFile where
  pool := ⟨#[.unused, .utf8 "rt/java/L", .classRef 1]⟩
  name := "rt/java/V"
  superName := some "java/O"
  interfaces := ["java/L"]
  fields := [⟨2, "f", "[Ljava/V;", none⟩]
  methods := [⟨1, "m", "(Lrt/java/V;)LS;", ["E"], [], some ⟨[0xbb, 0, 2], [⟨0, 3, 0, some "T"⟩], []⟩⟩]

/-- Neither the class itself nor the second spelling of its interface is among the references. -/
theorem runtimeReferences_twoSpellings :
    ∃ unit, twoSpellings.translate ⟨"rt/"⟩ = .ok unit ∧
      unit.runtimeReferences ⟨"rt/"⟩ = ["java/L", "java/O", "S", "E", "T"] := by
  have value : (twoSpellings.translate ⟨"rt/"⟩).map (fun unit => ((unit.mentionedNames ⟨"rt/"⟩).filter fun name =>
      decide (name ≠ Naming.strip ⟨"rt/"⟩ unit.name)).eraseDups) = .ok ["java/L", "java/O", "S", "E", "T"] := by
    decide +kernel
  cases h : twoSpellings.translate ⟨"rt/"⟩ with
  | error e =>
    rw [h] at value
    cases value
  | ok unit =>
    rw [h] at value
    exact ⟨unit, rfl, (runtimeReferences_of_translate h).1.trans (Except.ok.inj value)⟩

end ClassFile

end JvmUnits
