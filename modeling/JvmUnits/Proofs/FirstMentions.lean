import JvmUnits.Proofs.References
import Mathlib.Data.List.Induction

/-!
# Collecting references twice

References are collected twice: when a class is translated, as they are spelled, and when its unit is asked for their runtime
names. What is collected, name by name (`collectReferences_concat`), are the names that stand first for their class
(`collectReferences_eq_firsts`). Their runtime names are distinct, and so the second collection finds nothing to leave out of
what the first has collected, although a runtime name may itself have another runtime name (`Naming.references_deduplicated`).
-/

namespace JvmUnits

/-! ## Names that stand first for their class -/

namespace Naming

/-- The name, which stands at a place among others, is the first one for its class: the class is not the owner, and no name in
front of the place has the same runtime name. -/
def IsFirst (naming : Naming) (owner : String) (names : List String) (place : Nat) (name : String) : Prop :=
  naming.strip name ≠ naming.strip owner ∧ ∀ earlier ∈ names.take place, naming.strip name ≠ naming.strip earlier

instance (naming : Naming) (owner : String) (names : List String) (place : Nat) (name : String) :
    Decidable (naming.IsFirst owner names place name) :=
  inferInstanceAs (Decidable (_ ∧ _))

/-- The names that stand first for their class, as they are spelled and in their order. -/
def firsts (naming : Naming) (owner : String) (names : List String) : List String :=
  (names.zipIdx.filter fun entry => decide (naming.IsFirst owner names entry.2 entry.1)).map Prod.fst

variable {naming : Naming} {owner : String}

/-- Names behind a place do not matter for the name at the place. -/
theorem isFirst_append {names : List String} {place : Nat} (inside : place ≤ names.length) (more : List String)
    (name : String) : naming.IsFirst owner (names ++ more) place name ↔ naming.IsFirst owner names place name := by
  rw [IsFirst, IsFirst, List.take_append_of_le_length inside]

/-- One more name at the end stands first for its class or not, and changes nothing in front of it. -/
theorem firsts_concat (names : List String) (name : String) :
    naming.firsts owner (names ++ [name]) =
      naming.firsts owner names ++ if naming.IsFirst owner names names.length name then [name] else [] := by
  have front : names.zipIdx.filter (fun entry => decide (naming.IsFirst owner (names ++ [name]) entry.2 entry.1)) =
      names.zipIdx.filter fun entry => decide (naming.IsFirst owner names entry.2 entry.1) := by
    apply List.filter_congr
    intro entry mem
    have inside := (List.mem_zipIdx mem).2.1
    exact decide_eq_decide.mpr (isFirst_append (by omega) [name] entry.1)
  have last : naming.IsFirst owner (names ++ [name]) names.length name ↔ naming.IsFirst owner names names.length name :=
    isFirst_append (Nat.le_refl _) [name] name
  rw [firsts, List.zipIdx_append, List.filter_append, List.map_append, front, firsts]
  by_cases first : naming.IsFirst owner names names.length name
  · simp [last.mpr first, first]
  · simp [mt last.mp first, first]

end Naming

/-! ## The first collection -/

variable {naming : Naming}

/-- One more name at the end is a first mention if its runtime name is neither known at the start nor that of a name in front
of it. -/
theorem firstMentions_concat (seen names : List String) (name : String) :
    firstMentions naming seen (names ++ [name]) = firstMentions naming seen names ++
      if naming.strip name ∉ seen ∧ ∀ earlier ∈ names, naming.strip name ≠ naming.strip earlier then [name] else [] := by
  induction names generalizing seen with
  | nil => by_cases known : naming.strip name ∈ seen <;> simp [firstMentions, known]
  | cons first rest ih =>
    rw [List.cons_append, firstMentions, firstMentions]
    by_cases known : naming.strip first ∈ seen
    · -- The first name adds nothing to what is known, so it rules out no name that was not ruled out before.
      rw [if_pos known, if_pos known, ih]
      congr 2
      grind
    · rw [if_neg known, if_neg known, ih, List.cons_append]
      congr 3
      grind

/-- Adding one more name to the references of a class keeps those collected, and adds the name if it stands first for its
class. -/
theorem collectReferences_concat (owner : String) (names : List String) (name : String) :
    collectReferences naming owner (names ++ [name]) = collectReferences naming owner names ++
      if naming.IsFirst owner names names.length name then [name] else [] := by
  rw [collectReferences, firstMentions_concat]
  simp only [Naming.IsFirst, List.take_length, List.mem_singleton, ne_eq, collectReferences]

/-- The references collected from names are those that stand first for their class. -/
theorem collectReferences_eq_firsts (owner : String) (names : List String) :
    collectReferences naming owner names = naming.firsts owner names := by
  induction names using List.reverseRecOn with
  | nil => rfl
  | append_singleton names name ih => rw [collectReferences_concat, ih, Naming.firsts_concat]

/-- The runtime names of first mentions are distinct. -/
theorem nodup_strip_firstMentions (seen names : List String) :
    ((firstMentions naming seen names).map naming.strip).Nodup := by
  induction names generalizing seen with
  | nil => exact List.nodup_nil
  | cons name rest ih =>
    rw [firstMentions]
    by_cases known : naming.strip name ∈ seen
    · rw [if_pos known]
      exact ih seen
    · have fresh : naming.strip name ∉ (firstMentions naming (naming.strip name :: seen) rest).map naming.strip := by
        rw [mem_strip_firstMentions]
        rintro ⟨_, unseen⟩
        exact unseen List.mem_cons_self
      rw [if_neg known, List.map_cons, List.nodup_cons]
      exact ⟨fresh, ih _⟩

/-! ## The second collection -/

/-- A list without repetition has nothing to erase. -/
theorem eraseDups_of_nodup {names : List String} (distinct : names.Nodup) : names.eraseDups = names := by
  induction names with
  | nil => rfl
  | cons name rest ih =>
    obtain ⟨fresh, distinct⟩ := List.nodup_cons.mp distinct
    have kept : rest.filter (fun other => !other == name) = rest := by
      rw [List.filter_eq_self]
      intro other mem
      have differs : other ≠ name := by
        rintro rfl
        exact fresh mem
      simpa using differs
    rw [List.eraseDups_cons, kept, ih distinct]

/-- The runtime references of any unit are the runtime names of its references, without its own name and each once. -/
theorem ClassUnit.runtimeReferences_eq (unit : ClassUnit) :
    unit.runtimeReferences naming =
      ((unit.references.map naming.strip).filter fun name => decide (name ≠ naming.strip unit.name)).eraseDups := by
  rw [runtimeReferences, collectReferences, map_strip_firstMentions]
  simp only [List.mem_singleton, ne_eq]

/-- Where the runtime names of a unit's references are distinct and other than its own, the second collection leaves out
nothing. -/
theorem ClassUnit.runtimeReferences_of_nodup {unit : ClassUnit} (distinct : (unit.references.map naming.strip).Nodup)
    (foreign : naming.strip unit.name ∉ unit.references.map naming.strip) :
    unit.runtimeReferences naming = unit.references.map naming.strip := by
  have kept : (unit.references.map naming.strip).filter (fun name => decide (name ≠ naming.strip unit.name)) =
      unit.references.map naming.strip := by
    rw [List.filter_eq_self]
    intro name mem
    have differs : name ≠ naming.strip unit.name := by
      rintro rfl
      exact foreign mem
    exact decide_eq_true differs
  rw [runtimeReferences_eq, kept, eraseDups_of_nodup distinct]

/-- The references collected from a sequence of names are those of its names that stand first for their class, as they are
spelled and in their order. The runtime references of a unit are the runtime names of its references without its own name,
each once. Of a class that is translated, this leaves out nothing: the runtime references are the runtime names of all its
references, they are distinct, and its own runtime name is not among them. -/
theorem Naming.references_deduplicated (naming : Naming) :
    (∀ owner names, collectReferences naming owner names =
        (names.zipIdx.filter fun entry => decide (naming.IsFirst owner names entry.2 entry.1)).map Prod.fst) ∧
      (∀ unit : ClassUnit, unit.runtimeReferences naming =
        ((unit.references.map naming.strip).filter fun name => decide (name ≠ naming.strip unit.name)).eraseDups) ∧
      ∀ file unit, ClassFile.translate naming file = .ok unit →
        unit.runtimeReferences naming = unit.references.map naming.strip ∧ (unit.runtimeReferences naming).Nodup ∧
          naming.strip unit.name ∉ unit.runtimeReferences naming := by
  refine ⟨collectReferences_eq_firsts, ClassUnit.runtimeReferences_eq, ?_⟩
  intro file unit translated
  obtain ⟨mentions, _, collected⟩ := ClassFile.references_of_translate translated
  have distinct : (unit.references.map naming.strip).Nodup := by
    rw [collected]
    exact nodup_strip_firstMentions _ mentions
  have foreign : naming.strip unit.name ∉ unit.references.map naming.strip := by
    rw [collected, collectReferences, mem_strip_firstMentions]
    rintro ⟨_, other⟩
    exact other List.mem_cons_self
  have all := ClassUnit.runtimeReferences_of_nodup distinct foreign
  rw [all]
  exact ⟨rfl, distinct, foreign⟩

/-! ## Runtime names that are stripped again -/

namespace RenamedTwice

/-- The home package stands inside itself in the names of the class and of the first field's type, so that their runtime names
start with the home package. -/
def file : ClassFile where
  pool := ⟨#[.unused]⟩
  name := "rrt/t/V"
  superName := some "V"
  interfaces := ["rt/V", "rrt/t/V"]
  fields := [⟨2, "f", "[Lrrt/t/O;", none⟩, ⟨2, "g", "Lrt/O;", none⟩, ⟨2, "h", "LO;", none⟩]
  methods := []

def unit : ClassUnit where
  name := "rrt/t/V"
  superName := some "V"
  interfaces := ["rt/V", "rrt/t/V"]
  fields := [⟨"f", .arrayOf (.objectRef "rt/O"), none, [.isPrivate]⟩, ⟨"g", .objectRef "O", none, [.isPrivate]⟩,
    ⟨"h", .objectRef "O", none, [.isPrivate]⟩]
  methods := []
  references := ["rt/V", "rrt/t/O", "rt/O"]

/-- The class `V` is not the class itself, whose runtime name is `rt/V`, and `rt/O` is not `O`. -/
theorem references_unit :
    collectReferences ⟨"rt/"⟩ "rrt/t/V" ["rt/V", "rrt/t/V", "V", "rrt/t/O", "rt/O", "O"] = ["rt/V", "rrt/t/O", "rt/O"] ∧
      file.translate ⟨"rt/"⟩ = .ok unit ∧ unit.runtimeReferences ⟨"rt/"⟩ = ["V", "rt/O", "O"] ∧
      (unit.runtimeReferences ⟨"rt/"⟩).Nodup ∧ Naming.strip ⟨"rt/"⟩ unit.name ∉ unit.runtimeReferences ⟨"rt/"⟩ := by
  have translated : file.translate ⟨"rt/"⟩ = .ok unit := by decide +kernel
  obtain ⟨collected, _, units⟩ := Naming.references_deduplicated ⟨"rt/"⟩
  obtain ⟨all, distinct, foreign⟩ := units file unit translated
  exact ⟨(collected _ _).trans (by decide +kernel), translated, all.trans (by decide +kernel), distinct, foreign⟩

end RenamedTwice

end JvmUnits
