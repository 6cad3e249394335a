import JvmUnits.Proofs.SelectedClasses

/-!
# Lookups keep the runtime name

The home package in front of a name could change which of several overlapping occurrences of the home package are removed from
it. It does not: the one in front is found first, and the pass goes on at the start of the name. `Erased` says what one pass
from left to right leaves of a text, and `Naming.Strips` what this leaves of a name. A class is looked up under a name that has
its runtime name, and so two names that are looked up alike are one class to the compilation: both are built in or neither is,
and the unit of either is stored at the same path (`Environment.lookups_keep_runtimeName`).
-/

namespace JvmUnits

/-! ## One pass from left to right -/

/-- What one pass over a text leaves of it when a pattern is removed: the text as it is, where the pattern does not occur, and
else what stands in front of its first occurrence, followed by what the pass leaves of the text behind that occurrence. An
occurrence is the first one if there is none that ends before it ends. -/
inductive Erased (pattern : List Char) : List Char → List Char → Prop where
  | absent {text : List Char} (nowhere : ¬ pattern <:+: text) : Erased pattern text text
  | found {front rest left : List Char} (first : ¬ pattern <:+: (front ++ pattern).dropLast)
      (further : Erased pattern rest left) : Erased pattern (front ++ pattern ++ rest) (front ++ left)

section

variable {pattern : List Char}

/-- A text in which the pattern does not occur stays. -/
theorem eraseOccurrences_of_absent {text : List Char} (nowhere : ¬ pattern <:+: text) :
    eraseOccurrences pattern 0 text = text := by
  induction text with
  | nil => rfl
  | cons c rest ih =>
    rw [List.infix_cons_iff, not_or] at nowhere
    rw [eraseOccurrences, if_neg (by rw [List.isPrefixOf_iff_prefix]; exact nowhere.1), ih nowhere.2]

theorem dropLast_cons_append (nonempty : pattern ≠ []) (c : Char) (front : List Char) :
    (c :: front ++ pattern).dropLast = c :: (front ++ pattern).dropLast := by
  rw [List.cons_append, List.dropLast_cons_of_ne_nil (by simp [nonempty])]

/-- Whether the pattern occurs at the very start is decided before a later occurrence ends. -/
theorem prefix_dropLast_iff {c : Char} {front : List Char} (rest : List Char) :
    pattern <+: c :: (front ++ pattern).dropLast ↔ pattern <+: c :: (front ++ pattern ++ rest) := by
  have whole : c :: (front ++ pattern).dropLast <+: c :: (front ++ pattern ++ rest) :=
    (List.prefix_cons_inj c).mpr ((List.dropLast_prefix _).trans (List.prefix_append _ _))
  have short : pattern.length ≤ (c :: (front ++ pattern).dropLast).length := by
    simp only [List.length_cons, List.length_dropLast, List.length_append]
    omega
  constructor
  · intro start
    exact start.trans whole
  · intro start
    exact List.prefix_of_prefix_length_le start whole short

/-- What stands in front of the first occurrence stays, the occurrence is removed, and the pass goes on behind it. -/
theorem eraseOccurrences_first (nonempty : pattern ≠ []) {front : List Char}
    (first : ¬ pattern <:+: (front ++ pattern).dropLast) (rest : List Char) :
    eraseOccurrences pattern 0 (front ++ pattern ++ rest) = front ++ eraseOccurrences pattern 0 rest := by
  induction front with
  | nil => exact eraseOccurrences_append pattern rest nonempty
  | cons c front ih =>
    rw [dropLast_cons_append nonempty, List.infix_cons_iff, not_or, prefix_dropLast_iff rest] at first
    rw [List.cons_append, List.cons_append, eraseOccurrences, if_neg (by rw [List.isPrefixOf_iff_prefix]; exact first.1),
      ih first.2, List.cons_append]

/-- A character in front of a text stays unless the pattern occurs there. -/
theorem Erased.cons (nonempty : pattern ≠ []) {c : Char} {text left : List Char} (absent : ¬ pattern <+: c :: text)
    (erased : Erased pattern text left) : Erased pattern (c :: text) (c :: left) := by
  cases erased with
  | absent nowhere => exact .absent (by rw [List.infix_cons_iff, not_or]; exact ⟨absent, nowhere⟩)
  | @found front rest left first further =>
    refine @Erased.found pattern (c :: front) rest left ?_ further
    rw [dropLast_cons_append nonempty, List.infix_cons_iff, not_or, prefix_dropLast_iff rest]
    exact ⟨absent, first⟩

/-- The pass leaves what is left of the text. -/
theorem erased_eraseOccurrences (nonempty : pattern ≠ []) (text : List Char) :
    Erased pattern text (eraseOccurrences pattern 0 text) := by
  -- By the length of the text and not by its characters: behind an occurrence the pass goes on several characters later.
  induction length : text.length using Nat.strongRecOn generalizing text with
  | _ n ih =>
    cases text with
    | nil => exact .absent (by rw [List.infix_nil]; exact nonempty)
    | cons c rest =>
      by_cases start : pattern <+: c :: rest
      · obtain ⟨behind, same⟩ := start
        rw [← same] at length ⊢
        rw [eraseOccurrences_append pattern behind nonempty]
        have size : 0 < pattern.length := List.length_pos_of_ne_nil nonempty
        have further := ih behind.length (by rw [List.length_append] at length; omega) behind rfl
        refine @Erased.found pattern [] behind _ ?_ further
        intro inside
        have fits := inside.length_le
        rw [List.nil_append, List.length_dropLast] at fits
        omega
      · rw [eraseOccurrences, if_neg (by rwa [List.isPrefixOf_iff_prefix])]
        exact (ih rest.length (by rw [List.length_cons] at length; omega) rest rfl).cons nonempty start

/-- One pass from left to right leaves exactly one text. -/
theorem erased_iff (nonempty : pattern ≠ []) {text left : List Char} :
    Erased pattern text left ↔ left = eraseOccurrences pattern 0 text := by
  constructor
  · intro erased
    induction erased with
    | absent nowhere => exact (eraseOccurrences_of_absent nowhere).symm
    | found first _ ih => rw [eraseOccurrences_first nonempty first, ih]
  · rintro rfl
    exact erased_eraseOccurrences nonempty text

end

namespace Naming

/-- What is left of a name without the home package: all of it where there is no home package, and else what one pass from left
to right leaves. -/
def Strips (naming : Naming) (name left : String) : Prop :=
  naming.home = "" ∧ left = name ∨ naming.home ≠ "" ∧ Erased naming.home.toList name.toList left.toList

/-- The runtime name is what is left of a name without the home package. -/
theorem strips_iff {naming : Naming} {name left : String} : naming.Strips name left ↔ left = naming.strip name := by
  unfold Strips
  by_cases empty : naming.home = ""
  · simp only [empty, strip_of_empty empty, true_and, ne_eq, not_true_eq_false, false_and, or_false]
  · have nonempty : naming.home.toList ≠ [] := fun nil => empty (String.toList_eq_nil_iff.mp nil)
    rw [erased_iff nonempty, ← toList_strip empty, String.toList_inj]
    simp only [empty, false_and, ne_eq, not_false_eq_true, true_and, false_or]

/-- Names with the same physical name have the same runtime name. -/
theorem strip_eq_of_physical_eq {naming : Naming} {name other : String} (alike : naming.physical name = naming.physical other) :
    naming.strip name = naming.strip other := by
  rw [← naming.strip_physical name, alike, naming.strip_physical]

end Naming

/-! ## Names that are looked up alike -/

namespace Environment

variable {env : Environment} {name other : String}

/-- The path inside the output folder at which the unit of a name is to be stored, where the index has the class: in the folder
of the root that has it, under the runtime name. -/
def outputPath (env : Environment) (name : String) : Option String :=
  (env.index.resolve (ClassIndex.classFilePath (env.naming.physical name))).map fun entry =>
    "classpath" ++ toString entry.root ++ "/" ++ env.naming.strip name ++ ".js"

/-- Neither the name nor its physical name has been claimed. -/
structure IsFree (env : Environment) (name : String) (state : BuildState) : Prop where
  fresh : state.isClaimed name = false
  free : state.isClaimed (env.naming.physical name) = false

/-- The artifact that a visit yields is that of the physical name and the runtime name. -/
theorem artifact_of_visit {state : BuildState} {artifact : Artifact}
    (visited : (env.visit name state).2 = .ok (some artifact)) :
    env.artifact (env.naming.physical name) (env.naming.strip name) = .ok artifact := by
  cases fresh : state.isClaimed name with
  | true =>
    have skipped : env.visit name state = (state, .ok none) := by rw [visit_eq, if_pos fresh]
    rw [skipped] at visited
    cases visited
  | false => exact (visit_eq_some fresh (Prod.ext rfl visited)).2.2.1

/-- The artifact of a name has its unit at the output path of the name. -/
theorem outputPath_of_artifact {artifact : Artifact}
    (made : env.artifact (env.naming.physical name) (env.naming.strip name) = .ok artifact) :
    env.outputPath name = some artifact.path := by
  obtain ⟨entry, _, _, _, found, _, _, _, rfl⟩ := artifact_cases made
  rw [outputPath, found]
  rfl

/-- A visit to a free name: nothing is made of a built-in class, and any other class is compiled. -/
theorem visit_of_free {state : BuildState} (free : env.IsFree name state) :
    (env.visit name state).2 =
      if env.isBuiltin name then .ok none
      else (env.artifact (env.naming.physical name) (env.naming.strip name)).map some := by
  cases own : env.isBuiltin name with
  | true => rw [visit_of_fresh free.fresh, own, if_pos rfl, if_pos rfl]
  | false => rw [visit_of_unclaimed free.fresh free.free own, if_neg Bool.false_ne_true]

/-- Whatever the home package, the runtime name is what is left of a name when the home package is removed in one pass from left
to right, and the name under which a class is looked up has the runtime name of the class. So two names that are looked up under
the same name have the same runtime name, are both built in or both not, and have the same output path, at which the unit that
a visit makes for either of them is stored; and visits to them, where neither is claimed, come to the same end. -/
theorem lookups_keep_runtimeName (env : Environment) :
    (∀ name left, env.naming.Strips name left ↔ left = env.naming.strip name) ∧
      (∀ name, env.naming.strip (env.naming.physical name) = env.naming.strip name) ∧
      ∀ name other, env.naming.physical name = env.naming.physical other →
        env.naming.strip name = env.naming.strip other ∧ env.isBuiltin name = env.isBuiltin other ∧
          env.outputPath name = env.outputPath other ∧
          (∀ state artifact, (env.visit name state).2 = .ok (some artifact) → env.outputPath other = some artifact.path) ∧
          ∀ state state', env.IsFree name state → env.IsFree other state' →
            (env.visit name state).2 = (env.visit other state').2 := by
  refine ⟨fun name left => Naming.strips_iff, env.naming.strip_physical, ?_⟩
  intro name other alike
  have runtimeName : env.naming.strip name = env.naming.strip other :=
    Naming.strip_eq_of_physical_eq alike
  have builtin : env.isBuiltin name = env.isBuiltin other := by rw [isBuiltin, isBuiltin, runtimeName]
  have path : env.outputPath name = env.outputPath other := by rw [outputPath, outputPath, alike, runtimeName]
  refine ⟨runtimeName, builtin, path, ?_, ?_⟩
  · intro state artifact visited
    rw [← path, outputPath_of_artifact (artifact_of_visit visited)]
  · intro state state' free free'
    rw [visit_of_free free, visit_of_free free', builtin, alike, runtimeName]

end Environment

/-! ## A home package that overlaps itself -/

namespace OverlappingHome

/-- The class file of `ajajava/a`, which has no superclass. -/
def data : Bytes :=
  [0xCA, 0xFE, 0xBA, 0xBE, 0, 0, 0, 52, 0, 3, 1, 0, 9, 97, 106, 97, 106, 97, 118, 97, 47, 97, 7, 0, 1,
    0, 0, 0, 2, 0, 0, 0, 0, 0, 0, 0, 0, 0, 0]

/-- The home package `aja` occurs twice in `ajajava/a`, and the occurrences share a letter. -/
def environment : Environment where
  naming := ⟨"aja"⟩
  builtins := ∅
  index := { entries := (∅ : Std.TreeMap String IndexEntry).insert "ajajava/a.class" ⟨"r/ajajava/a.class", 1⟩ }
  contents _ := .ok data

def artifact : Artifact := ⟨"ajajava/a", 1, "java/a", ⟨"ajajava/a", none, [], [], [], []⟩, none⟩

/-- Only the first of the two occurrences is removed, and the class is made in the same way under either name. -/
theorem lookups_overlapping :
    environment.naming.physical "java/a" = environment.naming.physical "ajajava/a" ∧
      environment.naming.Strips "ajajava/a" "java/a" ∧
      environment.naming.strip "java/a" = environment.naming.strip "ajajava/a" ∧
      environment.isBuiltin "java/a" = environment.isBuiltin "ajajava/a" ∧
      (environment.visit "java/a" {}).2 = .ok (some artifact) ∧
      environment.outputPath "ajajava/a" = some "classpath1/java/a.js" ∧
      (environment.visit "ajajava/a" {}).2 = .ok (some artifact) := by
  have visited : (environment.visit "java/a" {}).2 = .ok (some artifact) := by decide +kernel
  have alike : environment.naming.physical "java/a" = environment.naming.physical "ajajava/a" := by decide +kernel
  obtain ⟨strips, _, both⟩ := Environment.lookups_keep_runtimeName environment
  obtain ⟨runtimeName, builtin, _, stored, ended⟩ := both "java/a" "ajajava/a" alike
  refine ⟨alike, (strips _ _).mpr (by decide +kernel), runtimeName, builtin, visited, ?_, ?_⟩
  · exact (stored {} artifact visited).trans (by decide +kernel)
  · exact (ended {} {} ⟨rfl, rfl⟩ ⟨rfl, rfl⟩).symm.trans visited

end OverlappingHome

end JvmUnits
