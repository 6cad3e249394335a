import JvmUnits.Disk.Basic
import JvmUnits.Proofs.Mention
import JvmUnits.Proofs.Paths

/-!
# What operations on a disk leave as it is

An operation on a disk changes files that it writes and nothing else that is there: `Disk.Leaves` relates a disk to one that
has come from it in such a way, and `Touches` says so of an action, whether it succeeds or is refused. Creating folders changes
no file (`DiskAction.touches_createFolders`), writing and copying change only the target (`DiskAction.touches_write`,
`DiskAction.touches_copy`), and what has been written is there (`DiskAction.file_of_write`).

Files are told apart by the chains of names that lead to them. The chain of a path is `Path.chain`, whatever the disk holds
(`Disk.walk_eq_ok`).
-/

namespace JvmUnits

/-! ## Trees -/

namespace FileTree

/-- What is further down is found by going there in two stages. -/
theorem get?_append (front back : List String) (tree : FileTree) :
    tree.get? (front ++ back) = (tree.get? front).bind (get? back) := by
  induction front generalizing tree with
  | nil => simp [get?]
  | cons name front ih =>
    cases tree with
    | file data => rfl
    | folder entries =>
      simp only [List.cons_append, get?]
      cases entries.lookup name with
      | none => rfl
      | some tree => exact ih tree

/-- The entry that is changed is what it becomes. -/
theorem lookup_change_self (name : String) (becomes : Option FileTree → FileTree) (entries : List (String × FileTree)) :
    (change name becomes entries).lookup name = some (becomes (entries.lookup name)) := by
  induction entries with
  | nil => simp [change]
  | cons entry rest ih =>
    obtain ⟨other, tree⟩ := entry
    by_cases same : other = name
    · simp [change, same]
    · have ne : (name == other) = false := by simpa using Ne.symm same
      simp [change, same, List.lookup_cons, ne, ih]

/-- All other entries stay. -/
theorem lookup_change_of_ne {name other : String} (ne : other ≠ name) (becomes : Option FileTree → FileTree)
    (entries : List (String × FileTree)) : (change name becomes entries).lookup other = entries.lookup other := by
  induction entries with
  | nil =>
    have differs : (other == name) = false := by simpa using ne
    simp [change, List.lookup_cons, differs]
  | cons entry rest ih =>
    obtain ⟨first, tree⟩ := entry
    by_cases same : first = name
    · subst same
      have differs : (other == first) = false := by simpa using ne
      simp [change, List.lookup_cons, differs]
    · simp [change, same, List.lookup_cons, ih]

/-- The bytes of a file; a folder has none. -/
def data? : FileTree → Option Bytes
  | file data => some data
  | folder _ => none

/-- A folder stands at a chain of names. -/
def HasFolder (tree : FileTree) (names : List String) : Prop := ∃ entries, tree.get? names = some (folder entries)

/-- What has something below it is a folder. -/
theorem HasFolder.of_append {tree found : FileTree} {names more : List String} (there : tree.get? (names ++ more) = some found)
    (below : more ≠ []) : tree.HasFolder names := by
  obtain ⟨name, more, rfl⟩ := List.exists_cons_of_ne_nil below
  rw [get?_append] at there
  obtain ⟨above, stands, _⟩ := Option.bind_eq_some_iff.mp there
  cases above with
  | file data =>
    rw [stands] at there
    cases there
  | folder entries => exact ⟨entries, stands⟩

/-- A folder is in a folder. -/
theorem HasFolder.dropLast {tree : FileTree} {names : List String} (there : tree.HasFolder names) :
    tree.HasFolder names.dropLast := by
  obtain ⟨entries, found⟩ := there
  rcases List.eq_nil_or_concat names with rfl | ⟨above, name, rfl⟩
  · exact ⟨entries, found⟩
  · rw [List.concat_eq_append] at found ⊢
    rw [List.dropLast_concat]
    exact .of_append found (List.cons_ne_nil _ _)

/-- What stands neither at a chain of names nor below it keeps its kind and its bytes when something is put there. -/
theorem get?_put_of_not_prefix {content : FileTree} {names other : List String} (apart : ¬ names <+: other)
    {tree found : FileTree} (there : tree.get? other = some found) :
    ∃ now, (put content names tree).get? other = some now ∧ now.data? = found.data? := by
  induction names generalizing other tree with
  | nil => exact absurd List.nil_prefix apart
  | cons name rest ih =>
    cases tree with
    | file data => exact ⟨found, there, rfl⟩
    | folder entries =>
      cases other with
      | nil =>
        cases there
        exact ⟨_, rfl, rfl⟩
      | cons first others =>
        by_cases same : first = name
        · subst same
          have apart' : ¬ rest <+: others := fun inside => apart (List.cons_prefix_cons.mpr ⟨rfl, inside⟩)
          simp only [get?, put, lookup_change_self] at there ⊢
          cases known : entries.lookup first with
          | none =>
            rw [known] at there
            cases there
          | some tree =>
            rw [known] at there
            exact ih apart' there
        · refine ⟨found, ?_, rfl⟩
          simp only [get?, put, lookup_change_of_ne same] at there ⊢
          exact there

/-- What is put into a folder stands there. -/
theorem get?_put_self {content : FileTree} {above : List String} (name : String) {tree : FileTree}
    {entries : List (String × FileTree)} (there : tree.get? above = some (folder entries)) :
    (put content (above ++ [name]) tree).get? (above ++ [name]) = some content := by
  induction above generalizing tree with
  | nil =>
    cases there
    simp [put, get?, lookup_change_self]
  | cons first above ih =>
    cases tree with
    | file data => cases there
    | folder others =>
      simp only [List.cons_append, put, get?, lookup_change_self] at there ⊢
      cases known : others.lookup first with
      | none =>
        rw [known] at there
        cases there
      | some tree =>
        rw [known] at there
        exact ih there

end FileTree

/-! ## Where a path leads -/

namespace Place

/-- What a trail says to stand at its names is what stands there. -/
def IsTrail (top : FileTree) : List (String × Option FileTree) → Prop
  | [] => True
  | (name, content) :: rest => content = top.get? ((rest.map (·.1)).reverse ++ [name]) ∧ IsTrail top rest

/-- A place of a tree. -/
structure In (tree : FileTree) (place : Place) : Prop where
  top : place.top = tree
  trail : IsTrail tree place.trail

variable {tree : FileTree} {place : Place}

/-- The content of a place in a tree is what the tree has there. -/
theorem In.content (inside : place.In tree) : place.content? = tree.get? place.names := by
  obtain ⟨top, trail⟩ := place
  obtain ⟨rfl, sound⟩ := inside
  cases trail with
  | nil => rfl
  | cons entry rest =>
    simp only [content?, names, List.map_cons, List.reverse_cons]
    exact sound.1

/-- Below a place there is one more name. -/
theorem names_below (place : Place) (name : String) : (place.below name).names = place.names ++ [name] := by
  simp [names, below]

/-- Above a place there is one name less. -/
theorem names_above (place : Place) : place.above.names = place.names.dropLast := by
  simp [names, above, List.map_tail]

/-- Going down stays in the tree. -/
theorem In.below (inside : place.In tree) (name : String) : (place.below name).In tree := by
  refine ⟨inside.top, ?_, inside.trail⟩
  rw [inside.content, ← FileTree.get?_append]
  rfl

/-- Going up stays in the tree. -/
theorem In.above (inside : place.In tree) : place.above.In tree := by
  refine ⟨inside.top, ?_⟩
  have sound := inside.trail
  unfold Place.above
  cases known : place.trail with
  | nil => trivial
  | cons entry rest =>
    rw [known] at sound
    exact sound.2

/-- A part that can be followed: it is no name that is too long. -/
def IsFollowable (part : String) : Prop := Path.stays part = true ∨ part = ".." ∨ part.utf8ByteSize ≤ Path.nameLimit

/-- Following a part goes from a folder to where the part leads. -/
theorem follow_eq_ok {next : Place} {part : String} (inside : place.In tree) (h : place.follow part = .ok next) :
    next.In tree ∧ next.names = Path.step place.names part ∧ tree.HasFolder place.names ∧ IsFollowable part := by
  unfold follow at h
  split at h
  · cases h
  · cases h
  · rename_i entries known
    have folder : tree.HasFolder place.names := ⟨entries, by rw [← inside.content, known]⟩
    unfold Path.step
    split at h
    · rename_i stays
      cases h
      exact ⟨inside, (if_pos stays).symm, folder, Or.inl stays⟩
    · rename_i moves
      rw [if_neg moves]
      split at h
      · rename_i up
        cases h
        exact ⟨inside.above, by rw [if_pos up, names_above], folder, Or.inr (Or.inl (by simpa using up))⟩
      · rename_i down
        rw [if_neg down]
        split at h
        · cases h
        · rename_i short
          cases h
          exact ⟨inside.below part, names_below place part, folder, Or.inr (Or.inr (Nat.le_of_not_lt short))⟩

/-- In a folder a part can be followed, unless it is a name that is too long. -/
theorem follow_of_folder {part : String} (inside : place.In tree) (folder : tree.HasFolder place.names)
    (followable : IsFollowable part) : ∃ next, place.follow part = .ok next := by
  obtain ⟨entries, known⟩ := folder
  rw [← inside.content] at known
  unfold follow
  rw [known]
  simp only
  split
  · exact ⟨_, rfl⟩
  · rename_i moves
    split
    · exact ⟨_, rfl⟩
    · rename_i down
      rcases followable with stays | up | short
      · exact absurd stays moves
      · exact absurd (beq_iff_eq.mpr up) down
      · rw [if_neg (Nat.not_lt.mpr short)]
        exact ⟨_, rfl⟩

end Place

/-- Parts can be followed one after the other: each is looked up in a folder. -/
def FileTree.Passes (tree : FileTree) : List String → List String → Prop
  | _, [] => True
  | here, part :: rest => tree.HasFolder here ∧ Place.IsFollowable part ∧ tree.Passes (Path.step here part) rest

/-- Parts that can be followed lead to a folder or into one. -/
theorem FileTree.Passes.arrives {tree : FileTree} {here parts : List String} (passes : tree.Passes here parts)
    (some : parts ≠ []) : tree.HasFolder (parts.foldl Path.step here) ∨
      ∃ above name, parts.foldl Path.step here = above ++ [name] ∧ tree.HasFolder above := by
  induction parts generalizing here with
  | nil => exact absurd rfl some
  | cons part rest ih =>
    obtain ⟨there, _, passes⟩ := passes
    by_cases last : rest = []
    · subst last
      simp only [List.foldl_cons, List.foldl_nil, Path.step]
      split
      · exact Or.inl there
      · split
        · exact Or.inl there.dropLast
        · exact Or.inr ⟨here, part, rfl, there⟩
    · exact ih passes last

namespace Place

/-- Parts that can be followed lead to the place that their names say, through folders. -/
theorem foldlM_follow_eq_ok {tree : FileTree} {place next : Place} {parts : List String} (inside : place.In tree)
    (h : parts.foldlM follow place = .ok next) :
    next.In tree ∧ next.names = parts.foldl Path.step place.names ∧ tree.Passes place.names parts := by
  induction parts generalizing place with
  | nil =>
    cases h
    exact ⟨inside, rfl, trivial⟩
  | cons part rest ih =>
    obtain ⟨first, followed, h⟩ := bind_eq_ok.mp h
    obtain ⟨inside', names, folder, followable⟩ := follow_eq_ok inside followed
    obtain ⟨arrived, ended, passes⟩ := ih inside' h
    rw [names] at ended passes
    exact ⟨arrived, ended, folder, followable, passes⟩

/-- Parts that pass through folders can be followed. -/
theorem foldlM_follow_of_passes {tree : FileTree} {place : Place} {parts : List String} (inside : place.In tree)
    (passes : tree.Passes place.names parts) : ∃ next, parts.foldlM follow place = .ok next := by
  induction parts generalizing place with
  | nil => exact ⟨place, rfl⟩
  | cons part rest ih =>
    obtain ⟨folder, followable, passes⟩ := passes
    obtain ⟨first, followed⟩ := follow_of_folder inside folder followable
    obtain ⟨inside', names, _, _⟩ := follow_eq_ok inside followed
    rw [← names] at passes
    obtain ⟨next, rest⟩ := ih inside' passes
    exact ⟨next, bind_eq_ok.mpr ⟨first, followed, rest⟩⟩

end Place

namespace Disk

variable {disk : Disk} {path : String} {place : Place}

/-- Names lead down from a place, one below the other. -/
theorem in_foldl_below {tree : FileTree} (inside : place.In tree) (names : List String) :
    (names.foldl Place.below place).In tree ∧ (names.foldl Place.below place).names = place.names ++ names := by
  induction names generalizing place with
  | nil => exact ⟨inside, (List.append_nil _).symm⟩
  | cons name rest ih =>
    obtain ⟨ended, spelled⟩ := ih (inside.below name)
    exact ⟨ended, by rw [List.foldl_cons, spelled, Place.names_below, List.append_assoc, List.singleton_append]⟩

/-- The place where a path starts. -/
theorem in_start (disk : Disk) (path : String) :
    ((disk.origin path).foldl Place.below ⟨disk.tree, []⟩).In disk.tree ∧
      ((disk.origin path).foldl Place.below ⟨disk.tree, []⟩).names = disk.origin path := by
  have top : (⟨disk.tree, []⟩ : Place).In disk.tree := ⟨rfl, trivial⟩
  exact in_foldl_below top (disk.origin path)

/-- A walk leads to the chain of names that its parts spell. -/
theorem walk_eq_ok {parts : List String} (h : disk.walk path parts = .ok place) :
    place.names = parts.foldl Path.step (disk.origin path) ∧ place.content? = disk.tree.get? place.names ∧
      disk.tree.Passes (disk.origin path) parts := by
  unfold walk at h
  split at h
  · cases h
  · split at h
    · cases h
    · split at h
      · cases h
      · obtain ⟨inside, names⟩ := disk.in_start path
        obtain ⟨arrived, ended, passes⟩ := Place.foldlM_follow_eq_ok inside h
        rw [names] at ended passes
        exact ⟨ended, arrived.content, passes⟩

/-- A walk that is possible on one disk is possible on another disk with the same working folder where its parts can be
followed. -/
theorem exists_walk {after : Disk} {parts : List String} (h : disk.walk path parts = .ok place)
    (passes : after.tree.Passes (after.origin path) parts) : ∃ there, after.walk path parts = .ok there := by
  unfold walk at h ⊢
  split at h
  · cases h
  · rename_i noNul
    split at h
    · cases h
    · rename_i nonempty
      split at h
      · cases h
      · rename_i short
        rw [if_neg noNul, if_neg nonempty, if_neg short]
        obtain ⟨inside, names⟩ := after.in_start path
        exact Place.foldlM_follow_of_passes inside (by rw [names]; exact passes)

/-- A disk that has come from another by changing only files that may be written: whatever stood on it still stands, a folder
as a folder, and a file with the bytes that it had unless it may be written. -/
structure Leaves (written : List String → Prop) (before after : Disk) : Prop where
  workingFolder : after.workingFolder = before.workingFolder
  kept : ∀ names found, before.tree.get? names = some found → (found.data? ≠ none → ¬ written names) →
    ∃ now, after.tree.get? names = some now ∧ now.data? = found.data?

namespace Leaves

variable {written : List String → Prop} {before middle after : Disk}

theorem refl (disk : Disk) : Leaves written disk disk := ⟨rfl, fun _ found there _ => ⟨found, there, rfl⟩⟩

/-- What is left as it is in two stages is left as it is. -/
theorem trans (first : Leaves written before middle) (second : Leaves written middle after) : Leaves written before after := by
  refine ⟨second.workingFolder.trans first.workingFolder, fun names found there allowed => ?_⟩
  obtain ⟨between, stands, same⟩ := first.kept names found there allowed
  obtain ⟨now, ends, same'⟩ := second.kept names between stands (by rw [same]; exact allowed)
  exact ⟨now, ends, same'.trans same⟩

/-- Folders stay folders. -/
theorem hasFolder (leaves : Leaves written before after) {names : List String} (there : before.tree.HasFolder names) :
    after.tree.HasFolder names := by
  obtain ⟨entries, found⟩ := there
  obtain ⟨now, stands, same⟩ := leaves.kept names _ found (fun data => absurd rfl data)
  cases now with
  | file data => cases same
  | folder entries => exact ⟨entries, stands⟩

/-- Files that are not written keep their bytes. -/
theorem file (leaves : Leaves written before after) {names : List String} {data : Bytes}
    (there : before.tree.get? names = some (.file data)) (spared : ¬ written names) :
    after.tree.get? names = some (.file data) := by
  obtain ⟨now, stands, same⟩ := leaves.kept names _ there (fun _ => spared)
  cases now with
  | file found =>
    cases same
    exact stands
  | folder entries => cases same

/-- Parts that could be followed can be followed still. -/
theorem passes (leaves : Leaves written before after) {here parts : List String} (passed : before.tree.Passes here parts) :
    after.tree.Passes here parts := by
  induction parts generalizing here with
  | nil => trivial
  | cons part rest ih =>
    obtain ⟨folder, followable, passed⟩ := passed
    exact ⟨leaves.hasFolder folder, followable, ih passed⟩

/-- A path that led somewhere leads somewhere still. -/
theorem exists_place (leaves : Leaves written before after) {path : String} {found : Place} (walked : before.place path = .ok found) :
    ∃ there, after.place path = .ok there := by
  have origin : after.origin path = before.origin path := by
    unfold Disk.origin
    rw [leaves.workingFolder]
  refine exists_walk walked ?_
  rw [origin]
  exact leaves.passes (walk_eq_ok walked).2.2

/-- Something may be put where no folder is, if what may be there already may be written. -/
theorem put {disk : Disk} {names : List String} {content : FileTree} (noFolder : ¬ disk.tree.HasFolder names)
    (allowed : disk.tree.get? names ≠ none → written names) : Leaves written disk (disk.put names content) := by
  refine ⟨rfl, fun other found there spared => ?_⟩
  have apart : ¬ names <+: other := by
    rintro ⟨more, rfl⟩
    by_cases below : more = []
    · subst below
      rw [List.append_nil] at there spared
      cases found with
      | file data => exact spared (Option.some_ne_none _) (allowed (by rw [there]; exact Option.some_ne_none _))
      | folder entries => exact noFolder ⟨entries, there⟩
    · exact noFolder (.of_append there below)
  exact FileTree.get?_put_of_not_prefix apart there

end Leaves

/-- A file at the end of a path that leads somewhere can be read. -/
theorem read_of_file {data : Bytes} (reached : disk.place path = .ok place)
    (there : disk.tree.get? (Path.chain disk.workingFolder path) = some (.file data)) : disk.read path = .ok data := by
  obtain ⟨names, content, _⟩ := walk_eq_ok reached
  have chained : place.names = Path.chain disk.workingFolder path := names
  have found : disk.find path = .ok (.file data) := by
    unfold find
    rw [reached]
    simp only [content, chained, there]
  rw [read, found]

end Disk

/-! ## Actions on a disk -/

/-- An action, on disks with a certain working folder, that changes only files that may be written. -/
def Touches {ε α : Type} (home : List String) (written : List String → Prop) (action : ExceptT ε (StateM Disk) α) : Prop :=
  ∀ disk : Disk, disk.workingFolder = home → disk.Leaves written (action.run disk).2

section

variable {ε ε' α β : Type} {home : List String} {written : List String → Prop} {disk after : Disk}
  {action : ExceptT ε (StateM Disk) α}

/-- An action that succeeds goes on with the next one. -/
theorem run_bind_ok {next : α → ExceptT ε (StateM Disk) β} {a : α} (h : action.run disk = (.ok a, after)) :
    (action >>= next).run disk = (next a).run after := by
  simp only [bind, ExceptT.bind, ExceptT.mk, ExceptT.run, StateT.bind, ExceptT.bindCont] at h ⊢
  rw [h]

/-- An action that fails ends all. -/
theorem run_bind_error {next : α → ExceptT ε (StateM Disk) β} {e : ε} (h : action.run disk = (.error e, after)) :
    (action >>= next).run disk = (.error e, after) := by
  simp only [bind, ExceptT.bind, ExceptT.mk, ExceptT.run, StateT.bind, ExceptT.bindCont] at h ⊢
  rw [h]
  rfl

/-- An action that succeeds has nothing to be handled. -/
theorem run_tryCatch_ok {handler : ε → ExceptT ε (StateM Disk) α} {a : α} (h : action.run disk = (.ok a, after)) :
    (tryCatch action handler).run disk = (.ok a, after) := by
  simp only [tryCatch, tryCatchThe, MonadExceptOf.tryCatch, ExceptT.tryCatch, bind, ExceptT.mk, ExceptT.run, StateT.bind] at h ⊢
  rw [h]
  rfl

/-- An action that fails is handled. -/
theorem run_tryCatch_error {handler : ε → ExceptT ε (StateM Disk) α} {e : ε} (h : action.run disk = (.error e, after)) :
    (tryCatch action handler).run disk = (handler e).run after := by
  simp only [tryCatch, tryCatchThe, MonadExceptOf.tryCatch, ExceptT.tryCatch, bind, ExceptT.mk, ExceptT.run, StateT.bind] at h ⊢
  rw [h]

/-- Where two actions succeed one after the other, each does. -/
theorem of_run_bind_ok {next : α → ExceptT ε (StateM Disk) β} {b : β} (h : (action >>= next).run disk = (.ok b, after)) :
    ∃ a middle, action.run disk = (.ok a, middle) ∧ (next a).run middle = (.ok b, after) := by
  rcases first : action.run disk with ⟨e | a, middle⟩
  · rw [run_bind_error first] at h
    cases h
  · exact ⟨a, middle, rfl, by rw [← h, run_bind_ok first]⟩

/-- An action that succeeds does so without the words in which it would have been refused. -/
theorem of_run_adapt_ok {words : ε → ε'} {a : α} (h : (action.adapt words).run disk = (.ok a, after)) :
    action.run disk = (.ok a, after) := by
  have adapted : (action.adapt words).run disk = ((action.run disk).1.mapError words, (action.run disk).2) := rfl
  rw [adapted] at h
  rcases first : action.run disk with ⟨e | a, middle⟩ <;> rw [first] at h <;> cases h
  rfl

namespace Touches

theorem pure (a : α) : Touches home written (Pure.pure a : ExceptT ε (StateM Disk) α) := fun disk _ => .refl disk

theorem throw (e : ε) : Touches home written (MonadExcept.throw e : ExceptT ε (StateM Disk) α) := fun disk _ => .refl disk

/-- Two actions in a row write no more than both may. -/
theorem bind {next : α → ExceptT ε (StateM Disk) β} (first : Touches home written action)
    (second : ∀ a, Touches home written (next a)) : Touches home written (action >>= next) := by
  intro disk here
  have begun := first disk here
  rcases h : action.run disk with ⟨e | a, middle⟩ <;> rw [h] at begun
  · rw [run_bind_error h]
    exact begun
  · rw [run_bind_ok h]
    exact begun.trans (second a middle (begun.workingFolder.trans here))

/-- An action and what handles its failure write no more than both may. -/
theorem tryCatch {handler : ε → ExceptT ε (StateM Disk) α} (first : Touches home written action)
    (second : ∀ e, Touches home written (handler e)) : Touches home written (MonadExcept.tryCatch action handler) := by
  intro disk here
  have begun := first disk here
  rcases h : action.run disk with ⟨e | a, middle⟩ <;> rw [h] at begun
  · rw [run_tryCatch_error h]
    exact begun.trans (second e middle (begun.workingFolder.trans here))
  · rw [run_tryCatch_ok h]
    exact begun

/-- Failures in other words touch nothing. -/
theorem adapt (words : ε → ε') (first : Touches home written action) : Touches home written (action.adapt words) :=
  fun disk here => first disk here

/-- What an action leaves as it is can be told from any run of it. -/
theorem leaves (touches : Touches home written action) (here : disk.workingFolder = home) {result : Except ε α}
    (h : action.run disk = (result, after)) : disk.Leaves written after := by
  have left := touches disk here
  rwa [h] at left

end Touches

end

namespace DiskAction

variable {home : List String} {written : List String → Prop} {disk after : Disk}

/-- Looking at a disk leaves it as it is. -/
theorem run_look {α : Type} (view : Disk → Except OsError α) (disk : Disk) : (look view).run disk = (view disk, disk) := by
  change (look.liftExcept (view disk)).run disk = _
  cases view disk <;> rfl

theorem touches_look {α : Type} (view : Disk → Except OsError α) : Touches home written (look view) := by
  intro disk _
  rw [run_look]
  exact .refl disk

/-- Creating a folder writes no file, whether it is created or not. -/
theorem touches_createFolder (path : String) : Touches home written (createFolder path) := by
  intro disk here
  unfold createFolder
  cases walked : disk.folderPlace path with
  | error e =>
    rw [run_bind_error (by rw [run_look, walked])]
    exact .refl disk
  | ok place =>
    rw [run_bind_ok (by rw [run_look, walked])]
    obtain ⟨_, content, _⟩ := Disk.walk_eq_ok walked
    cases there : place.content? with
    | some found => exact .refl disk
    | none =>
      rw [content] at there
      refine .put ?_ (fun stands => absurd there stands)
      rintro ⟨entries, folder⟩
      rw [there] at folder
      cases folder

/-- A folder that is there already is left as it is. -/
theorem touches_ensureFolder (path : String) : Touches home written (ensureFolder path) := by
  refine (touches_createFolder path).tryCatch fun refusal => ?_
  refine .bind (fun disk _ => .refl disk) fun disk => ?_
  split
  · exact .pure _
  · exact .throw _

/-- Creating the folders on the way to a place writes no file. -/
theorem touches_ensureFolders (reversed : List String) : Touches home written (ensureFolders reversed) := by
  fun_induction ensureFolders reversed with
  | case1 => exact .pure _
  | case2 reversed some ih =>
    simp only [dif_neg some]
    refine (touches_ensureFolder _).tryCatch fun refusal => ?_
    cases refusal with
    | notFound => exact ih.bind fun _ => touches_ensureFolder _
    | _ => exact .throw _

/-- Creating folders changes no file. -/
theorem touches_createFolders (path : String) : Touches home written (createFolders path) := by
  unfold createFolders
  split
  · exact .pure _
  · exact touches_ensureFolders _

/-- A write is refused, or puts the file at the end of the path, where no folder is. -/
theorem run_write_cases (path : String) (data : Bytes) (disk : Disk) :
    (∃ e, (write path data).run disk = (.error e, disk)) ∨
      ∃ place, disk.place path = .ok place ∧ ¬ disk.tree.HasFolder place.names ∧
        (write path data).run disk = (.ok (), disk.put place.names (.file data)) := by
  unfold write
  cases walked : disk.place path with
  | error e => exact Or.inl ⟨e, by rw [run_bind_error (by rw [run_look, walked])]⟩
  | ok place =>
    rw [run_bind_ok (by rw [run_look, walked])]
    obtain ⟨_, content, _⟩ := Disk.walk_eq_ok walked
    by_cases folder : disk.tree.HasFolder place.names
    · obtain ⟨entries, found⟩ := folder
      rw [← content] at found
      refine Or.inl ⟨.isADirectory, ?_⟩
      rw [found]
      rfl
    · refine Or.inr ⟨place, rfl, folder, ?_⟩
      split
      · rename_i entries found
        exact absurd ⟨entries, by rw [← content, found]⟩ folder
      · rfl

/-- Writing a file changes only that file. -/
theorem touches_write {path : String} (data : Bytes) (allowed : written (Path.chain home path)) :
    Touches home written (write path data) := by
  intro disk here
  subst here
  rcases run_write_cases path data disk with ⟨e, refused⟩ | ⟨place, walked, noFolder, ended⟩
  · rw [refused]
    exact .refl disk
  · rw [ended]
    obtain ⟨names, _, _⟩ := Disk.walk_eq_ok walked
    exact .put noFolder (fun _ => by rw [names]; exact allowed)

/-- A file that has been written is there. -/
theorem file_of_write {path : String} {data : Bytes} (h : (write path data).run disk = (.ok (), after)) :
    after.tree.get? (Path.chain disk.workingFolder path) = some (.file data) ∧ ∃ place, after.place path = .ok place := by
  have touched : Touches disk.workingFolder (fun _ => True) (write path data) := touches_write data trivial
  have leaves := touched.leaves rfl h
  rcases run_write_cases path data disk with ⟨e, refused⟩ | ⟨place, walked, noFolder, ended⟩
  · rw [refused] at h
    cases h
  · rw [ended] at h
    cases h
    refine ⟨?_, leaves.exists_place walked⟩
    obtain ⟨names, _, passes⟩ := Disk.walk_eq_ok walked
    have chained : place.names = Path.chain disk.workingFolder path := names
    rw [chained] at noFolder ⊢
    -- The path does not lead to a folder, so it leads into one.
    rcases passes.arrives (Path.parts_ne_nil path) with folder | ⟨above, name, into, entries, there⟩
    · exact absurd folder noFolder
    · have into : Path.chain disk.workingFolder path = above ++ [name] := into
      rw [into]
      exact FileTree.get?_put_self name there

/-- Copying a file changes only the target. -/
theorem touches_copy (source : String) {target : String} (allowed : written (Path.chain home target)) :
    Touches home written (copy source target) := by
  unfold copy
  refine .bind (.bind (touches_look _) fun _ => .pure _) fun _ => ?_
  refine .bind (touches_write [] allowed) fun _ => ?_
  exact .bind (touches_look _) fun data => touches_write data allowed

end DiskAction

end JvmUnits
