import JvmUnits.Proofs.OutputFiles

/-!
# Disks that differ in the bytes of some files

Two disks are alike up to some files when the same folders and files stand on both, and all files but those have the same
bytes (`Disk.Alike`). An operation whose answer does not depend on the bytes of those files goes the same way on both disks:
it succeeds on both or is refused on both for the same reason, and leaves disks that are alike; and a file that it writes has
the same bytes on both from then on (`Lockstep`). So do the operations that store an artifact, if the file with its native
methods is the same on both disks (`Artifact.lockstep_save`).
-/

namespace JvmUnits

/-! ## Trees -/

namespace FileTree

/-- What stands at one place of two trees: nothing, folders, or files, with the same bytes unless they may differ. -/
inductive Resembles (loose : Prop) : Option FileTree → Option FileTree → Prop where
  | missing : Resembles loose none none
  | folder (entries others : List (String × FileTree)) : Resembles loose (some (folder entries)) (some (folder others))
  | file {data other : Bytes} (same : ¬ loose → data = other) : Resembles loose (some (file data)) (some (file other))

/-- The same folders and files stand in two trees, and files have the same bytes unless they may differ. -/
def Alike (differ : List String → Prop) (one other : FileTree) : Prop :=
  ∀ names, Resembles (differ names) (one.get? names) (other.get? names)

theorem Resembles.refl {loose : Prop} (found : Option FileTree) : Resembles loose found found := by
  rcases found with _ | data | entries
  · exact .missing
  · exact .file fun _ => rfl
  · exact .folder entries entries

/-- What resembles more closely resembles loosely. -/
theorem Resembles.mono {loose looser : Prop} (imp : loose → looser) {one other : Option FileTree}
    (resembles : Resembles loose one other) : Resembles looser one other := by
  cases resembles with
  | missing => exact .missing
  | folder entries others => exact .folder entries others
  | file same => exact .file fun strict => same fun may => strict (imp may)

namespace Alike

variable {differ more : List String → Prop} {one other : FileTree}

/-- Trees that are alike stay alike if more files may differ. -/
theorem mono (imp : ∀ names, differ names → more names) (alike : Alike differ one other) : Alike more one other :=
  fun names => (alike names).mono (imp names)

/-- What stands at a name in two folders that are alike is alike; where nothing stood, a new folder is the same on both
sides. -/
theorem lookup {entries others : List (String × FileTree)} (alike : Alike differ (folder entries) (folder others))
    (name : String) :
    Alike (fun below => differ (name :: below)) ((entries.lookup name).getD (folder []))
      ((others.lookup name).getD (folder [])) := by
  have there := fun below => alike (name :: below)
  simp only [get?] at there
  have top := there []
  intro below
  have deep := there below
  cases known : entries.lookup name with
  | none =>
    cases known' : others.lookup name with
    | none => exact .refl _
    | some tree =>
      simp only [known, known', get?] at top
      cases top
  | some tree =>
    cases known' : others.lookup name with
    | none =>
      simp only [known, known', get?] at top
      cases top
    | some tree' =>
      rw [known, known'] at deep
      exact deep

/-- Something put at the same place of two trees that are alike leaves trees that are alike, and the same thing there. -/
theorem put (content : FileTree) (names : List String) (alike : Alike differ one other) :
    Alike (fun found => differ found ∧ found ≠ names) (FileTree.put content names one)
      (FileTree.put content names other) := by
  induction names generalizing differ one other with
  | nil =>
    intro found
    rw [FileTree.put, FileTree.put]
    exact .refl _
  | cons name rest ih =>
    have top := alike []
    cases one with
    | file data =>
      cases other with
      | folder entries => cases top
      | file bytes =>
        intro found
        cases found with
        | nil => exact top.mono fun may => ⟨may, (List.cons_ne_nil name rest).symm⟩
        | cons => exact .missing
    | folder entries =>
      cases other with
      | file bytes => cases top
      | folder others =>
        intro found
        cases found with
        | nil => exact .folder _ _
        | cons first below =>
          simp only [get?, FileTree.put]
          by_cases same : first = name
          · subst same
            simp only [lookup_change_self]
            refine (ih (alike.lookup first) below).mono fun may => ⟨may.1, fun eq => may.2 (List.cons.inj eq).2⟩
          · simp only [lookup_change_of_ne same]
            refine (alike (first :: below)).mono fun may => ⟨may, fun eq => same (List.cons.inj eq).1⟩

end Alike

end FileTree

/-! ## Where a path leads on both disks -/

/-- Both computations are refused for the same reason, or both succeed with results that belong together. -/
inductive Matching {ε α β : Type} (related : α → β → Prop) : Except ε α → Except ε β → Prop where
  | error (e : ε) : Matching related (.error e) (.error e)
  | ok {a : α} {b : β} (both : related a b) : Matching related (.ok a) (.ok b)

/-- Places with the same chain of names in two trees. -/
structure Place.Twins (one other : FileTree) (place twin : Place) : Prop where
  inside : place.In one
  twinInside : twin.In other
  names : twin.names = place.names

namespace Place.Twins

variable {differ : List String → Prop} {one other : FileTree} {place twin : Place}

/-- Twin places have contents that resemble each other. -/
theorem content (twins : Twins one other place twin) (alike : one.Alike differ other) :
    FileTree.Resembles (differ place.names) place.content? twin.content? := by
  rw [twins.inside.content, twins.twinInside.content, twins.names]
  exact alike place.names

/-- Below twin places are twin places. -/
theorem below (twins : Twins one other place twin) (name : String) : Twins one other (place.below name) (twin.below name) :=
  ⟨twins.inside.below name, twins.twinInside.below name, by rw [names_below, names_below, twins.names]⟩

/-- Above twin places are twin places. -/
theorem above (twins : Twins one other place twin) : Twins one other place.above twin.above :=
  ⟨twins.inside.above, twins.twinInside.above, by rw [names_above, names_above, twins.names]⟩

theorem foldl_below (twins : Twins one other place twin) (names : List String) :
    Twins one other (names.foldl Place.below place) (names.foldl Place.below twin) := by
  induction names generalizing place twin with
  | nil => exact twins
  | cons name rest ih => exact ih (twins.below name)

/-- Twin places can be left by the same parts, and with the same refusals. -/
theorem follow (twins : Twins one other place twin) (alike : one.Alike differ other) (part : String) :
    Matching (Twins one other) (place.follow part) (twin.follow part) := by
  unfold Place.follow
  have content := twins.content alike
  generalize place.content? = found at content
  generalize twin.content? = twinFound at content
  cases content with
  | missing => exact .error _
  | file => exact .error _
  | folder =>
    simp only
    split
    · exact .ok twins
    · split
      · exact .ok twins.above
      · split
        · exact .error _
        · exact .ok (twins.below part)

/-- The same parts lead from twin places to twin places. -/
theorem foldlM_follow (twins : Twins one other place twin) (alike : one.Alike differ other) (parts : List String) :
    Matching (Twins one other) (parts.foldlM Place.follow place) (parts.foldlM Place.follow twin) := by
  induction parts generalizing place twin with
  | nil => exact .ok twins
  | cons part rest ih =>
    rw [List.foldlM_cons, List.foldlM_cons]
    have first := twins.follow alike part
    generalize place.follow part = next at first
    generalize twin.follow part = twinNext at first
    cases first with
    | error e => exact .error e
    | ok both => exact ih both

end Place.Twins

namespace Disk

/-- The same folders and files stand on two disks with the same working folder, and files have the same bytes unless they may
differ. -/
structure Alike (home : List String) (differ : List String → Prop) (one other : Disk) : Prop where
  here : one.workingFolder = home
  there : other.workingFolder = home
  tree : one.tree.Alike differ other.tree

namespace Alike

variable {home : List String} {differ more : List String → Prop} {one other : Disk}

/-- Disks that are alike stay alike if more files may differ. -/
theorem mono (imp : ∀ names, differ names → more names) (alike : Alike home differ one other) : Alike home more one other :=
  ⟨alike.here, alike.there, alike.tree.mono imp⟩

/-- A file that is put on both disks no longer differs. -/
theorem put (alike : Alike home differ one other) (names : List String) (content : FileTree) :
    Alike home (fun found => differ found ∧ found ≠ names) (one.put names content) (other.put names content) :=
  ⟨alike.here, alike.there, alike.tree.put content names⟩

/-- A path leads on both disks to the same place or nowhere. -/
theorem walk (alike : Alike home differ one other) (path : String) (parts : List String) :
    Matching (Place.Twins one.tree other.tree) (one.walk path parts) (other.walk path parts) := by
  have origin : other.origin path = one.origin path := by
    unfold Disk.origin
    rw [alike.here, alike.there]
  have top : Place.Twins one.tree other.tree ⟨one.tree, []⟩ ⟨other.tree, []⟩ := ⟨⟨rfl, trivial⟩, ⟨rfl, trivial⟩, rfl⟩
  unfold Disk.walk
  rw [origin]
  split
  · exact .error _
  · split
    · exact .error _
    · split
      · exact .error _
      · exact (top.foldl_below _).foldlM_follow alike.tree parts

/-- What a path leads to resembles on both disks. -/
theorem find (alike : Alike home differ one other) (path : String) :
    Matching (fun found twin => FileTree.Resembles (differ (Path.chain home path)) (some found) (some twin))
      (one.find path) (other.find path) := by
  have walked := alike.walk path (Path.parts path)
  unfold Disk.find Disk.place
  cases reached : one.walk path (Path.parts path) with
  | error e =>
    rw [reached] at walked
    generalize other.walk path (Path.parts path) = twin at walked
    cases walked
    exact .error e
  | ok place =>
    obtain ⟨names, _, _⟩ := walk_eq_ok reached
    have chained : place.names = Path.chain home path := by
      rw [names, ← alike.here]
      rfl
    rw [reached] at walked
    generalize other.walk path (Path.parts path) = twin at walked
    cases walked with
    | ok twins =>
      have content := twins.content alike.tree
      rw [chained] at content
      simp only
      generalize place.content? = found at content
      generalize Place.content? _ = twinFound at content
      cases content with
      | missing => exact .error _
      | folder entries others => exact .ok (.folder entries others)
      | file same => exact .ok (.file same)

/-- The same paths lead to folders on both disks. -/
theorem isFolder (alike : Alike home differ one other) (path : String) : other.isFolder path = one.isFolder path := by
  have found := alike.find path
  unfold Disk.isFolder
  generalize one.find path = here at found
  generalize other.find path = there at found
  cases found with
  | error => rfl
  | ok resembles => cases resembles <;> rfl

/-- A file that does not differ reads the same. -/
theorem read (alike : Alike home differ one other) {path : String} (same : ¬ differ (Path.chain home path)) :
    other.read path = one.read path := by
  have found := alike.find path
  unfold Disk.read
  generalize one.find path = here at found
  generalize other.find path = there at found
  cases found with
  | error => rfl
  | ok resembles =>
    cases resembles with
    | folder => rfl
    | file bytes => simp only [bytes same]

end Alike

end Disk

/-! ## Actions on both disks -/

/-- Two runs of an action end the same way: with the same result, on disks that are alike; and if they succeed, the files that
are settled do not differ any more. -/
structure SameEnd {ε α : Type} (home : List String) (differ settled : List String → Prop) (one other : Except ε α × Disk) :
    Prop where
  result : other.1 = one.1
  alike : one.2.Alike home differ other.2
  settles : ∀ a, one.1 = .ok a → one.2.Alike home (fun names => differ names ∧ ¬ settled names) other.2

/-- An action goes the same way on any two disks that are alike, where they differ in certain files at most. -/
def Lockstep {ε α : Type} (home : List String) (differ settled : List String → Prop) (action : ExceptT ε (StateM Disk) α) :
    Prop :=
  ∀ (left : List String → Prop) (one other : Disk), (∀ names, left names → differ names) → one.Alike home left other →
    SameEnd home left settled (action.run one) (action.run other)

section

variable {ε ε' α β : Type} {home : List String} {differ settled more : List String → Prop} {one other : Disk}
  {action : ExceptT ε (StateM Disk) α}

/-- Nothing happens on both disks. -/
theorem SameEnd.refl (alike : one.Alike home differ other) (result : Except ε α) :
    SameEnd home differ (fun _ => False) (result, one) (result, other) :=
  ⟨rfl, alike, fun _ _ => alike.mono fun _ may => ⟨may, id⟩⟩

/-- Both runs are refused. -/
theorem SameEnd.error (alike : one.Alike home differ other) (e : ε) :
    SameEnd home differ settled ((.error e : Except ε α), one) (.error e, other) :=
  ⟨rfl, alike, nofun⟩

namespace Lockstep

theorem pure (a : α) : Lockstep home differ (fun _ => False) (Pure.pure a : ExceptT ε (StateM Disk) α) :=
  fun _ _ _ _ alike => .refl alike (.ok a)

theorem throw (e : ε) : Lockstep home differ settled (MonadExcept.throw e : ExceptT ε (StateM Disk) α) :=
  fun _ _ _ _ alike => .error alike e

/-- What settles more settles less. -/
theorem weaken (imp : ∀ names, settled names → more names) (lockstep : Lockstep home differ more action) :
    Lockstep home differ settled action := by
  intro left one other inside alike
  obtain ⟨result, kept, done⟩ := lockstep left one other inside alike
  exact ⟨result, kept, fun a ok => (done a ok).mono fun names may => ⟨may.1, fun early => may.2 (imp names early)⟩⟩

/-- Two actions in a row keep disks in step, and settle the files that either of them settles. -/
theorem bind {next : α → ExceptT ε (StateM Disk) β} (first : Lockstep home differ settled action)
    (second : ∀ a, Lockstep home differ more (next a)) :
    Lockstep home differ (fun names => settled names ∨ more names) (action >>= next) := by
  intro left one other inside alike
  obtain ⟨result, kept, done⟩ := first left one other inside alike
  rcases ran : action.run one with ⟨e | a, middle⟩ <;> rcases twinRan : action.run other with ⟨outcome, twin⟩ <;>
    rw [ran, twinRan] at result kept done <;> obtain rfl := result
  · rw [run_bind_error ran, run_bind_error twinRan]
    exact .error kept e
  · rw [run_bind_ok ran, run_bind_ok twinRan]
    obtain ⟨result', kept', done'⟩ := second a _ middle twin (fun names may => inside names may.1) (done a rfl)
    refine ⟨result', kept'.mono fun _ may => may.1, fun b ok => (done' b ok).mono ?_⟩
    rintro names ⟨⟨may, early⟩, late⟩
    exact ⟨may, fun either => either.elim early late⟩

/-- An action and what handles its failure keep disks in step. -/
theorem tryCatch {handler : ε → ExceptT ε (StateM Disk) α} (first : Lockstep home differ settled action)
    (second : ∀ e, Lockstep home differ settled (handler e)) :
    Lockstep home differ settled (MonadExcept.tryCatch action handler) := by
  intro left one other inside alike
  obtain ⟨result, kept, done⟩ := first left one other inside alike
  rcases ran : action.run one with ⟨e | a, middle⟩ <;> rcases twinRan : action.run other with ⟨outcome, twin⟩ <;>
    rw [ran, twinRan] at result kept done <;> obtain rfl := result
  · rw [run_tryCatch_error ran, run_tryCatch_error twinRan]
    exact second e left middle twin inside kept
  · rw [run_tryCatch_ok ran, run_tryCatch_ok twinRan]
    exact ⟨rfl, kept, done⟩

/-- Failures in other words do not matter. -/
theorem adapt (words : ε → ε') (lockstep : Lockstep home differ settled action) :
    Lockstep home differ settled (action.adapt words) := by
  intro left one other inside alike
  obtain ⟨result, kept, done⟩ := lockstep left one other inside alike
  refine ⟨congrArg (Except.mapError words) result, kept, fun a ok => ?_⟩
  cases ran : (action.run one).1 with
  | error e =>
    have failed : (action.run one).1.mapError words = .ok a := ok
    rw [ran] at failed
    cases failed
  | ok b => exact done b ran

end Lockstep

end

namespace DiskAction

variable {home : List String} {differ : List String → Prop}

/-- An action that looks for a place and goes on there, where going on has the same end at twin places. -/
theorem lockstep_walk {α : Type} {settled : List String → Prop} {path : String} {parts : List String}
    {next : Place → DiskAction α}
    (each : ∀ (left : List String → Prop) (one other : Disk) (place twin : Place), one.Alike home left other →
      place.names = parts.foldl Path.step (Path.origin home path) →
      FileTree.Resembles (left place.names) place.content? twin.content? → twin.names = place.names →
      SameEnd home left settled ((next place).run one) ((next twin).run other)) :
    Lockstep home differ settled (look (·.walk path parts) >>= next) := by
  intro left one other inside alike
  have walked := alike.walk path parts
  cases reached : one.walk path parts with
  | error e =>
    cases twinReached : other.walk path parts <;> rw [reached, twinReached] at walked <;> cases walked
    rw [run_bind_error (by rw [run_look, reached]), run_bind_error (by rw [run_look, twinReached])]
    exact .error alike e
  | ok place =>
    cases twinReached : other.walk path parts with
    | error e =>
      rw [reached, twinReached] at walked
      cases walked
    | ok twin =>
      rw [reached, twinReached] at walked
      cases walked with
      | ok twins =>
        rw [run_bind_ok (by rw [run_look, reached]), run_bind_ok (by rw [run_look, twinReached])]
        refine each left one other place twin alike ?_ (twins.content alike.tree) twins.names
        rw [(Disk.walk_eq_ok reached).1, ← alike.here]
        rfl

/-- Creating a folder keeps disks in step and settles no file. -/
theorem lockstep_createFolder (path : String) : Lockstep home differ (fun _ => False) (createFolder path) := by
  refine lockstep_walk fun left one other place twin alike _ content names => ?_
  simp only [names]
  generalize place.content? = found at content
  generalize twin.content? = twinFound at content
  cases content with
  | missing =>
    have put := (alike.put place.names (.folder [])).mono fun _ may => may.1
    exact .refl put (.ok ())
  | folder => exact .error alike _
  | file => exact .error alike _

theorem lockstep_ensureFolder (path : String) : Lockstep home differ (fun _ => False) (ensureFolder path) := by
  refine (lockstep_createFolder path).tryCatch fun refusal left one other _ alike => ?_
  have asked : ∀ disk : Disk,
      (do if (← get).isFolder path then Pure.pure () else MonadExcept.throw refusal : DiskAction Unit).run disk =
      (if disk.isFolder path then .ok () else .error refusal, disk) := by
    intro disk
    change (if disk.isFolder path then Pure.pure () else MonadExcept.throw refusal : DiskAction Unit).run disk = _
    split <;> rfl
  rw [asked, asked, alike.isFolder]
  exact .refl alike _

/-- Creating the folders on the way to a place keeps disks in step. -/
theorem lockstep_ensureFolders (reversed : List String) : Lockstep home differ (fun _ => False) (ensureFolders reversed) := by
  fun_induction ensureFolders reversed with
  | case1 => exact .pure _
  | case2 reversed some ih =>
    simp only [dif_neg some]
    refine (lockstep_ensureFolder _).tryCatch fun refusal => ?_
    cases refusal with
    | notFound => exact (ih.bind fun _ => lockstep_ensureFolder _).weaken nofun
    | _ => exact .throw _

/-- Folders are created on both disks or on neither. -/
theorem lockstep_createFolders (path : String) : Lockstep home differ (fun _ => False) (createFolders path) := by
  unfold createFolders
  split
  · exact .pure _
  · exact lockstep_ensureFolders _

/-- A file that has been written is the same on both disks. -/
theorem lockstep_write (path : String) (data : Bytes) : Lockstep home differ (· = Path.chain home path) (write path data) := by
  refine lockstep_walk fun left one other place twin alike chained content names => ?_
  have put := alike.put place.names (.file data)
  have written : SameEnd home left (· = Path.chain home path) ((.ok () : Except OsError Unit), one.put place.names (.file data))
      (.ok (), other.put place.names (.file data)) := by
    refine ⟨rfl, put.mono fun _ may => may.1, fun _ _ => put.mono fun _ may => ⟨may.1, ?_⟩⟩
    rw [chained] at may
    exact may.2
  simp only [names]
  generalize place.content? = found at content
  generalize twin.content? = twinFound at content
  cases content with
  | missing => exact written
  | folder => exact .error alike _
  | file => exact written

/-- A file that is the same on both disks has the same copy. -/
theorem lockstep_copy {source : String} (target : String) (same : ¬ differ (Path.chain home source)) :
    Lockstep home differ (· = Path.chain home target) (copy source target) := by
  have look : Lockstep home differ (fun _ => False) (look (·.read source)) := by
    intro left one other inside alike
    rw [run_look, run_look, alike.read fun may => same (inside _ may)]
    exact .refl alike _
  exact .weaken (fun _ target => Or.inr (Or.inl target)) (.bind (.bind look fun _ => .pure _) fun _ =>
    .bind (lockstep_write target []) fun _ => .bind look fun data => lockstep_write target data)

end DiskAction

/-- An artifact is stored on both disks alike, if the file with its native methods is the same on both. -/
theorem Artifact.lockstep_save {home : List String} {differ : List String → Prop} {artifact : Artifact} (naming : Naming)
    (output : String) (same : ∀ source ∈ artifact.native, ¬ differ (Path.chain home source)) :
    Lockstep home differ (fun names => ∃ target ∈ artifact.targets output, names = Path.chain home target)
      (artifact.save naming output) := by
  unfold save
  cases native : artifact.native with
  | none =>
    have nothing : artifact.nativePath = none := by simp [nativePath, native]
    simp only
    refine .weaken ?_ (.bind ((DiskAction.lockstep_createFolders _).adapt _) fun _ =>
      .bind ((DiskAction.lockstep_write _ _).adapt _) fun _ => .pure _)
    rintro names ⟨target, mem, rfl⟩
    rw [targets, nothing, Option.toList_none, List.map_nil, List.mem_singleton] at mem
    exact Or.inr (Or.inl (by rw [mem]))
  | some source =>
    obtain ⟨inner, beside⟩ : ∃ inner, artifact.nativePath = some inner := by simp [nativePath, native]
    simp only [beside]
    refine .weaken ?_ (.bind ((DiskAction.lockstep_createFolders _).adapt _) fun _ =>
      .bind ((DiskAction.lockstep_write _ _).adapt _) fun _ =>
        (DiskAction.lockstep_copy (Path.join output inner) (same source native)).adapt _)
    rintro names ⟨target, mem, rfl⟩
    rw [targets, beside, Option.toList_some, List.map_singleton, List.mem_pair] at mem
    rcases mem with rfl | rfl
    · exact Or.inr (Or.inl rfl)
    · exact Or.inr (Or.inr rfl)

end JvmUnits
