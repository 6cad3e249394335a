import JvmUnits.Proofs.ClassErrors
import JvmUnits.Proofs.PrefixFree
import JvmUnits.Proofs.ReadValues

/-!
# Slots of the constant pool

Slot zero of a constant pool and the slot after a `long` or a `double` hold nothing (`IsPhantom`). The reader fills a pool slot by
slot and looks at the entry that it has put last (`Reader.fill`), while a lookup asks for the entry of the slot before. Both mean
the same slots: in the pool of a class file that has been read, the filler stands exactly in the phantom slots (`IsFilled`).

So what a lookup gives comes from entries that are really there (`Pool.Has`), on each of the up to three steps from index to index
(`Pool.ClassAt`, `Pool.MemberAt`, `Pool.LoadableAt`), and a phantom slot is refused as such, also behind the last entry. The main
result is `ClassFile.lookups_of_parse`.
-/

namespace JvmUnits

/-! ## The reader -/

/-- The slot is zero, or an entry of two slots stands in the slot before it. -/
def IsPhantom (entries : List Constant) (slot : Nat) : Prop :=
  slot = 0 ∨ ∃ before entry, slot = before + 1 ∧ entries[before]? = some entry ∧ entry.isWide = true

/-- The filler stands in the phantom slots and in no other. -/
def IsFilled (entries : List Constant) : Prop :=
  ∀ slot entry, entries[slot]? = some entry → (entry = .unused ↔ IsPhantom entries slot)

/-- Whether slots are phantoms does not depend on what stands behind them. -/
theorem isPhantom_append_iff {entries more : List Constant} {slot : Nat} (inside : slot ≤ entries.length) :
    IsPhantom (entries ++ more) slot ↔ IsPhantom entries slot := by
  refine or_congr_right (exists_congr fun before => exists_congr fun entry => and_congr_right fun behind => ?_)
  rw [List.getElem?_append_left (by omega)]

/-- One more slot keeps a pool filled, if it gets the filler exactly where it is a phantom. -/
theorem IsFilled.concat {entries : List Constant} (filled : IsFilled entries) {next : Constant}
    (right : next = .unused ↔ IsPhantom entries entries.length) : IsFilled (entries ++ [next]) := by
  intro slot entry held
  by_cases inside : slot < entries.length
  · rw [List.getElem?_append_left inside] at held
    rw [isPhantom_append_iff (Nat.le_of_lt inside)]
    exact filled slot entry held
  · have bound : slot < (entries ++ [next]).length := (List.getElem?_eq_some_iff.mp held).1
    obtain rfl : slot = entries.length := by
      rw [List.length_append, List.length_singleton] at bound
      omega
    rw [List.getElem?_concat_length] at held
    cases held
    rwa [isPhantom_append_iff (Nat.le_refl _)]

/-- The slot behind all entries is a phantom where there are none yet, or the last one is wide. -/
theorem isPhantom_length_iff {entries : List Constant} :
    IsPhantom entries entries.length ↔ entries.getLast?.all Constant.isWide = true := by
  rcases List.eq_nil_or_concat entries with rfl | ⟨front, last, rfl⟩
  · exact ⟨fun _ => rfl, fun _ => .inl rfl⟩
  · rw [List.concat_eq_append, List.getLast?_concat, Option.all_some, List.length_append, List.length_singleton]
    constructor
    · rintro (none | ⟨before, entry, same, held, wide⟩)
      · cases none
      · obtain rfl : before = front.length := by omega
        rw [List.getElem?_concat_length] at held
        cases held
        exact wide
    · intro wide
      exact .inr ⟨front.length, last, rfl, List.getElem?_concat_length, wide⟩

namespace Reader

/-- Fills slots behind the given ones: the first of all and the one behind a wide entry with the filler, all others with
entries that are read. -/
def fill : Nat → List Constant → Reader (List Constant)
  | 0, entries => pure entries
  | count + 1, entries =>
    if entries.getLast?.all Constant.isWide then fill count (entries ++ [.unused])
    else do
      let entry ← constant
      fill count (entries ++ [entry])

theorem fill_of_wide (count : Nat) (entries : List Constant) {last : Constant} (wide : last.isWide = true) :
    fill (count + 1) (entries ++ [last]) = fill count (entries ++ [last] ++ [.unused]) := by
  rw [fill, List.getLast?_concat, Option.all_some, if_pos wide]

/-- Behind a constant of one slot comes the next constant. -/
theorem fill_of_narrow (count : Nat) (entries : List Constant) {last : Constant} (narrow : last.isWide = false) :
    fill (count + 1) (entries ++ [last]) = (do
      let entry ← constant
      fill count (entries ++ [last] ++ [entry])) := by
  rw [fill, List.getLast?_concat, Option.all_some, narrow]
  rfl

/-- Behind an entry of one slot the reader goes on as if it knew what comes. -/
theorem fill_eq_slots (count : Nat) (entries : List Constant) {last : Constant} (narrow : last.isWide = false) :
    fill count (entries ++ [last]) = (do
      let more ← slots count
      pure (entries ++ [last] ++ more)) := by
  induction count using slots.induct generalizing entries last with
  | case1 => simp [fill, slots]
  | case2 =>
    rw [fill_of_narrow 0 entries narrow, slots, bind_assoc]
    simp only [fill, pure_bind]
  | case3 count single pair =>
    rw [fill_of_narrow (count + 1) entries narrow, slots, bind_assoc]
    refine bind_congr fun entry => ?_
    -- Behind a wide entry comes the filler, which is not wide itself, so both cases end behind an entry of one slot.
    by_cases wide : entry.isWide = true
    · rw [if_pos wide, fill_of_wide count _ wide, single _ rfl, bind_assoc]
      simp only [pure_bind, List.append_assoc, List.cons_append, List.nil_append]
    · rw [if_neg wide, pair _ (Bool.eq_false_of_not_eq_true wide), bind_assoc]
      simp only [pure_bind, List.append_assoc, List.cons_append, List.nil_append]

/-- The reader of the pool fills as many slots as the pool counts. -/
theorem pool_eq_fill : Reader.pool = (do
    let count ← u2
    let entries ← fill count.toNat []
    pure ⟨entries.toArray⟩) := by
  refine bind_congr fun count => ?_
  by_cases none : count = 0
  · subst none
    rfl
  · obtain ⟨rest, size⟩ : ∃ rest, count.toNat = rest + 1 :=
      Nat.exists_eq_succ_of_ne_zero fun zero => none (UInt16.toNat_inj.mp zero)
    have first : fill (rest + 1) [] = fill rest ([] ++ [.unused]) := rfl
    rw [if_neg none, size, first, fill_eq_slots rest [] rfl, bind_assoc]
    simp only [pure_bind, List.nil_append, List.singleton_append, Nat.add_sub_cancel]

/-- What is read is never the filler. -/
theorem gives_constant : Gives constant fun entry => entry ≠ .unused := by
  refine .after fun tag => ?_
  -- Each tag makes an entry of its own kind, after one field of it or after two.
  split
  all_goals first
    | exact .map .any fun field _ => by simp
    | exact .after fun field => .pure (by simp)
    | exact .after fun first => .after fun second => .pure (by simp)
    | exact .error _

/-- Filling keeps a pool filled. -/
theorem gives_fill (count : Nat) {entries : List Constant} (filled : IsFilled entries) : Gives (fill count entries) IsFilled := by
  induction count generalizing entries with
  | zero => exact .pure filled
  | succ count ih =>
    unfold fill
    by_cases phantom : entries.getLast?.all Constant.isWide = true
    · rw [if_pos phantom]
      exact ih (filled.concat ⟨fun _ => isPhantom_length_iff.mpr phantom, fun _ => rfl⟩)
    · rw [if_neg phantom]
      refine gives_constant.bind fun entry real => ih (filled.concat ?_)
      exact ⟨fun same => absurd same real, fun known => absurd (isPhantom_length_iff.mp known) phantom⟩

/-- The pool of a class file is filled. -/
theorem gives_pool : Gives Reader.pool fun pool => IsFilled pool.entries.toList := by
  have none : IsFilled [] := fun slot entry held => by cases held
  rw [pool_eq_fill]
  exact .after fun count => (gives_fill count.toNat none).bind fun entries filled => .pure filled

/-- The pool of a layout is the one that has been read first. -/
theorem gives_filledLayout (depth : Nat) : Gives (classLayout depth) fun layout => IsFilled layout.pool.entries.toList := by
  rw [classLayout_eq]
  have body (entries : Pool) (filled : IsFilled entries.entries.toList) :
      Gives (classBody entries depth) fun layout => IsFilled layout.pool.entries.toList :=
    .after fun _ => .after fun _ => .after fun _ => .after fun _ => .after fun _ => .after fun _ => .after fun _ => .pure filled
  exact .after fun opening => .ite (.after fun _ => .after fun _ => gives_pool.bind body) (.after fun _ => gives_pool.bind body)

end Reader

namespace ClassFile

/-- The pool stays as it was read. -/
theorem pool_of_resolve {layout : ClassLayout} {file : ClassFile} (resolved : resolve layout = .ok file) :
    file.pool = layout.pool := by
  obtain ⟨name, _, resolved⟩ := bind_eq_ok.mp resolved
  obtain ⟨superName, _, resolved⟩ := bind_eq_ok.mp resolved
  obtain ⟨interfaces, _, resolved⟩ := bind_eq_ok.mp resolved
  obtain ⟨fields, _, resolved⟩ := bind_eq_ok.mp resolved
  obtain ⟨methods, _, resolved⟩ := bind_eq_ok.mp resolved
  cases resolved
  rfl

/-- The pool of a class that is parsed is filled. -/
theorem filled_of_parse {bytes : Bytes} {file : ClassFile} (parsed : parse bytes = .ok file) :
    IsFilled file.pool.entries.toList := by
  obtain ⟨layout, read, resolved⟩ := exists_layout_of_parse parsed
  rw [pool_of_resolve resolved]
  exact Reader.gives_filledLayout _ _ _ _ (ClassLayout.read_eq_ok_iff.mp read)

end ClassFile

/-! ## Lookups -/

namespace Constant

/-- The entry is loaded as a value of its own. -/
def isValue : Constant → Bool
  | string _ | integer _ | float _ | long _ | double _ | classRef _ => true
  | _ => false

/-- Apart from the filler, only modules and packages are of no use at all. -/
theorem kind_eq_unusable_iff {entry : Constant} (real : entry ≠ .unused) :
    entry.kind = "unusable" ↔ ∃ nameIndex, entry = .moduleRef nameIndex ∨ entry = .packageRef nameIndex := by
  cases entry with
  | unused => exact absurd rfl real
  | _ => simp [kind]

end Constant

namespace Pool

/-- An entry that is not the filler stands at the index, and the slot is no phantom. -/
structure Has (pool : Pool) (index : UInt16) (entry : Constant) : Prop where
  held : pool.entries.toList[index.toNat]? = some entry
  real : entry ≠ .unused
  usable : ¬ IsPhantom pool.entries.toList index.toNat

/-- The index leads to a class of the name. -/
def ClassAt (pool : Pool) (index : UInt16) (name : String) : Prop :=
  ∃ nameIndex, pool.Has index (.classRef nameIndex) ∧ pool.Has nameIndex (.utf8 name)

/-- The index leads to a name and a descriptor. -/
def NameAndTypeAt (pool : Pool) (index : UInt16) (name descriptor : String) : Prop :=
  ∃ nameIndex descriptorIndex, pool.Has index (.nameAndType nameIndex descriptorIndex) ∧
    pool.Has nameIndex (.utf8 name) ∧ pool.Has descriptorIndex (.utf8 descriptor)

/-- Two indices lead to the class of a member and to its name and descriptor. -/
structure Names (pool : Pool) (classIndex nameAndTypeIndex : UInt16) (found : MemberRef) : Prop where
  owner : pool.ClassAt classIndex found.owner
  member : pool.NameAndTypeAt nameAndTypeIndex found.name found.descriptor

/-- The index leads to a field or a method. -/
inductive MemberAt (pool : Pool) (index : UInt16) (found : MemberRef) : Prop
  | field (c n : UInt16) (entry : pool.Has index (.fieldRef c n)) (names : pool.Names c n found)
      (outside : found.inInterface = false)
  | method (c n : UInt16) (entry : pool.Has index (.methodRef c n)) (names : pool.Names c n found)
      (outside : found.inInterface = false)
  | interfaceMethod (c n : UInt16) (entry : pool.Has index (.interfaceMethodRef c n)) (names : pool.Names c n found)
      (inside : found.inInterface = true)

/-- The index leads to a constant that is loaded as the value. -/
inductive LoadableAt (pool : Pool) (index : UInt16) : Loadable → Prop
  | string (textIndex : UInt16) (text : String) (entry : pool.Has index (.string textIndex))
      (written : pool.Has textIndex (.utf8 text)) : LoadableAt pool index (.string text)
  | integer (value : Int) (entry : pool.Has index (.integer value)) : LoadableAt pool index (.integer value)
  | float (word : UInt32) (entry : pool.Has index (.float word)) : LoadableAt pool index (.float word)
  | long (value : Int) (entry : pool.Has index (.long value)) : LoadableAt pool index (.long value)
  | double (word : UInt64) (entry : pool.Has index (.double word)) : LoadableAt pool index (.double word)
  | classRef (nameIndex : UInt16) (name : String) (entry : pool.Has index (.classRef nameIndex))
      (written : pool.Has nameIndex (.utf8 name)) : LoadableAt pool index (.classRef name)
  | other (constant : Constant) (entry : pool.Has index constant) (plain : constant.isValue = false) :
      LoadableAt pool index (.other constant.kind)

/-- A lookup asks for the phantoms that the reader fills. -/
theorem isUnusable_iff {pool : Pool} {slot : Nat} : pool.isUnusable slot = true ↔ IsPhantom pool.entries.toList slot := by
  cases slot with
  | zero => exact ⟨fun _ => .inl rfl, fun _ => rfl⟩
  | succ before =>
    have here : pool.isUnusable (before + 1) = pool.entries.toList[before]?.any Constant.isWide := by
      rw [Array.getElem?_toList, isUnusable]
      cases pool.entries[before]? <;> rfl
    rw [here, Option.any_eq_true]
    constructor
    · rintro ⟨entry, held, wide⟩
      exact .inr ⟨before, entry, rfl, held, wide⟩
    · rintro (none | ⟨_, entry, same, held, wide⟩)
      · cases none
      · cases same
        exact ⟨entry, held, wide⟩

section

variable {pool : Pool} {index : UInt16}

/-- A slot that is no constant of its own is refused. -/
theorem get_of_isPhantom (phantom : IsPhantom pool.entries.toList index.toNat) :
    pool.get index = .error (.malformedClassFile (.unusableIndex index)) := by
  rw [get, if_pos (isUnusable_iff.mpr phantom)]

/-- Any other slot is looked up in the list of entries. -/
theorem get_of_not_isPhantom (usable : ¬ IsPhantom pool.entries.toList index.toNat) :
    pool.get index =
      pool.entries.toList[index.toNat]?.elim (.error (.malformedClassFile (.invalidIndex index))) Except.ok := by
  rw [get, if_neg (usable ∘ isUnusable_iff.mp), Array.getElem?_toList]
  cases pool.entries[index.toNat]? <;> rfl

variable (filled : IsFilled pool.entries.toList)

include filled

/-- A lookup finds what really stands at its index. -/
theorem get_eq_ok_iff {entry : Constant} : pool.get index = .ok entry ↔ pool.Has index entry := by
  constructor
  · intro found
    have usable : ¬ IsPhantom pool.entries.toList index.toNat := by
      intro phantom
      rw [get_of_isPhantom phantom] at found
      cases found
    have held : pool.entries.toList[index.toNat]? = some entry := by
      rw [get_of_not_isPhantom usable] at found
      cases there : pool.entries.toList[index.toNat]? with
      | none =>
        rw [there] at found
        cases found
      | some other =>
        rw [there] at found
        cases found
        rfl
    exact ⟨held, fun filler => usable ((filled _ _ held).mp filler), usable⟩
  · rintro ⟨held, _, usable⟩
    rw [get_of_not_isPhantom usable, held]
    rfl

/-- A lookup goes on where the slot has a constant. -/
theorem bind_get_eq_ok_iff {α : Type} {next : Constant → Except Error α} {found : α} :
    (pool.get index >>= next) = .ok found ↔ ∃ entry, pool.Has index entry ∧ next entry = .ok found := by
  rw [bind_eq_ok]
  exact exists_congr fun entry => and_congr_left fun _ => get_eq_ok_iff filled

/-- A text is found where the slot has one. -/
theorem text_eq_ok_iff {text : String} : pool.text index = .ok text ↔ pool.Has index (.utf8 text) := by
  rw [Pool.text, bind_get_eq_ok_iff filled]
  constructor
  · rintro ⟨entry, has, found⟩
    cases entry with
    | utf8 value =>
      cases found
      exact has
    | _ => cases found
  · intro has
    exact ⟨_, has, rfl⟩

/-- A class is found where the slot has one and the name of it is found. -/
theorem className_eq_ok_iff {name : String} : pool.className index = .ok name ↔ pool.ClassAt index name := by
  rw [className, bind_get_eq_ok_iff filled]
  constructor
  · rintro ⟨entry, has, found⟩
    cases entry with
    | classRef nameIndex => exact ⟨nameIndex, has, (text_eq_ok_iff filled).mp found⟩
    | _ => cases found
  · rintro ⟨nameIndex, has, written⟩
    exact ⟨_, has, (text_eq_ok_iff filled).mpr written⟩

/-- A name with a type is found where both texts are. -/
theorem nameAndType_eq_ok_iff {name descriptor : String} :
    pool.nameAndType index = .ok (name, descriptor) ↔ pool.NameAndTypeAt index name descriptor := by
  rw [nameAndType, bind_get_eq_ok_iff filled]
  constructor
  · rintro ⟨entry, has, found⟩
    cases entry with
    | nameAndType nameIndex descriptorIndex =>
      obtain ⟨first, named, found⟩ := bind_eq_ok.mp found
      obtain ⟨second, described, found⟩ := bind_eq_ok.mp found
      cases found
      exact ⟨nameIndex, descriptorIndex, has, (text_eq_ok_iff filled).mp named, (text_eq_ok_iff filled).mp described⟩
    | _ => cases found
  · rintro ⟨nameIndex, descriptorIndex, has, named, described⟩
    refine ⟨_, has, bind_eq_ok.mpr ⟨name, (text_eq_ok_iff filled).mpr named, ?_⟩⟩
    exact bind_eq_ok.mpr ⟨descriptor, (text_eq_ok_iff filled).mpr described, rfl⟩

/-- A member is found where its class and its name with its type are. -/
theorem member_eq_ok_iff {c n : UInt16} {inInterface : Bool} {found : MemberRef} :
    pool.member c n inInterface = .ok found ↔ pool.Names c n found ∧ found.inInterface = inInterface := by
  constructor
  · intro resolved
    obtain ⟨owner, owned, resolved⟩ := bind_eq_ok.mp resolved
    obtain ⟨⟨name, descriptor⟩, named, resolved⟩ := bind_eq_ok.mp resolved
    cases resolved
    exact ⟨⟨(className_eq_ok_iff filled).mp owned, (nameAndType_eq_ok_iff filled).mp named⟩, rfl⟩
  · rintro ⟨⟨owned, named⟩, rfl⟩
    refine bind_eq_ok.mpr ⟨found.owner, (className_eq_ok_iff filled).mpr owned, ?_⟩
    exact bind_eq_ok.mpr ⟨(found.name, found.descriptor), (nameAndType_eq_ok_iff filled).mpr named, rfl⟩

/-- A reference to a member is found where the slot has one, of any of the three kinds. -/
theorem memberRef_eq_ok_iff {found : MemberRef} : pool.memberRef index = .ok found ↔ pool.MemberAt index found := by
  rw [memberRef, bind_get_eq_ok_iff filled]
  constructor
  · rintro ⟨entry, has, resolved⟩
    cases entry with
    | fieldRef c n =>
      obtain ⟨names, outside⟩ := (member_eq_ok_iff filled).mp resolved
      exact .field c n has names outside
    | methodRef c n =>
      obtain ⟨names, outside⟩ := (member_eq_ok_iff filled).mp resolved
      exact .method c n has names outside
    | interfaceMethodRef c n =>
      obtain ⟨names, inside⟩ := (member_eq_ok_iff filled).mp resolved
      exact .interfaceMethod c n has names inside
    | _ => cases resolved
  · rintro (⟨c, n, has, names, side⟩ | ⟨c, n, has, names, side⟩ | ⟨c, n, has, names, side⟩)
    all_goals exact ⟨_, has, (member_eq_ok_iff filled).mpr ⟨names, side⟩⟩

/-- A constant that can be loaded is found where the slot has one. -/
theorem loadable_eq_ok_iff {value : Loadable} : pool.loadable index = .ok value ↔ pool.LoadableAt index value := by
  rw [loadable, bind_get_eq_ok_iff filled]
  constructor
  · rintro ⟨entry, has, found⟩
    cases entry with
    | string textIndex =>
      obtain ⟨text, written, found⟩ := bind_eq_ok.mp found
      cases found
      exact .string textIndex text has ((text_eq_ok_iff filled).mp written)
    | classRef nameIndex =>
      obtain ⟨name, written, found⟩ := bind_eq_ok.mp found
      cases found
      exact .classRef nameIndex name has ((text_eq_ok_iff filled).mp written)
    | integer value => cases found; exact .integer value has
    | float word => cases found; exact .float word has
    | long value => cases found; exact .long value has
    | double word => cases found; exact .double word has
    | _ => cases found; exact .other _ has rfl
  · intro leads
    cases leads with
    | string textIndex text has written =>
      exact ⟨_, has, bind_eq_ok.mpr ⟨text, (text_eq_ok_iff filled).mpr written, rfl⟩⟩
    | classRef nameIndex name has written =>
      exact ⟨_, has, bind_eq_ok.mpr ⟨name, (text_eq_ok_iff filled).mpr written, rfl⟩⟩
    | other constant has plain =>
      refine ⟨constant, has, ?_⟩
      cases constant with
      | string | integer | float | long | double | classRef => cases plain
      | _ => rfl
    | _ => exact ⟨_, ‹_›, rfl⟩

/-- What can not be used is found as such: modules and packages. -/
theorem loadable_unusable_iff :
    pool.loadable index = .ok (.other "unusable") ↔
      ∃ nameIndex, pool.Has index (.moduleRef nameIndex) ∨ pool.Has index (.packageRef nameIndex) := by
  constructor
  · intro found
    generalize kind : "unusable" = word at found
    cases (loadable_eq_ok_iff filled).mp found with
    | other constant has plain =>
      obtain ⟨nameIndex, rfl | rfl⟩ := (Constant.kind_eq_unusable_iff has.real).mp kind.symm
      · exact ⟨nameIndex, .inl has⟩
      · exact ⟨nameIndex, .inr has⟩
  · rintro ⟨nameIndex, has | has⟩
    · exact (loadable_eq_ok_iff filled).mpr (.other _ has rfl)
    · exact (loadable_eq_ok_iff filled).mpr (.other _ has rfl)

end

/-- All lookups at the index fail alike. -/
structure Refuses (pool : Pool) (index : UInt16) (e : Error) : Prop where
  text : pool.text index = .error e
  className : pool.className index = .error e
  memberRef : pool.memberRef index = .error e
  loadable : pool.loadable index = .error e

/-- No lookup gets past a slot that is no constant of its own. -/
theorem refuses_of_isPhantom {pool : Pool} {index : UInt16} (phantom : IsPhantom pool.entries.toList index.toNat) :
    pool.Refuses index (.malformedClassFile (.unusableIndex index)) := by
  have refused := get_of_isPhantom phantom
  constructor
  · rw [text, refused]
    rfl
  · rw [className, refused]
    rfl
  · rw [memberRef, refused]
    rfl
  · rw [loadable, refused]
    rfl

/-- What the lookups at an index give: just what real entries say, and for all else an error of the class file. -/
structure LooksUp (pool : Pool) (index : UInt16) : Prop where
  text : ∀ text, pool.text index = .ok text ↔ pool.Has index (.utf8 text)
  className : ∀ name, pool.className index = .ok name ↔ pool.ClassAt index name
  memberRef : ∀ found, pool.memberRef index = .ok found ↔ pool.MemberAt index found
  loadable : ∀ value, pool.loadable index = .ok value ↔ pool.LoadableAt index value
  unusable : pool.loadable index = .ok (.other "unusable") ↔
    ∃ nameIndex, pool.Has index (.moduleRef nameIndex) ∨ pool.Has index (.packageRef nameIndex)
  phantom : IsPhantom pool.entries.toList index.toNat → pool.Refuses index (.malformedClassFile (.unusableIndex index))
  malformed : ∀ e, pool.text index = .error e ∨ pool.className index = .error e ∨ pool.memberRef index = .error e ∨
    pool.loadable index = .error e → e.isMalformed = true

end Pool

/-- In a class file that has been read, the filler stands exactly in slot zero and after wide entries, and no lookup gives anything
that is reached through such a slot. -/
theorem ClassFile.lookups_of_parse {bytes : Bytes} {file : ClassFile} (parsed : parse bytes = .ok file) :
    IsFilled file.pool.entries.toList ∧ ∀ index, file.pool.LooksUp index := by
  have filled := filled_of_parse parsed
  refine ⟨filled, fun index => ?_⟩
  constructor
  case text => exact fun _ => Pool.text_eq_ok_iff filled
  case className => exact fun _ => Pool.className_eq_ok_iff filled
  case memberRef => exact fun _ => Pool.memberRef_eq_ok_iff filled
  case loadable => exact fun _ => Pool.loadable_eq_ok_iff filled
  case unusable => exact Pool.loadable_unusable_iff filled
  case phantom => exact Pool.refuses_of_isPhantom
  case malformed =>
    rintro e (failed | failed | failed | failed)
    · exact file.pool.reports_text index e failed
    · exact file.pool.reports_className index e failed
    · exact file.pool.reports_memberRef index e failed
    · exact file.pool.reports_loadable index e failed

namespace WideEnd

/-- Two wide entries follow each other, and the pool ends with a third one that has but one slot left. -/
def bytes : Bytes :=
  [0xca, 0xfe, 0xba, 0xbe, 0, 0, 0, 0x41, 0, 11,
    1, 0, 1, 0x41,
    7, 0, 1,
    5, 0, 0, 0, 0, 0, 0, 0, 7,
    6, 0x3f, 0xf0, 0, 0, 0, 0, 0, 0,
    19, 0, 1,
    12, 0, 1, 0, 1,
    9, 0, 2, 0, 8,
    5, 0, 0, 0, 0, 0, 0, 0, 9,
    0, 0, 0, 2, 0, 0, 0, 0, 0, 0, 0, 0, 0, 0]

def file : ClassFile where
  pool := ⟨#[.unused, .utf8 "A", .classRef 1, .long 7, .unused, .double 0x3ff0000000000000, .unused, .moduleRef 1,
    .nameAndType 1 1, .fieldRef 2 8, .long 9]⟩
  name := "A"
  superName := none
  interfaces := []
  fields := []
  methods := []

/-- Second slots are refused, also the one behind the last entry; what is really there is found. -/
theorem lookups_wide : ClassFile.parse bytes = .ok file ∧ file.pool.entries.size = 11 ∧
    file.pool.Refuses 6 (.malformedClassFile (.unusableIndex 6)) ∧
    file.pool.Refuses 11 (.malformedClassFile (.unusableIndex 11)) ∧
    file.pool.MemberAt 9 ⟨"A", "A", "A", false⟩ ∧ file.pool.LoadableAt 10 (.long 9) ∧
    ∃ nameIndex, file.pool.Has 7 (.moduleRef nameIndex) ∨ file.pool.Has 7 (.packageRef nameIndex) := by
  have parsed : ClassFile.parse bytes = .ok file := by decide +kernel
  obtain ⟨_, looks⟩ := ClassFile.lookups_of_parse parsed
  exact ⟨parsed, rfl, (looks 6).phantom (Pool.isUnusable_iff.mp rfl), (looks 11).phantom (Pool.isUnusable_iff.mp rfl),
    ((looks 9).memberRef _).mp (by decide +kernel), ((looks 10).loadable _).mp (by decide +kernel),
    (looks 7).unusable.mp (by decide +kernel)⟩

end WideEnd

end JvmUnits
