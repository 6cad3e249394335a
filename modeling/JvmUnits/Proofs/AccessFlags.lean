import JvmUnits.Proofs.ClassErrors
import JvmUnits.Proofs.PrefixFree
import JvmUnits.Proofs.ReadValues
import JvmUnits.Proofs.VoidTypes

/-!
# Access flags are conserved

A flag word is the sum of the flags of its site that it holds and of what is left over, and what is left over are its bits
outside the table of the site. So a word is decomposed exactly when it has no such bits, and then the flags that are listed add
up to it.

A class file that has been read has none: the reader keeps of a word only the bits in the table of its site. This holds of every
field, method and parameter (`ClassFile.known_of_parse`), so no such class fails to be translated because of its flags, and all
lists of flags in its unit add up to the words that the class file gives.
-/

namespace JvmUnits

open Mentioning

/-! ## Bits of a number -/

/-- A bit that is set is no more than the number. -/
theorem shiftLeft_le_of_testBit {word position : Nat} (set : word.testBit position = true) : 1 <<< position ≤ word := by
  induction position generalizing word with
  | zero =>
    have nonzero : word ≠ 0 := by
      rintro rfl
      simp at set
    exact Nat.one_le_iff_ne_zero.mpr nonzero
  | succ position ih =>
    rw [Nat.testBit_succ] at set
    have half := ih set
    rw [Nat.shiftLeft_succ]
    omega

/-- Taking away a bit that is set clears it, and leaves all others as they are. -/
theorem testBit_sub_shiftLeft {word position : Nat} (set : word.testBit position = true) (i : Nat) :
    (word - 1 <<< position).testBit i = (word.testBit i && !decide (i = position)) := by
  -- a bit above the lowest is one of the half of the word, and so is the bit that is taken away
  induction position generalizing word i with
  | zero =>
    have odd : word % 2 = 1 := by simpa using set
    cases i with
    | zero =>
      have even : (word - 1) % 2 = 0 := by omega
      simp [even]
    | succ i =>
      have half : (word - 1) / 2 = word / 2 := by omega
      simp [Nat.testBit_succ, half]
  | succ position ih =>
    rw [Nat.testBit_succ] at set
    have within := shiftLeft_le_of_testBit set
    rw [Nat.shiftLeft_succ]
    cases i with
    | zero =>
      have same : (word - 2 * 1 <<< position) % 2 = word % 2 := by omega
      simp [same]
    | succ i =>
      have half : (word - 2 * 1 <<< position) / 2 = word / 2 - 1 <<< position := by omega
      simp [Nat.testBit_succ, half, ih set i]

namespace AccessFlag

/-- The word that has just the flags listed, if each is listed once. -/
def sum (flags : List AccessFlag) : Nat := flags.foldr (fun flag rest => flag.bits + rest) 0

/-- A flag at a higher position has a greater value. -/
theorem bits_lt_of_position_lt {first second : AccessFlag} (less : first.position < second.position) :
    first.bits < second.bits := by
  unfold bits
  rw [Nat.one_shiftLeft, Nat.one_shiftLeft]
  exact Nat.pow_lt_pow_right (by decide) less

/-- The flags that are still to be taken away are not affected by the first. -/
theorem held_of_cons {flag : AccessFlag} {rest : List AccessFlag} {word : Nat}
    (distinct : ((flag :: rest).map position).Nodup) (held : ∀ each ∈ flag :: rest, word.testBit each.position = true) :
    ∀ later ∈ rest, (word - flag.bits).testBit later.position = true := by
  intro later mem
  have differs : later.position ≠ flag.position := by
    intro same
    exact (List.nodup_cons.mp distinct).1 (same ▸ List.mem_map_of_mem mem)
  rw [bits, testBit_sub_shiftLeft (held flag List.mem_cons_self), held later (List.mem_cons_of_mem _ mem)]
  simp [differs]

section

variable {flags : List AccessFlag} {word : Nat} (distinct : (flags.map position).Nodup)
  (held : ∀ flag ∈ flags, word.testBit flag.position = true)

include distinct held

/-- Flags that a word holds add up to the word with what is left when they are taken away. -/
theorem sum_add_foldl : sum flags + flags.foldl (fun rest flag => rest - flag.bits) word = word := by
  induction flags generalizing word with
  | nil => exact Nat.zero_add word
  | cons flag rest ih =>
    have others := ih (List.nodup_cons.mp distinct).2 (held_of_cons distinct held)
    have within : flag.bits ≤ word := shiftLeft_le_of_testBit (held flag List.mem_cons_self)
    change flag.bits + sum rest + _ = word
    rw [List.foldl_cons]
    omega

/-- Taking away flags that a word holds clears their bits and no others. -/
theorem testBit_foldl (i : Nat) :
    (flags.foldl (fun rest flag => rest - flag.bits) word).testBit i = (word.testBit i && !decide (i ∈ flags.map position)) := by
  induction flags generalizing word with
  | nil => simp
  | cons flag rest ih =>
    rw [List.foldl_cons, ih (List.nodup_cons.mp distinct).2 (held_of_cons distinct held), bits,
      testBit_sub_shiftLeft (held flag List.mem_cons_self), List.map_cons, Bool.and_assoc]
    simp

end

end AccessFlag

/-! ## Decomposing a word -/

namespace AccessSite

/-- The table of a site lists flags from the lowest to the highest. -/
theorem ascending_table (site : AccessSite) : site.table.Pairwise fun first second => first.position < second.position := by
  cases site <;> decide

/-- The flags of a word are listed from the lowest to the highest. -/
theorem ascending_present (site : AccessSite) (word : Nat) :
    (site.present word).Pairwise fun first second => first.position < second.position :=
  site.ascending_table.sublist List.filter_sublist

theorem distinct_present (site : AccessSite) (word : Nat) : ((site.present word).map AccessFlag.position).Nodup :=
  List.pairwise_map.mpr ((site.ascending_present word).imp Nat.ne_of_lt)

/-- The flags of a word are those that it holds. -/
theorem held_of_mem_present {site : AccessSite} {word : Nat} :
    ∀ flag ∈ site.present word, word.testBit flag.position = true := by
  intro flag mem
  exact (List.mem_filter.mp mem).2

/-- The flags of a word and what is left over make up the word. -/
theorem sum_present_add_leftover (site : AccessSite) (word : Nat) :
    AccessFlag.sum (site.present word) + site.leftover word = word :=
  AccessFlag.sum_add_foldl (site.distinct_present word) held_of_mem_present

/-- What is left over are the bits outside the table. -/
theorem testBit_leftover (site : AccessSite) (word i : Nat) :
    (site.leftover word).testBit i = (word.testBit i && !decide (i ∈ site.table.map AccessFlag.position)) := by
  rw [leftover, AccessFlag.testBit_foldl (site.distinct_present word) held_of_mem_present]
  -- of the table, the flags that are present are those whose bits are set, so for a bit that is set they are alike
  by_cases set : word.testBit i = true
  · have listed : i ∈ (site.present word).map AccessFlag.position ↔ i ∈ site.table.map AccessFlag.position := by
      simp only [List.mem_map, present, List.mem_filter]
      constructor
      · rintro ⟨flag, ⟨mem, _⟩, rfl⟩
        exact ⟨flag, mem, rfl⟩
      · rintro ⟨flag, mem, rfl⟩
        exact ⟨flag, ⟨mem, set⟩, rfl⟩
    simp only [listed]
  · simp [set]

/-- A word is decomposed exactly if nothing is left over, and gives the flags that it holds. -/
theorem decompose_eq_ok_iff {site : AccessSite} {word : Nat} {flags : List AccessFlag} :
    site.decompose word = .ok flags ↔ site.leftover word = 0 ∧ flags = site.present word := by
  unfold decompose
  dsimp only
  split
  · rename_i nothing
    simp [nothing, eq_comm]
  · rename_i something
    simp [something]

/-- A word is refused exactly if something is left over, and the error says what. -/
theorem decompose_eq_error_iff {site : AccessSite} {word : Nat} {e : Error} :
    site.decompose word = .error e ↔ site.leftover word ≠ 0 ∧ e = .corruptAccessFlags site word (site.leftover word) := by
  unfold decompose
  dsimp only
  split
  · rename_i nothing
    simp [nothing]
  · rename_i something
    simp [something, eq_comm]

/-- Flags that a word is decomposed into add up to it. -/
theorem sum_of_decompose {site : AccessSite} {word : Nat} {flags : List AccessFlag} (h : site.decompose word = .ok flags) :
    AccessFlag.sum flags = word := by
  obtain ⟨nothing, rfl⟩ := decompose_eq_ok_iff.mp h
  have whole := site.sum_present_add_leftover word
  omega

/-- All bits of the table. -/
def known (site : AccessSite) : UInt32 := site.table.foldr (fun flag rest => UInt32.ofNat flag.bits ||| rest) 0

/-- The bits of a word that are not in the table. -/
def outside (site : AccessSite) (word : UInt32) : UInt32 := word &&& ~~~site.known

/-- The bits that are known at a site are those of its table. -/
theorem testBit_known (site : AccessSite) :
    ∀ i < 32, site.known.toNat.testBit i = decide (i ∈ site.table.map AccessFlag.position) := by
  cases site <;> decide

/-- What is left over are the bits that are not known. -/
theorem toNat_outside (site : AccessSite) (word : UInt32) : (site.outside word).toNat = site.leftover word.toNat := by
  apply Nat.eq_of_testBit_eq
  intro i
  rw [testBit_leftover, outside, UInt32.toNat_and, Nat.testBit_and]
  by_cases small : i < 32
  · have flipped : (~~~site.known).toNat.testBit i = !site.known.toNat.testBit i := by
      change (~~~site.known.toBitVec).getLsbD i = !site.known.toBitVec.getLsbD i
      simp [small]
    rw [flipped, site.testBit_known i small]
  · have clear : word.toNat.testBit i = false := word.toBitVec.getLsbD_of_ge i (Nat.le_of_not_lt small)
    simp [clear]

/-! ## Words that are read -/

/-- The reader keeps only bits of the table. -/
theorem testBit_mask (site : AccessSite) :
    ∀ position < 16, site.mask.toNat.testBit position = true → position ∈ site.table.map AccessFlag.position := by
  cases site <;> decide

/-- Of the bits that the reader keeps, all are in the table. -/
theorem knows_and_mask (site : AccessSite) (word : UInt16) : site.Knows (word &&& site.mask) := by
  intro position small set
  rw [UInt16.toNat_and, Nat.testBit_and, Bool.and_eq_true] at set
  exact site.testBit_mask position small set.2

/-- Nothing is left over of a word whose bits are known. -/
theorem Knows.leftover {site : AccessSite} {word : UInt16} (known : site.Knows word) : site.leftover word.toNat = 0 := by
  apply Nat.eq_of_testBit_eq
  intro position
  rw [testBit_leftover, Nat.zero_testBit]
  by_cases small : position < 16
  · by_cases set : word.toNat.testBit position = true
    · simp [known position small set]
    · simp [set]
  · have clear : word.toNat.testBit position = false := word.toBitVec.getLsbD_of_ge position (Nat.le_of_not_lt small)
    simp [clear]

end AccessSite

/-- The flags of parameters that the attribute gives are known. -/
def Attribute.FlagsKnown : Attribute → Prop
  | parameters rows => ∀ row ∈ rows, AccessSite.parameter.Knows row.flags
  | _ => True

/-- The flags of a field or a method are known, and so are those of its parameters. -/
structure MemberLayout.FlagsKnown (site : AccessSite) (layout : MemberLayout) : Prop where
  own : site.Knows layout.flags
  attributes : ∀ part ∈ layout.attributes, part.FlagsKnown

/-- The flags of all fields and methods are known. -/
structure ClassLayout.FlagsKnown (layout : ClassLayout) : Prop where
  fields : ∀ field ∈ layout.fields, field.FlagsKnown .field
  methods : ∀ method ∈ layout.methods, method.FlagsKnown .method

namespace Reader

/-- A row that is read has flags that are known. -/
theorem gives_parameterRow : Gives parameterRow fun row => AccessSite.parameter.Knows row.flags :=
  .after fun _ => .after fun _ => .pure (AccessSite.parameter.knows_and_mask _)

/-- An attribute that is read has flags that are known, in every row of parameters. -/
theorem gives_attributeEntry (pool : Pool) (depth : Nat) : Gives (attributeEntry pool depth) Attribute.FlagsKnown := by
  cases depth with
  | zero =>
    intro bytes part rest read
    cases read
  | succ depth =>
    refine .after fun name => .after fun size => ?_
    split
    · exact Gives.any.map fun _ _ => trivial
    · exact .after fun _ => .after fun _ => .after fun _ => .after fun _ => .after fun _ => .pure trivial
    · exact Gives.any.map fun _ _ => trivial
    · exact Gives.map (.after fun count => gives_parameterRow.times _) fun _ known => known
    · exact Gives.any.map fun _ _ => trivial
    · exact .after fun _ => .pure trivial

/-- A member that is read has flags that are known, and so have its attributes. -/
theorem gives_member (site : AccessSite) (pool : Pool) (depth : Nat) :
    Gives (member site pool depth) (MemberLayout.FlagsKnown site) := by
  refine .after fun flags => .after fun _ => .after fun _ => .bind (.after fun count => ?_) fun parts known =>
    .pure ⟨site.knows_and_mask flags, known⟩
  exact (gives_attributeEntry pool depth).times _

/-- All members of a class that is read have flags that are known. -/
theorem gives_classBody (entries : Pool) (depth : Nat) : Gives (classBody entries depth) ClassLayout.FlagsKnown := by
  have members (site : AccessSite) : Gives (Reader.counted (member site entries depth))
      fun layouts => ∀ layout ∈ layouts, layout.FlagsKnown site :=
    .after fun count => (gives_member site entries depth).times _
  exact .after fun _ => .after fun _ => .after fun _ => .after fun _ =>
    .bind (members .field) fun _ fields => .bind (members .method) fun _ methods => .after fun _ => .pure ⟨fields, methods⟩

theorem gives_classLayout (depth : Nat) : Gives (classLayout depth) ClassLayout.FlagsKnown := by
  have behind : Gives (do skip 2; let entries ← Reader.pool; classBody entries depth) ClassLayout.FlagsKnown :=
    .after fun _ => .after fun entries => gives_classBody entries depth
  rw [classLayout_eq]
  exact .after fun opening => .ite (.after fun _ => behind) behind

end Reader

/-- The same holds of a whole class file. -/
theorem ClassLayout.known_of_read {bytes : Bytes} {layout : ClassLayout} (h : read bytes = .ok layout) :
    layout.FlagsKnown :=
  Reader.gives_classLayout bytes.length bytes layout [] (read_eq_ok_iff.mp h)

/-! ## Class files that are parsed -/

/-- The flags of a method and of its parameters are known. -/
structure MethodInfo.FlagsKnown (method : MethodInfo) : Prop where
  own : AccessSite.method.Knows method.flags
  parameters : ∀ row ∈ method.parameters, AccessSite.parameter.Knows row.flags

/-- All flags of a class are known. -/
structure ClassFile.FlagsKnown (file : ClassFile) : Prop where
  fields : ∀ field ∈ file.fields, AccessSite.field.Knows field.flags
  methods : ∀ method ∈ file.methods, method.FlagsKnown

/-- A parameter keeps the flags of its row. -/
theorem Pool.known_of_parameter {pool : Pool} {row : ParameterRow} (known : AccessSite.parameter.Knows row.flags)
    {parameter : Parameter} (resolved : pool.parameter row = .ok parameter) :
    AccessSite.parameter.Knows parameter.flags := by
  unfold Pool.parameter at resolved
  split at resolved
  · cases resolved
    exact known
  · obtain ⟨name, _, resolved⟩ := bind_eq_ok.mp resolved
    cases resolved
    exact known

/-- Parameters are added with the flags of their rows. -/
theorem MethodParts.known_of_add {pool : Pool} {part : Attribute} (flags : part.FlagsKnown) {before after : MethodParts}
    (known : ∀ row ∈ before.parameters, AccessSite.parameter.Knows row.flags) (added : before.add pool part = .ok after) :
    ∀ row ∈ after.parameters, AccessSite.parameter.Knows row.flags := by
  cases part with
  | code bytes handlers attributes =>
    obtain ⟨code, _, added⟩ := bind_eq_ok.mp added
    cases added
    exact known
  | exceptions classIndices =>
    obtain ⟨names, _, added⟩ := bind_eq_ok.mp added
    cases added
    exact known
  | parameters rows =>
    obtain ⟨more, resolved, added⟩ := bind_eq_ok.mp added
    cases added
    exact List.forall_mem_append.mpr ⟨known, forall_of_mapM (fun row mem _ => Pool.known_of_parameter (flags row mem)) resolved⟩
  | constantValue | localVariables | other =>
    cases added
    exact known

/-- A field keeps the flags that were read. -/
theorem FieldInfo.known_of_resolve {pool : Pool} {layout : MemberLayout} (flags : layout.FlagsKnown .field)
    {field : FieldInfo} (resolved : resolve pool layout = .ok field) : AccessSite.field.Knows field.flags := by
  obtain ⟨name, _, resolved⟩ := bind_eq_ok.mp resolved
  obtain ⟨descriptor, _, resolved⟩ := bind_eq_ok.mp resolved
  cases resolved
  exact flags.own

/-- A method keeps the flags that were read, and so do its parameters. -/
theorem MethodInfo.known_of_resolve {pool : Pool} {layout : MemberLayout} (flags : layout.FlagsKnown .method)
    {method : MethodInfo} (resolved : resolve pool layout = .ok method) : method.FlagsKnown := by
  obtain ⟨parts, folded, resolved⟩ := bind_eq_ok.mp resolved
  obtain ⟨name, _, resolved⟩ := bind_eq_ok.mp resolved
  obtain ⟨descriptor, _, resolved⟩ := bind_eq_ok.mp resolved
  cases resolved
  have step : ∀ part ∈ layout.attributes, ∀ before after : MethodParts,
      (∀ row ∈ before.parameters, AccessSite.parameter.Knows row.flags) → before.add pool part = .ok after →
      ∀ row ∈ after.parameters, AccessSite.parameter.Knows row.flags :=
    fun part mem _ _ => MethodParts.known_of_add (flags.attributes part mem)
  exact ⟨flags.own, invariant_foldlM step (by simp) folded⟩

namespace ClassFile

/-- A class keeps the flags of all its members. -/
theorem known_of_resolve {layout : ClassLayout} (flags : layout.FlagsKnown) {file : ClassFile}
    (resolved : resolve layout = .ok file) : file.FlagsKnown := by
  obtain ⟨name, _, resolved⟩ := bind_eq_ok.mp resolved
  obtain ⟨superName, _, resolved⟩ := bind_eq_ok.mp resolved
  obtain ⟨interfaces, _, resolved⟩ := bind_eq_ok.mp resolved
  obtain ⟨fields, fieldsFound, resolved⟩ := bind_eq_ok.mp resolved
  obtain ⟨methods, methodsFound, resolved⟩ := bind_eq_ok.mp resolved
  cases resolved
  exact ⟨forall_of_mapM (fun layout mem _ => FieldInfo.known_of_resolve (flags.fields layout mem)) fieldsFound,
    forall_of_mapM (fun layout mem _ => MethodInfo.known_of_resolve (flags.methods layout mem)) methodsFound⟩

/-- All flags of a class that has been read from its bytes are known. -/
theorem known_of_parse {bytes : Bytes} {file : ClassFile} (parsed : parse bytes = .ok file) : file.FlagsKnown := by
  obtain ⟨layout, read, resolved⟩ := exists_layout_of_parse parsed
  exact known_of_resolve (ClassLayout.known_of_read read) resolved

end ClassFile

/-! ## Translating -/

/-- The error is one of flags. -/
def Error.isOfFlags : Error → Bool
  | corruptAccessFlags _ _ _ => true
  | _ => false

/-- Neither errors of reading nor errors of operands are errors of flags. -/
theorem Error.common_not_isOfFlags : Error.Common fun e => !e.isOfFlags := by
  intro e known
  cases e with
  | corruptAccessFlags => rcases known with known | known <;> cases known
  | _ => rfl

/-- A word whose bits are known is decomposed without an error. -/
theorem AccessSite.Knows.reports {site : AccessSite} {word : UInt16} (known : site.Knows word) (kind : Error → Bool) :
    Reports kind (site.decompose word.toNat) := by
  rw [AccessSite.decompose_eq_ok_iff.mpr ⟨known.leftover, rfl⟩]
  exact .ok _

/-- A class whose flags are known is not refused for its flags. -/
theorem ClassFile.FlagsKnown.reports {file : ClassFile} (known : file.FlagsKnown) (naming : Naming) :
    Reports (fun e => !e.isOfFlags) (file.translate naming) := by
  refine ClassFile.reports_translate Error.common_not_isOfFlags (fun field mem => (known.fields field mem).reports _) ?_
  intro method mem
  obtain ⟨own, parameters⟩ := known.methods method mem
  exact ⟨own.reports _, fun _ => method.admits_events (fun row mem => (parameters row mem).reports _)
    fun _ _ _ _ _ _ opcode _ => Opcode.reports_mnemonic (fun _ => rfl) opcode⟩

/-- The flag word of a parameter. -/
def Event.flags? : Event → Option UInt16
  | parameter _ flags => some flags
  | _ => none

/-- The flags of the node of a parameter. -/
def Node.access? : Node → Option (List AccessFlag)
  | arg _ access => some access
  | _ => none

/-- A walk meets the parameters of its method and no others. -/
theorem Walk.flags_ofMethod (pool : Pool) (method : MethodInfo) :
    (ofMethod pool method).events.filterMap Event.flags? = method.parameters.map Parameter.flags := by
  have marks : ∀ event : Event, event.isMark = true → event.flags? = none := by
    intro event mark
    cases event with
    | parameter | instruction => cases mark
    | _ => rfl
  have parameters : (method.parameters.map fun row => Event.parameter row.name row.flags).filterMap Event.flags? =
      method.parameters.map Parameter.flags := by
    rw [List.filterMap_map]
    exact congrFun List.filterMap_eq_map _
  unfold ofMethod
  rw [events_after, List.filterMap_append, parameters]
  cases method.code with
  | none => exact List.append_nil _
  | some code =>
    rw [List.filterMap_eq_nil_iff.mpr (forall_ofCode marks fun _ _ _ _ => rfl), List.append_nil]

/-- Code has no flags. -/
theorem Node.access?_of_isCode {node : Node} (code : node.isCode = true) : node.access? = none := by
  cases node with
  | arg => cases code
  | _ => rfl

/-- Only a parameter becomes a node with flags, and these are the flags of its word. -/
theorem Event.access_of_becomes {naming : Naming} {event : Event} {node : Node} (h : event.Becomes naming node) :
    (∃ flags access, event.flags? = some flags ∧ node.access? = some access ∧
        AccessSite.parameter.decompose flags.toNat = .ok access) ∨
      event.flags? = none ∧ node.access? = none := by
  obtain ⟨names, made⟩ := h.translated
  cases made with
  | parameter decomposed => exact .inl ⟨_, _, rfl, rfl, decomposed⟩
  | instruction made => exact .inr ⟨rfl, Node.access?_of_isCode made.labels.2⟩
  | _ => exact .inr ⟨rfl, rfl⟩

/-- The flags of the parameters are decomposed one by one, in order. -/
theorem Event.forall₂_access_of_becomes {naming : Naming} {events : List Event} {nodes : List Node}
    (h : List.Forall₂ (Becomes naming) events nodes) :
    List.Forall₂ (fun flags access => AccessSite.parameter.decompose (UInt16.toNat flags) = .ok access)
      (events.filterMap Event.flags?) (nodes.filterMap Node.access?) := by
  induction h with
  | nil => exact .nil
  | cons first _ ih =>
    rcases access_of_becomes first with ⟨flags, access, given, listed, decomposed⟩ | ⟨given, listed⟩
    · rw [List.filterMap_cons_some given, List.filterMap_cons_some listed]
      exact .cons decomposed ih
    · rw [List.filterMap_cons_none given, List.filterMap_cons_none listed]
      exact ih

/-- The flags of a field are those of its word. -/
theorem FieldInfo.decompose_of_translate {naming : Naming} {pool : Pool} {field : FieldInfo} {names : List String}
    {unit : FieldUnit} (h : (field.translate naming pool).Yields names unit) :
    AccessSite.field.decompose field.flags.toNat = .ok unit.access := by
  obtain ⟨token, _, _, _, more, _⟩ := yields_bind.mp h
  obtain ⟨value, _, _, _, rest, _⟩ := yields_bind.mp more
  obtain ⟨access, _, _, decomposed, last, _⟩ := yields_bind.mp rest
  obtain ⟨-, rfl⟩ := yields_pure.mp last
  exact (yields_ofExcept.mp decomposed).2

/-- The flags of a method are those of its word. -/
theorem MethodInfo.decompose_of_translate {naming : Naming} {pool : Pool} {runtimeName : String} {method : MethodInfo}
    {names : List String} {unit : MethodUnit} (h : (method.translate naming pool runtimeName).Yields names unit) :
    AccessSite.method.decompose method.flags.toNat = .ok unit.access := by
  obtain ⟨signature, _, _, _, more, _⟩ := yields_bind.mp h
  obtain ⟨_, _, _, _, rest, _⟩ := yields_bind.mp more
  obtain ⟨access, _, _, decomposed, body, _⟩ := yields_bind.mp rest
  obtain ⟨implementation, _, _, _, last, _⟩ := yields_bind.mp body
  obtain ⟨-, rfl⟩ := yields_pure.mp last
  exact (yields_ofExcept.mp decomposed).2

namespace ClassFile

/-- Every list of flags in the unit adds up to the flag word of the field, the method or the parameter that it stands for. The
nodes of a method have one list for each of its parameters, in the same order. -/
structure FlagsConserved (file : ClassFile) (unit : ClassUnit) : Prop where
  fields : List.Forall₂ (fun field fieldUnit => AccessFlag.sum fieldUnit.access = field.flags.toNat) file.fields unit.fields
  methods : List.Forall₂ (fun method methodUnit => AccessFlag.sum methodUnit.access = method.flags.toNat)
    file.methods unit.methods
  parameters : List.Forall₂ (fun method methodUnit => ∀ nodes, methodUnit.implementation = .nodes nodes →
    List.Forall₂ (fun row access => AccessFlag.sum access = row.flags.toNat) method.parameters
      (nodes.filterMap Node.access?)) file.methods unit.methods

/-- A unit has the flags of its class, field by field and method by method. -/
theorem flagsConserved_of_translate {naming : Naming} {file : ClassFile} {unit : ClassUnit}
    (translated : file.translate naming = .ok unit) : file.FlagsConserved unit where
  fields := by
    refine (fields_of_translate translated).imp ?_
    rintro field fieldUnit ⟨_, yields⟩
    exact AccessSite.sum_of_decompose (FieldInfo.decompose_of_translate yields)
  methods := by
    refine (methods_of_translate translated).imp ?_
    rintro method methodUnit ⟨_, yields⟩
    exact AccessSite.sum_of_decompose (MethodInfo.decompose_of_translate yields)
  parameters := by
    refine (methods_of_translate translated).imp ?_
    rintro method methodUnit ⟨_, yields⟩ nodes given
    obtain ⟨-, same⟩ | ⟨-, _, same, -, becomes⟩ := MethodInfo.implementation_cases yields
    · rw [given] at same
      cases same
    · rw [given] at same
      cases same
      have decomposed := Event.forall₂_access_of_becomes becomes
      rw [Walk.flags_ofMethod] at decomposed
      exact (List.forall₂_map_left_iff.mp decomposed).imp fun _ _ each => AccessSite.sum_of_decompose each

/-- A word is decomposed exactly when it has no bits outside the table of its site. The flags are then some of the table, in its
order, and add up to the word; otherwise the error gives the bits outside the table. Translating a class that has been read from
bytes does not fail because of its flags, and conserves all of them. -/
theorem access_conserved :
    (∀ (site : AccessSite) (word : UInt32),
      ((∃ flags, site.decompose word.toNat = .ok flags) ↔ site.outside word = 0) ∧
      (∀ flags, site.decompose word.toNat = .ok flags → flags.Sublist site.table ∧
        flags.Pairwise (fun first second => first.bits < second.bits) ∧ AccessFlag.sum flags = word.toNat) ∧
      ∀ e, site.decompose word.toNat = .error e →
        e = .corruptAccessFlags site word.toNat (site.outside word).toNat) ∧
    ∀ (bytes : Bytes) (file : ClassFile) (naming : Naming), parse bytes = .ok file →
      (∀ site word leftover, file.translate naming ≠ .error (.corruptAccessFlags site word leftover)) ∧
      ∀ unit, file.translate naming = .ok unit → file.FlagsConserved unit := by
  refine ⟨fun site word => ⟨?_, ?_, ?_⟩, ?_⟩
  · have nothing : site.outside word = 0 ↔ site.leftover word.toNat = 0 := by
      rw [← site.toNat_outside, ← UInt32.toNat_inj]
      exact Iff.rfl
    simp only [AccessSite.decompose_eq_ok_iff, exists_and_left, exists_eq, and_true, nothing]
  · intro flags decomposed
    obtain ⟨-, rfl⟩ := AccessSite.decompose_eq_ok_iff.mp decomposed
    exact ⟨List.filter_sublist, (site.ascending_present _).imp AccessFlag.bits_lt_of_position_lt,
      AccessSite.sum_of_decompose decomposed⟩
  · intro e failed
    rw [site.toNat_outside]
    exact (AccessSite.decompose_eq_error_iff.mp failed).2
  · intro bytes file naming parsed
    refine ⟨fun site word leftover failed => ?_, fun unit => flagsConserved_of_translate⟩
    have kind := (known_of_parse parsed).reports naming _ failed
    cases kind

end ClassFile

/-! ## Words with all bits set -/

namespace FloodedFlags

/-- The words of the field and of the parameter have all bits set, and that of the method all but the one of native methods. -/
def bytes : Bytes :=
  [0xca, 0xfe, 0xba, 0xbe, 0, 0, 0, 0x41, 0, 8,
    1, 0, 1, 0x41,
    7, 0, 1,
    1, 0, 1, 0x78,
    1, 0, 1, 0x49,
    1, 0, 1, 0x66,
    1, 0, 4, 0x28, 0x49, 0x29, 0x56,
    1, 0, 0x10, 0x4d, 0x65, 0x74, 0x68, 0x6f, 0x64, 0x50, 0x61, 0x72, 0x61, 0x6d, 0x65, 0x74, 0x65, 0x72, 0x73,
    0xff, 0xff, 0, 2, 0, 0, 0, 0,
    0, 1,
    0xff, 0xff, 0, 3, 0, 4, 0, 0,
    0, 1,
    0xfe, 0xff, 0, 5, 0, 6, 0, 1,
    0, 7, 0, 0, 0, 5, 1, 0, 0, 0xff, 0xff,
    0, 0]

/-- The class as it is read: no word has bits that are not in a table. -/
def file : ClassFile where
  pool := ⟨#[.unused, .utf8 "A", .classRef 1, .utf8 "x", .utf8 "I", .utf8 "f", .utf8 "(I)V", .utf8 "MethodParameters"]⟩
  name := "A"
  superName := none
  interfaces := []
  fields := [⟨0x50df, "x", "I", none⟩]
  methods := [⟨0x1cff, "f", "(I)V", [], [⟨none, 0x9010⟩], none⟩]

/-- The unit of the class. -/
def unit : ClassUnit where
  name := "A"
  superName := none
  interfaces := []
  fields := [⟨"x", .int, none, AccessSite.field.table⟩]
  methods := [⟨"f", "(I)V", ⟨.void, [.int]⟩, [], .nodes [.arg none AccessSite.parameter.table, .finish],
    AccessSite.method.table.filter (· ≠ .isNative)⟩]
  references := []

/-- The words would be refused as they are written, and are not as they are read. -/
theorem access_flooded : ClassFile.parse bytes = .ok file ∧ file.translate ⟨"rt/"⟩ = .ok unit ∧ file.FlagsConserved unit ∧
    AccessSite.field.decompose (0xffff : UInt32).toNat = .error (.corruptAccessFlags .field 0xffff 0xaf20) ∧
    AccessSite.field.outside 0xffff = 0xaf20 ∧ AccessFlag.sum AccessSite.field.table = 0x50df := by
  have parsed : ClassFile.parse bytes = .ok file := by decide +kernel
  have translated : file.translate ⟨"rt/"⟩ = .ok unit := by decide +kernel
  obtain ⟨words, classes⟩ := ClassFile.access_conserved
  have listed : AccessSite.field.decompose (0x50df : UInt32).toNat = .ok AccessSite.field.table := by decide +kernel
  have refused : AccessSite.field.decompose (0xffff : UInt32).toNat = .error (.corruptAccessFlags .field 0xffff 0xaf20) := by
    decide +kernel
  exact ⟨parsed, translated, (classes bytes file ⟨"rt/"⟩ parsed).2 unit translated, refused, by decide,
    ((words .field 0x50df).2.1 _ listed).2.2⟩

end FloodedFlags

end JvmUnits
