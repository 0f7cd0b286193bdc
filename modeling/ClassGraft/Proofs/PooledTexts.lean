/-
Texts in the pool.

Of all constants only texts can be too long to be written, so a pool can be written if its texts
(`ConstantPool.texts`) take 65535 bytes at most (`ConstantPool.exists_write_iff`).  An edit of the
pool adds the texts that it names and no others (`ConstantPool.Names`).  A splice names the members
that the handler call refers to, with their owners and descriptors (`mem_texts_of_splice`).
-/
import ClassGraft.Proofs.Failing
import ClassGraft.Proofs.Grafting

namespace ClassGraft

/-- The fault of a text that is too long to be written. -/
def Fault.IsTooLong (bytes : Bytes) (fault : Fault) : Prop :=
  65535 < bytes.length ∧ fault = .malformed (.utf8TooLong bytes.length)

theorem Constant.exists_write_iff {c : Constant} :
    (∃ b, c.write = .ok b) ↔ ∀ bytes, c = .utf8 bytes → bytes.length ≤ 65535 := by
  simp only [write_eq_ok_iff, exists_and_left, exists_eq, and_true]
  cases c <;> simp [writable]

theorem Constant.failsBy_write (c : Constant) :
    FailsBy (fun fault => ∃ bytes, c = .utf8 bytes ∧ fault.IsTooLong bytes) c.write := by
  cases c with
  | utf8 bytes =>
    rw [write]
    split
    · exact .ok _ _
    · next hlong => exact .error ⟨bytes, rfl, not_le.mp hlong, rfl⟩
  | _ => exact .ok _ _

namespace ConstantPool

/-- The text that a slot holds. -/
def textOf? : Option Constant → Option Bytes
  | some (.utf8 bytes) => some bytes
  | _ => none

/-- The encoded texts of a pool. -/
def texts (pool : ConstantPool) : List Bytes := pool.slots.toList.filterMap textOf?

variable {pool pool' : ConstantPool} {b : Bytes} {c : Constant} {i : UInt16}

theorem mem_texts_iff : b ∈ pool.texts ↔ some (.utf8 b) ∈ pool.slots.toList := by
  rw [texts, List.mem_filterMap]
  constructor
  · rintro ⟨slot, hslot, hb⟩
    unfold textOf? at hb
    split at hb
    · obtain rfl := Option.some.inj hb
      exact hslot
    · exact absurd hb (by simp)
  · exact fun h => ⟨_, h, rfl⟩

/-! ### Writing -/

/-- A pool can be written if none of its texts is too long. -/
theorem exists_write_iff : (∃ b, pool.write = .ok b) ↔ ∀ b ∈ pool.texts, b.length ≤ 65535 := by
  have hmem : ∀ c, c ∈ pool.slots.toList.filterMap id ↔ some c ∈ pool.slots.toList := by simp
  refine Bytes.exists_bind_pure_iff.trans ?_
  simp only [Bytes.exists_concatMapM_iff, Constant.exists_write_iff, hmem, mem_texts_iff]
  exact ⟨fun h b hb => h _ hb b rfl, fun h c hc b hcb => h b (hcb ▸ hc)⟩

theorem failsBy_write (pool : ConstantPool) :
    FailsBy (fun fault => ∃ b ∈ pool.texts, fault.IsTooLong b) pool.write := by
  refine (FailsBy.concatMapM fun c hc => ?_).bind fun _ => .ok _ _
  obtain ⟨slot, hslot, hc⟩ := List.mem_filterMap.mp hc
  obtain rfl : slot = some c := hc
  refine c.failsBy_write.imp ?_
  rintro fault ⟨bytes, rfl, hlong⟩
  exact ⟨bytes, mem_texts_iff.mpr hslot, hlong⟩

/-! ### Reading -/

/-- The text behind an index is encoded in no more bytes than a text of the pool. -/
theorem exists_text_of_utf8 {text : String} (h : pool.utf8 i = .ok text) :
    ∃ b ∈ pool.texts, (ModifiedUtf8.encode text).length ≤ b.length := by
  obtain ⟨b, hb, hdecode⟩ := utf8_eq_ok_iff.mp h
  exact ⟨b, mem_texts_iff.mpr (List.mem_of_getElem? (lookup?_eq_some_iff.mp hb)),
    ModifiedUtf8.length_encode_le hdecode⟩

/-! ### Edits -/

theorem mem_texts_append : b ∈ (pool.append c).texts ↔ b ∈ pool.texts ∨ .utf8 b = c := by
  rw [mem_texts_iff, mem_texts_iff, append_eq, List.mem_append, mem_slotsOf_singleton]

/-- A constant that is asked for is in the pool, and nothing else is new. -/
theorem mem_texts_of_intern (h : intern c pool = .ok i pool') :
    b ∈ pool'.texts ↔ b ∈ pool.texts ∨ .utf8 b = c := by
  rcases intern_eq_ok_iff.mp h with ⟨hi, rfl⟩ | ⟨-, -, -, rfl⟩
  · -- The constant has been found, so it is one of the slots.
    rw [indexOf?, Option.map_eq_some_iff] at hi
    obtain ⟨n, hn, -⟩ := hi
    obtain ⟨hlt, hc, -⟩ := Array.findIdx?_eq_some_iff_getElem.mp hn
    refine ⟨.inl, fun h => h.elim id ?_⟩
    rintro rfl
    rw [mem_texts_iff, ← beq_iff_eq.mp hc]
    exact Array.getElem_mem_toList hlt
  · exact mem_texts_append

/-- An edit that succeeds adds just these texts. -/
def Names {α : Type} (texts : List String) (m : PoolEdit α) : Prop :=
  ∀ ⦃pool x pool'⦄, m pool = .ok x pool' →
    ∀ b, b ∈ pool'.texts ↔ b ∈ pool.texts ∨ b ∈ texts.map ModifiedUtf8.encode

section Names

variable {α β : Type} {m : PoolEdit α} {texts texts' : List String}

theorem Names.bind (hm : Names texts m) {f : α → PoolEdit β} (hf : ∀ x, Names texts' (f x)) :
    Names (texts ++ texts') (m >>= f) := by
  intro pool y pool' h b
  obtain ⟨x, pool₁, hx, h⟩ := Step.bind_eq_ok_iff.mp h
  rw [hf x h b, hm hx b, List.map_append, List.mem_append, or_assoc]

theorem Names.then_pure (hm : Names texts m) (f : α → β) :
    Names texts (m >>= fun x => pure (f x)) := by
  intro pool y pool' h b
  obtain ⟨x, pool₁, hx, h⟩ := Step.bind_eq_ok_iff.mp h
  obtain ⟨-, rfl⟩ := Step.pure_eq_ok_iff.mp h
  exact hm hx b

theorem names_intern (h : ∀ b, c ≠ .utf8 b) : Names [] (intern c) := by
  intro pool i pool' hi b
  rw [mem_texts_of_intern hi, List.map_nil]
  simp [(h b).symm]

theorem names_utf8Index (text : String) : Names [text] (utf8Index text) := by
  intro pool i pool' hi b
  rw [mem_texts_of_intern hi, List.map_singleton, List.mem_singleton, Constant.utf8.injEq]

theorem names_classIndex (name : String) : Names [name] (classIndex name) :=
  (names_utf8Index name).bind fun _ => names_intern (by simp)

theorem names_nameAndTypeIndex (name descriptor : String) :
    Names [name, descriptor] (nameAndTypeIndex name descriptor) :=
  (names_utf8Index name).bind fun _ =>
    (names_utf8Index descriptor).bind fun _ => names_intern (by simp)

theorem names_memberIndex {constant : UInt16 → UInt16 → Constant}
    (hconstant : MakesMembers constant) (owner name descriptor : String) :
    Names [owner, name, descriptor] (memberIndex constant owner name descriptor) := by
  refine (names_classIndex owner).bind fun o => ?_
  refine (names_nameAndTypeIndex name descriptor).bind fun n => names_intern fun b => ?_
  rcases hconstant o n with h | h
  all_goals
    rw [h]
    simp

end Names

end ConstantPool

/-! ### The splice -/

section Splice

open ConstantPool

theorem names_memberOf {constant : UInt16 → UInt16 → Constant} (hconstant : MakesMembers constant)
    (owner name descriptor : String) :
    Names [owner, name, descriptor] (memberOf constant owner name descriptor) :=
  (names_memberIndex hconstant owner name descriptor).then_pure _

/-- The texts that a handler call needs for the members that it refers to. -/
def Injection.texts (injection : Injection) (world player : FieldRecord) : List String :=
  [injection.config.handlerClass, injection.config.handlerField, injection.config.handlerType,
    injection.owner, world.name, world.descriptor,
    injection.owner, player.name, player.descriptor,
    injection.config.handlerClass, injection.config.handlerMethod,
    GraftConfig.handlerDescriptor world.descriptor player.descriptor]

/-- The texts of the four members, in the order in which they are put into the pool. -/
theorem names_members (injection : Injection) (world player : FieldRecord) :
    Names (injection.texts world player) (injection.members world player) :=
  (names_memberOf makesMembers_fieldRef _ _ _).bind fun _ =>
    (names_memberOf makesMembers_fieldRef _ _ _).bind fun _ =>
      (names_memberOf makesMembers_fieldRef _ _ _).bind fun _ =>
        (names_memberOf makesMembers_methodRef _ _ _).then_pure _

theorem mem_texts_of_splice [Build] {method : Method} {anchor : Nat} {injection : Injection}
    {spliced : Spliced} {s s' : Traced Draft}
    (h : splice method anchor injection s = .ok spliced s') : ∃ world player,
      injection.fields.find (injection.mode.resolve injection.config.worldField) = .ok world ∧
      injection.fields.find (injection.mode.resolve injection.config.playerField) = .ok player ∧
      ∀ b, b ∈ s'.value.pool.texts ↔
        b ∈ s.value.pool.texts ∨ b ∈ (injection.texts world player).map ModifiedUtf8.encode := by
  obtain ⟨m, hspliced⟩ := splice_spec h
  obtain ⟨world, player, hworld, hplayer, -, -, hm⟩ := hspliced.asked
  exact ⟨world, player, hworld, hplayer, names_members injection world player hm⟩

end Splice

/-! ### The fields of the class -/

namespace FieldRecords

theorem lookup_record (records : FieldRecords) (name name' : String) (field : FieldRecord) :
    (record records name field).lookup name' =
      (records.lookup name').or (if name' == name then some field else none) := by
  rw [record]
  split
  · next h =>
    obtain ⟨found, hfound⟩ := Option.isSome_iff_exists.mp h
    split
    · next hname =>
      rw [beq_iff_eq.mp hname, hfound]
      rfl
    · exact Option.or_none.symm
  · rw [List.lookup_append]
    congr 1
    rw [List.lookup_cons]
    split
    all_goals simp_all

/-- Of the wanted fields the first of each name is recorded. -/
theorem lookup_of_scanFields {σ : Type} {owner : String} {remapper : Remapper}
    {wanted : List String} {fields : List Field} {records records' : FieldRecords}
    {s s' : Traced σ}
    (h : scanFields owner remapper wanted fields records s = .ok records' s') {name : String}
    (hname : name ∈ wanted) : records'.lookup name = (records.lookup name).or
      ((fields.find? fun field =>
        remapper.fieldName owner field.name field.descriptor == name).map fun field =>
          ⟨field.name, field.descriptor⟩) := by
  -- What has been recorded stays, so the first record of a name is the one that counts.
  induction fields generalizing records s with
  | nil =>
    obtain ⟨rfl, -⟩ := Step.pure_eq_ok_iff.mp h
    exact Option.or_none.symm
  | cons field rest ih =>
    rw [scanFields] at h
    by_cases hmapped : remapper.fieldName owner field.name field.descriptor = name
    · have hwanted : wanted.contains (remapper.fieldName owner field.name field.descriptor) := by
        rw [hmapped, List.contains_iff_mem]
        exact hname
      simp only [if_pos hwanted] at h
      obtain ⟨_, s₁, -, h⟩ := Step.bind_eq_ok_iff.mp h
      rw [ih h, lookup_record, Option.or_assoc, List.find?_cons_of_pos (by simpa using hmapped),
        if_pos (by simpa using hmapped.symm)]
      rfl
    · -- A field of another name may be recorded, but not under this one.
      rw [List.find?_cons_of_neg (by simpa using hmapped)]
      split at h
      · obtain ⟨_, s₁, -, h⟩ := Step.bind_eq_ok_iff.mp h
        rw [ih h, lookup_record, if_neg (by simpa using fun h => hmapped h.symm), Option.or_none]
      · exact ih h

/-- What a scan finds under a wanted name is the first field of that name. -/
theorem find_of_scan {σ : Type} {c : ClassFile} {remapper : Remapper} {wanted : List String}
    {records : FieldRecords} {s s' : Traced σ}
    (h : scan c remapper wanted s = .ok records s') {owner : String} (howner : c.name = .ok owner)
    {name : String} (hname : name ∈ wanted) {record : FieldRecord}
    (hrecord : records.find name = .ok record) : ∃ field,
      c.fields.find? (fun field =>
        remapper.fieldName owner field.name field.descriptor == name) = some field ∧
      record = ⟨field.name, field.descriptor⟩ := by
  obtain ⟨_, _, hasked, h⟩ := Step.bind_eq_ok_iff.mp h
  obtain ⟨howner', rfl⟩ := Step.ofExcept_eq_ok_iff.mp hasked
  obtain rfl := Except.ok.inj (howner.symm.trans howner')
  have hlookup := lookup_of_scanFields h hname
  rw [find] at hrecord
  split at hrecord
  · next found hfound =>
    obtain rfl := Except.ok.inj hrecord
    rw [hfound, List.lookup_nil, Option.none_or] at hlookup
    obtain ⟨field, hfield, hrecord⟩ := Option.map_eq_some_iff.mp hlookup.symm
    exact ⟨field, hfield, hrecord.symm⟩
  · exact absurd hrecord (by simp)

end FieldRecords

end ClassGraft
