/-
Pools that grow.

Constants are only ever appended (`ConstantPool.Extends`), so whatever an index resolves to in a
pool it resolves to in the grown pool (`Extends.utf8`, `Extends.memberRef`, …); asking for a member
only appends, as long as there is room, and keeps what it has appended where it fails
(`ConstantPool.Confined`).  An index that was asked for resolves to what it was asked for
(`ConstantPool.className_of_classIndex`, `ConstantPool.memberRef_of_memberIndex`), and a proper pool
that has grown and stayed valid is proper (`ConstantPool.Proper.grown`).
-/
import ClassGraft.Pool.Intern
import ClassGraft.Proofs.Constants
import ClassGraft.Proofs.EncodedText
import ClassGraft.Proofs.Running

namespace ClassGraft

namespace ConstantPool

/-- The larger pool has further constants behind those of the smaller one. -/
def Extends (pool pool' : ConstantPool) : Prop :=
  ∃ added : List Constant, pool'.slots.toList = pool.slots.toList ++ slotsOf added

/-- Whether a constant refers to constants of the right kinds. -/
def Sound (pool : ConstantPool) : Constant → Prop
  | .methodHandle kind target =>
    (1 ≤ kind ∧ kind ≤ 9) ∧ ∃ found, pool.lookup? target = some found
  | c => ∀ r ∈ c.references, ∃ found, pool.lookup? r.1 = some found ∧ found.kind = r.2

variable {pool pool' pool'' : ConstantPool} {c : Constant} {i : UInt16}

/-! ### Growth -/

theorem Extends.refl (pool : ConstantPool) : pool.Extends pool :=
  ⟨[], (List.append_nil _).symm⟩

theorem Extends.trans (h : pool.Extends pool') (h' : pool'.Extends pool'') :
    pool.Extends pool'' := by
  obtain ⟨xs, hxs⟩ := h
  obtain ⟨ys, hys⟩ := h'
  exact ⟨xs ++ ys, by rw [hys, hxs, slotsOf_append, List.append_assoc]⟩

theorem lookup?_eq_some_iff :
    pool.lookup? i = some c ↔ pool.slots.toList[i.toNat]? = some (some c) := by
  rw [lookup?, Option.join_eq_some_iff, Array.getElem?_toList]

theorem Extends.lookup? (h : pool.Extends pool') (hc : pool.lookup? i = some c) :
    pool'.lookup? i = some c := by
  obtain ⟨added, hadded⟩ := h
  rw [lookup?_eq_some_iff] at hc ⊢
  rw [hadded, List.getElem?_append_left (List.getElem?_eq_some_iff.mp hc).1, hc]

theorem lookup_eq_ok_iff : pool.lookup i = .ok c ↔ pool.lookup? i = some c := by
  rw [lookup]
  cases pool.lookup? i <;> simp

theorem Extends.lookup (h : pool.Extends pool') (hc : pool.lookup i = .ok c) :
    pool'.lookup i = .ok c :=
  lookup_eq_ok_iff.mpr (h.lookup? (lookup_eq_ok_iff.mp hc))

theorem utf8_eq_ok_iff {text : String} : pool.utf8 i = .ok text ↔
    ∃ bytes, pool.lookup? i = some (.utf8 bytes) ∧ ModifiedUtf8.decode bytes = .ok text := by
  simp only [ConstantPool.utf8, Bytes.bind_eq_ok_iff, lookup_eq_ok_iff]
  constructor
  · rintro ⟨c, hc, htext⟩
    cases c with
    | utf8 bytes => exact ⟨bytes, hc, htext⟩
    | _ => exact absurd htext (by simp [unexpected])
  · rintro ⟨bytes, hc, htext⟩
    exact ⟨_, hc, htext⟩

theorem className_eq_ok_iff {name : String} : pool.className i = .ok name ↔
    ∃ n, pool.lookup? i = some (.classRef n) ∧ pool.utf8 n = .ok name := by
  simp only [ConstantPool.className, Bytes.bind_eq_ok_iff, lookup_eq_ok_iff]
  constructor
  · rintro ⟨c, hc, hname⟩
    cases c with
    | classRef n => exact ⟨n, hc, hname⟩
    | _ => exact absurd hname (by simp [unexpected])
  · rintro ⟨n, hc, hname⟩
    exact ⟨_, hc, hname⟩

theorem nameAndType_eq_ok_iff {x : String × String} : pool.nameAndType i = .ok x ↔
    ∃ n d, pool.lookup? i = some (.nameAndType n d) ∧
      pool.utf8 n = .ok x.1 ∧ pool.utf8 d = .ok x.2 := by
  simp only [ConstantPool.nameAndType, Bytes.bind_eq_ok_iff, lookup_eq_ok_iff]
  constructor
  · rintro ⟨c, hc, hx⟩
    cases c with
    | nameAndType n d =>
      simp only [Bytes.bind_eq_ok_iff] at hx
      obtain ⟨name, hname, descriptor, hdescriptor, hx⟩ := hx
      obtain rfl := Except.ok.inj hx
      exact ⟨n, d, hc, hname, hdescriptor⟩
    | _ => exact absurd hx (by simp [unexpected])
  · rintro ⟨n, d, hc, hname, hdescriptor⟩
    refine ⟨_, hc, ?_⟩
    simp only [Bytes.bind_eq_ok_iff]
    exact ⟨x.1, hname, x.2, hdescriptor, rfl⟩

theorem Extends.utf8 (h : pool.Extends pool') {text : String} (hi : pool.utf8 i = .ok text) :
    pool'.utf8 i = .ok text := by
  rw [utf8_eq_ok_iff] at hi ⊢
  obtain ⟨bytes, hc, htext⟩ := hi
  exact ⟨bytes, h.lookup? hc, htext⟩

theorem Extends.className (h : pool.Extends pool') {name : String}
    (hi : pool.className i = .ok name) : pool'.className i = .ok name := by
  rw [className_eq_ok_iff] at hi ⊢
  obtain ⟨n, hc, hname⟩ := hi
  exact ⟨n, h.lookup? hc, h.utf8 hname⟩

theorem Extends.nameAndType (h : pool.Extends pool') {x : String × String}
    (hi : pool.nameAndType i = .ok x) : pool'.nameAndType i = .ok x := by
  rw [nameAndType_eq_ok_iff] at hi ⊢
  obtain ⟨n, d, hc, hname, hdescriptor⟩ := hi
  exact ⟨n, d, h.lookup? hc, h.utf8 hname, h.utf8 hdescriptor⟩

theorem Extends.memberRef (h : pool.Extends pool') {m : MemberRef}
    (hi : pool.memberRef i = .ok m) : pool'.memberRef i = .ok m := by
  rw [ConstantPool.memberRef, Bytes.bind_eq_ok_iff] at hi ⊢
  obtain ⟨c, hc, hm⟩ := hi
  refine ⟨c, h.lookup hc, ?_⟩
  cases c with
  | fieldRef owner nat | methodRef owner nat | interfaceMethodRef owner nat =>
    simp only [Bytes.bind_eq_ok_iff] at hm ⊢
    obtain ⟨⟨n, d⟩, hnat, o, ho, hm⟩ := hm
    exact ⟨(n, d), h.nameAndType hnat, o, h.className ho, hm⟩
  | _ => exact hm

theorem Extends.callSite (h : pool.Extends pool') {descriptor : String}
    (hi : pool.callSite i = .ok descriptor) : pool'.callSite i = .ok descriptor := by
  rw [ConstantPool.callSite, Bytes.bind_eq_ok_iff] at hi ⊢
  obtain ⟨c, hc, hdescriptor⟩ := hi
  refine ⟨c, h.lookup hc, ?_⟩
  cases c with
  | invokeDynamic bootstrap nat =>
    simp only [Bytes.bind_eq_ok_iff] at hdescriptor ⊢
    obtain ⟨x, hnat, hx⟩ := hdescriptor
    exact ⟨x, h.nameAndType hnat, hx⟩
  | _ => exact hdescriptor

/-! ### Soundness -/

theorem forM_eq_ok_iff {α : Type} {f : α → Except Fault Unit} {xs : List α} :
    xs.forM f = .ok () ↔ ∀ x ∈ xs, f x = .ok () := by
  induction xs with
  | nil => simp [pure, Except.pure]
  | cons x xs ih =>
    show (f x >>= fun _ => xs.forM f) = .ok () ↔ _
    rw [Bytes.bind_eq_ok_iff, List.forall_mem_cons, ← ih]
    constructor
    · rintro ⟨_, hx, hxs⟩
      exact ⟨hx, hxs⟩
    · rintro ⟨hx, hxs⟩
      exact ⟨(), hx, hxs⟩

theorem checkReference_eq_ok_iff {source : Nat} {wanted : ConstantKind} :
    pool.checkReference source i wanted = .ok () ↔
      ∃ found, pool.lookup? i = some found ∧ found.kind = wanted := by
  rw [checkReference]
  cases pool.lookup? i with
  | none => simp
  | some found => by_cases h : found.kind = wanted <;> simp [h]

theorem checkConstant_eq_ok_iff {source : Nat} :
    pool.checkConstant source c = .ok () ↔ pool.Sound c := by
  cases c with
  | methodHandle kind target =>
    rw [checkConstant, Sound]
    by_cases hkind : kind < 1 ∨ 9 < kind
    · rw [if_pos hkind]
      simp only [reduceCtorEq, false_iff, not_and]
      intro hle
      rcases hkind with hlt | hlt
      · exact absurd hle.1 (UInt8.not_le.mpr hlt)
      · exact absurd hle.2 (UInt8.not_le.mpr hlt)
    · obtain ⟨hlow, hhigh⟩ := not_or.mp hkind
      rw [if_neg hkind, ConstantPool.lookup,
        and_iff_right ⟨UInt8.not_lt.mp hlow, UInt8.not_lt.mp hhigh⟩]
      cases pool.lookup? target <;> simp [Except.map]
  | _ =>
    rw [checkConstant, forM_eq_ok_iff, Sound]
    · simp only [checkReference_eq_ok_iff]
    all_goals simp

theorem mem_toList_iff {n : Nat} :
    (n, c) ∈ pool.toList ↔ pool.slots.toList[n]? = some (some c) := by
  rw [toList, List.mem_filterMap]
  constructor
  · rintro ⟨⟨slot, index⟩, hmem, hslot⟩
    rw [List.mem_zipIdx_iff_getElem?] at hmem
    simp only [Option.map_eq_some_iff, Prod.mk.injEq] at hslot
    obtain ⟨_, rfl, rfl, rfl⟩ := hslot
    exact hmem
  · intro hn
    exact ⟨(some c, n), List.mem_zipIdx_iff_getElem?.mpr hn, rfl⟩

/-- A pool passes the check exactly if all its constants are sound. -/
theorem validate_eq_ok_iff :
    pool.validate = .ok () ↔ ∀ c, some c ∈ pool.slots.toList → pool.Sound c := by
  rw [validate, forM_eq_ok_iff]
  simp only [checkConstant_eq_ok_iff, Prod.forall, mem_toList_iff]
  constructor
  · intro h c hc
    obtain ⟨n, hn⟩ := List.mem_iff_getElem?.mp hc
    exact h n c hn
  · exact fun h n c hn => h c (List.mem_of_getElem? hn)

theorem Extends.sound (h : pool.Extends pool') (hc : pool.Sound c) : pool'.Sound c := by
  cases c with
  | methodHandle kind target =>
    obtain ⟨hkind, found, hfound⟩ := hc
    exact ⟨hkind, found, h.lookup? hfound⟩
  | _ =>
    intro r hr
    obtain ⟨found, hfound, hkind⟩ := hc r hr
    exact ⟨found, h.lookup? hfound, hkind⟩

/-! ### Steps -/

theorem append_eq (pool : ConstantPool) (c : Constant) :
    (pool.append c).slots.toList = pool.slots.toList ++ slotsOf [c] := by
  rw [append, slotsOf, slotsOf]
  by_cases hc : c.wide
  · rw [if_pos hc, if_pos hc]
    simp
  · rw [if_neg hc, if_neg hc]
    simp

theorem mem_slotsOf_singleton {d : Constant} : some d ∈ slotsOf [c] ↔ d = c := by
  rw [slotsOf, slotsOf]
  split <;> simp

theorem extends_append (pool : ConstantPool) (c : Constant) : pool.Extends (pool.append c) :=
  ⟨[c], append_eq pool c⟩

theorem count_append (pool : ConstantPool) (c : Constant) :
    (pool.append c).count = pool.count + slotsFor c := by
  rw [append, count, count, slotsFor]
  by_cases hc : c.wide
  · rw [if_pos hc, if_pos hc]
    simp
  · rw [if_neg hc, if_neg hc]
    simp

/-- Appending a sound constant keeps a pool valid. -/
theorem validate_append (h : pool.validate = .ok ()) (hc : pool.Sound c) :
    (pool.append c).validate = .ok () := by
  have hext := extends_append pool c
  -- The constants of before refer to what they referred to, and so does the new one.
  rw [validate_eq_ok_iff]
  intro d hd
  rw [append_eq, List.mem_append] at hd
  rcases hd with hd | hd
  · exact hext.sound (validate_eq_ok_iff.mp h d hd)
  · rw [mem_slotsOf_singleton] at hd
    exact hext.sound (hd ▸ hc)

theorem lookup?_append (h : pool.count ≤ 65535) (c : Constant) :
    (pool.append c).lookup? (UInt16.ofNat pool.count) = some c := by
  have hcount : (UInt16.ofNat pool.count).toNat = pool.slots.toList.length := by
    rw [UInt16.toNat_ofNat_of_lt' (by show _ < 65536; omega), count, Array.length_toList]
  rw [lookup?_eq_some_iff, append_eq, hcount, List.getElem?_append_right le_rfl, Nat.sub_self]
  rw [slotsOf]
  split <;> rfl

theorem indexOf?_eq (pool : ConstantPool) (c : Constant) :
    pool.indexOf? c = (pool.slots.toList.findIdx? (· == some c)).map UInt16.ofNat := by
  rw [indexOf?, ← List.findIdx?_toArray, Array.toArray_toList]

theorem lookup?_of_indexOf? (h : pool.count ≤ 65535) (hi : pool.indexOf? c = some i) :
    pool.lookup? i = some c := by
  rw [indexOf?, Option.map_eq_some_iff] at hi
  obtain ⟨n, hn, rfl⟩ := hi
  obtain ⟨hlt, hc, -⟩ := Array.findIdx?_eq_some_iff_getElem.mp hn
  have htoNat : (UInt16.ofNat n).toNat = n :=
    UInt16.toNat_ofNat_of_lt' (by rw [count] at h; show n < 65536; omega)
  rw [lookup?_eq_some_iff, htoNat, Array.getElem?_toList, Array.getElem?_eq_getElem hlt,
    beq_iff_eq.mp hc]

/-! ### Asking for constants -/

theorem Extends.count_le (h : pool.Extends pool') : pool.count ≤ pool'.count := by
  obtain ⟨added, hadded⟩ := h
  rw [count, count, ← Array.length_toList, ← Array.length_toList, hadded, List.length_append]
  exact Nat.le_add_right _ _

theorem push_eq (c : Constant) (pool : ConstantPool) : push c pool =
    if pool.count + slotsFor c ≤ maxSlots then .ok (UInt16.ofNat pool.count) (pool.append c)
    else .error .poolFull pool := rfl

/-- An edit begins by reading the pool, which changes nothing. -/
theorem intern_eq (c : Constant) (pool : ConstantPool) :
    intern c pool = match pool.indexOf? c with
      | some i => .ok i pool
      | none => push c pool := by
  show (match pool.indexOf? c with
    | some i => pure i
    | none => push c : PoolEdit UInt16) pool = _
  cases pool.indexOf? c <;> rfl

theorem intern_eq_ok_iff : intern c pool = .ok i pool' ↔
    pool.indexOf? c = some i ∧ pool' = pool ∨
      pool.indexOf? c = none ∧ pool.count + slotsFor c ≤ maxSlots ∧
        i = UInt16.ofNat pool.count ∧ pool' = pool.append c := by
  rw [intern_eq]
  cases pool.indexOf? c with
  | some j => simp [eq_comm]
  | none =>
    simp only [push]
    by_cases hroom : pool.count + slotsFor c ≤ maxSlots
    · rw [if_pos hroom]
      simp [hroom, eq_comm]
    · rw [if_neg hroom]
      simp [hroom]

/-- Where slots can be counted, the constant that was asked for stands behind the index. -/
theorem lookup?_of_intern (h : intern c pool = .ok i pool') (hcount : pool'.count ≤ maxSlots) :
    pool'.lookup? i = some c := by
  rcases intern_eq_ok_iff.mp h with ⟨hi, rfl⟩ | ⟨-, hroom, rfl, rfl⟩
  · exact lookup?_of_indexOf? hcount hi
  · exact lookup?_append ((Nat.le_add_right _ _).trans hroom) c

/-- The index of a field or a method, of which `constant` makes a constant. -/
def memberIndex (constant : UInt16 → UInt16 → Constant) (owner name descriptor : String) :
    PoolEdit UInt16 := do
  let owner ← classIndex owner
  let nat ← nameAndTypeIndex name descriptor
  intern (constant owner nat)

/-- Whether what `constant` makes are fields or methods. -/
def MakesMembers (constant : UInt16 → UInt16 → Constant) : Prop :=
  ∀ owner nat, constant owner nat = .fieldRef owner nat ∨ constant owner nat = .methodRef owner nat

theorem makesMembers_fieldRef : MakesMembers .fieldRef := fun _ _ => .inl rfl

theorem makesMembers_methodRef : MakesMembers .methodRef := fun _ _ => .inr rfl

/-! ### What edits leave -/

/-- The pool that an edit leaves, whether it succeeds or fails. -/
def left {α : Type} (m : PoolEdit α) (pool : ConstantPool) : ConstantPool :=
  match m pool with
  | .ok _ pool' | .error _ pool' => pool'

theorem left_eq_of_ok {α : Type} {m : PoolEdit α} {x : α} (h : m pool = .ok x pool') :
    left m pool = pool' := by
  rw [left, h]

theorem left_eq_of_error {α : Type} {m : PoolEdit α} {fault : Fault}
    (h : m pool = .error fault pool') : left m pool = pool' := by
  rw [left, h]

/-- An edit leaves what its first part leaves or, if that succeeds, what its second part makes of
it. -/
theorem left_bind {α β : Type} (m : PoolEdit α) (f : α → PoolEdit β) (pool : ConstantPool) :
    left (m >>= f) pool = left m pool ∨ ∃ x, left (m >>= f) pool = left (f x) (left m pool) := by
  have hbind : left (m >>= f) pool = left (EStateM.bind m f) pool := rfl
  rw [hbind, left, left, EStateM.bind]
  cases m pool with
  | ok x pool' => exact .inr ⟨x, rfl⟩
  | error fault pool' => exact .inl rfl

/-- Whether an edit, however it ends, has only appended constants that there was room for. -/
structure Confined {α : Type} (m : PoolEdit α) : Prop where
  growth : ∀ pool : ConstantPool, pool.Extends (left m pool)
  room : ∀ pool : ConstantPool, pool.count ≤ maxSlots → (left m pool).count ≤ maxSlots

/-- An edit that succeeds only appends constants. -/
def Appends {α : Type} (m : PoolEdit α) : Prop :=
  ∀ ⦃pool x pool'⦄, m pool = .ok x pool' → pool.Extends pool'

theorem Confined.pure {α : Type} (x : α) : Confined (Pure.pure x) where
  growth := Extends.refl
  room := fun _ hpool => hpool

theorem Confined.bind {α β : Type} {m : PoolEdit α} {f : α → PoolEdit β} (hm : Confined m)
    (hf : ∀ x, Confined (f x)) : Confined (m >>= f) where
  growth := by
    intro pool
    rcases left_bind m f pool with h | ⟨x, h⟩
    · exact h ▸ hm.growth pool
    · exact h ▸ (hm.growth pool).trans ((hf x).growth _)
  room := by
    intro pool hpool
    rcases left_bind m f pool with h | ⟨x, h⟩
    · exact h ▸ hm.room pool hpool
    · exact h ▸ (hf x).room _ (hm.room pool hpool)

theorem Confined.appends {α : Type} {m : PoolEdit α} (hm : Confined m) : Appends m := by
  intro pool x pool' h
  exact left_eq_of_ok h ▸ hm.growth pool

theorem Appends.bind {α β : Type} {m : PoolEdit α} {f : α → PoolEdit β} (hm : Appends m)
    (hf : ∀ x, Appends (f x)) : Appends (m >>= f) := by
  intro pool y pool' h
  obtain ⟨x, pool₁, hx, h⟩ := Step.bind_eq_ok_iff.mp h
  exact (hm hx).trans (hf x h)

theorem confined_push (c : Constant) : Confined (push c) := by
  have hleft : ∀ pool : ConstantPool, left (push c) pool = pool ∨
      pool.count + slotsFor c ≤ maxSlots ∧ left (push c) pool = pool.append c := by
    intro pool
    by_cases hroom : pool.count + slotsFor c ≤ maxSlots
    · exact .inr ⟨hroom, left_eq_of_ok ((push_eq c pool).trans (if_pos hroom))⟩
    · exact .inl (left_eq_of_error ((push_eq c pool).trans (if_neg hroom)))
  constructor
  · intro pool
    rcases hleft pool with h | ⟨-, h⟩
    · exact h.symm ▸ Extends.refl pool
    · exact h.symm ▸ extends_append pool c
  · intro pool hpool
    rcases hleft pool with h | ⟨hroom, h⟩
    · exact h.symm ▸ hpool
    · rw [h, count_append]
      exact hroom

theorem confined_intern (c : Constant) : Confined (intern c) := by
  have hleft : ∀ pool : ConstantPool,
      left (intern c) pool = pool ∨ left (intern c) pool = left (push c) pool := by
    intro pool
    rw [left, left, intern_eq]
    cases pool.indexOf? c with
    | some index => exact .inl rfl
    | none => exact .inr rfl
  constructor
  · intro pool
    rcases hleft pool with h | h
    · exact h.symm ▸ Extends.refl pool
    · exact h.symm ▸ (confined_push c).growth pool
  · intro pool hpool
    rcases hleft pool with h | h
    · exact h.symm ▸ hpool
    · exact h.symm ▸ (confined_push c).room pool hpool

theorem confined_classIndex (name : String) : Confined (classIndex name) :=
  (confined_intern _).bind fun _ => confined_intern _

theorem confined_nameAndTypeIndex (name descriptor : String) :
    Confined (nameAndTypeIndex name descriptor) :=
  (confined_intern _).bind fun _ => (confined_intern _).bind fun _ => confined_intern _

theorem confined_memberIndex (constant : UInt16 → UInt16 → Constant)
    (owner name descriptor : String) : Confined (memberIndex constant owner name descriptor) :=
  (confined_classIndex owner).bind fun _ =>
    (confined_nameAndTypeIndex name descriptor).bind fun _ => confined_intern _

theorem appends_intern (c : Constant) : Appends (intern c) := (confined_intern c).appends

theorem appends_classIndex (name : String) : Appends (classIndex name) :=
  (confined_classIndex name).appends

theorem appends_nameAndTypeIndex (name descriptor : String) :
    Appends (nameAndTypeIndex name descriptor) :=
  (confined_nameAndTypeIndex name descriptor).appends

/-! ### Valid pools -/

/-- A valid pool stays valid; the constant that is asked for needs to be sound only where there is
room for it. -/
theorem validate_of_intern (hc : pool.count ≤ maxSlots → pool.Sound c)
    (h : intern c pool = .ok i pool') (hvalid : pool.validate = .ok ()) :
    pool'.validate = .ok () := by
  rcases intern_eq_ok_iff.mp h with ⟨-, rfl⟩ | ⟨-, hroom, -, rfl⟩
  · exact hvalid
  · exact validate_append hvalid (hc ((Nat.le_add_right _ _).trans hroom))

/-- Whether an edit that succeeds keeps a pool of any size valid and, where its slots can be
counted, answers with the index of a constant of a kind. -/
structure Furnishes (kind : ConstantKind) (m : PoolEdit UInt16) : Prop where
  appends : Appends m
  valid : ∀ ⦃pool i pool'⦄, m pool = .ok i pool' → pool.validate = .ok () →
    pool'.validate = .ok ()
  found : ∀ ⦃pool i pool'⦄, m pool = .ok i pool' → pool'.count ≤ maxSlots →
    ∃ c, pool'.lookup? i = some c ∧ c.kind = kind

/-- What an edit answers with is found in the pools behind it. -/
theorem Furnishes.lookup? {kind : ConstantKind} {m : PoolEdit UInt16} (hm : Furnishes kind m)
    (h : m pool = .ok i pool') (hext : pool'.Extends pool'') (hcount : pool''.count ≤ maxSlots) :
    ∃ c, pool''.lookup? i = some c ∧ c.kind = kind := by
  obtain ⟨c, hc, hkind⟩ := hm.found h (hext.count_le.trans hcount)
  exact ⟨c, hext.lookup? hc, hkind⟩

theorem furnishes_utf8Index (text : String) : Furnishes .utf8 (utf8Index text) where
  appends := appends_intern _
  valid := fun _ _ _ h => validate_of_intern (fun _ => by simp [Sound, Constant.references]) h
  found := fun _ _ _ h hcount => ⟨_, lookup?_of_intern h hcount, rfl⟩

theorem furnishes_classIndex (name : String) : Furnishes .classRef (classIndex name) where
  appends := appends_classIndex name
  valid := by
    intro pool i pool' h hvalid
    obtain ⟨n, pool₁, hn, h⟩ := Step.bind_eq_ok_iff.mp h
    have htext := furnishes_utf8Index name
    refine validate_of_intern (fun hcount => ?_) h (htext.valid hn hvalid)
    simpa [Sound, Constant.references] using htext.found hn hcount
  found := by
    intro pool i pool' h hcount
    obtain ⟨n, pool₁, -, h⟩ := Step.bind_eq_ok_iff.mp h
    exact ⟨_, lookup?_of_intern h hcount, rfl⟩

theorem furnishes_nameAndTypeIndex (name descriptor : String) :
    Furnishes .nameAndType (nameAndTypeIndex name descriptor) where
  appends := appends_nameAndTypeIndex name descriptor
  valid := by
    intro pool i pool' h hvalid
    obtain ⟨n, pool₁, hn, h⟩ := Step.bind_eq_ok_iff.mp h
    obtain ⟨d, pool₂, hd, h⟩ := Step.bind_eq_ok_iff.mp h
    have hname := furnishes_utf8Index name
    have htype := furnishes_utf8Index descriptor
    refine validate_of_intern (fun hcount => ?_) h (htype.valid hd (hname.valid hn hvalid))
    simpa [Sound, Constant.references] using
      And.intro (hname.lookup? hn (htype.appends hd) hcount) (htype.found hd hcount)
  found := by
    intro pool i pool' h hcount
    obtain ⟨n, pool₁, -, h⟩ := Step.bind_eq_ok_iff.mp h
    obtain ⟨d, pool₂, -, h⟩ := Step.bind_eq_ok_iff.mp h
    exact ⟨_, lookup?_of_intern h hcount, rfl⟩

/-- Asking for a member keeps a pool valid. -/
theorem validate_of_memberIndex {constant : UInt16 → UInt16 → Constant}
    {owner name descriptor : String} (hconstant : MakesMembers constant)
    (h : memberIndex constant owner name descriptor pool = .ok i pool')
    (hvalid : pool.validate = .ok ()) : pool'.validate = .ok () := by
  obtain ⟨o, pool₁, ho, h⟩ := Step.bind_eq_ok_iff.mp h
  obtain ⟨n, pool₂, hn, h⟩ := Step.bind_eq_ok_iff.mp h
  have hclass := furnishes_classIndex owner
  have hpair := furnishes_nameAndTypeIndex name descriptor
  refine validate_of_intern (fun hcount => ?_) h (hpair.valid hn (hclass.valid ho hvalid))
  have hfound := And.intro (hclass.lookup? ho (hpair.appends hn) hcount) (hpair.found hn hcount)
  rcases hconstant o n with hc | hc
  all_goals
    rw [hc]
    simpa [Sound, Constant.references] using hfound

/-! ### What is found -/

section Found

variable {owner name descriptor text : String}

theorem utf8_of_utf8Index (h : utf8Index text pool = .ok i pool')
    (hcount : pool'.count ≤ maxSlots) : pool'.utf8 i = .ok text :=
  utf8_eq_ok_iff.mpr ⟨_, lookup?_of_intern h hcount, ModifiedUtf8.decode_encode text⟩

theorem className_of_classIndex (h : classIndex name pool = .ok i pool')
    (hcount : pool'.count ≤ maxSlots) : pool'.className i = .ok name := by
  obtain ⟨n, pool₁, hn, h⟩ := Step.bind_eq_ok_iff.mp h
  have hext := appends_intern _ h
  have hname := utf8_of_utf8Index hn (hext.count_le.trans hcount)
  exact className_eq_ok_iff.mpr ⟨n, lookup?_of_intern h hcount, hext.utf8 hname⟩

theorem nameAndType_of_nameAndTypeIndex (h : nameAndTypeIndex name descriptor pool = .ok i pool')
    (hcount : pool'.count ≤ maxSlots) : pool'.nameAndType i = .ok (name, descriptor) := by
  obtain ⟨n, pool₁, hn, h⟩ := Step.bind_eq_ok_iff.mp h
  obtain ⟨d, pool₂, hd, h⟩ := Step.bind_eq_ok_iff.mp h
  have hext₁ := appends_intern _ hd
  have hext₂ := appends_intern _ h
  have hcount₂ := hext₂.count_le.trans hcount
  have hname := utf8_of_utf8Index hn (hext₁.count_le.trans hcount₂)
  have hdescriptor := utf8_of_utf8Index hd hcount₂
  exact nameAndType_eq_ok_iff.mpr ⟨n, d, lookup?_of_intern h hcount,
    hext₂.utf8 (hext₁.utf8 hname), hext₂.utf8 hdescriptor⟩

/-- A field or method resolves to the class and the name that its constant was put together from. -/
theorem memberRef_eq {owner nat : UInt16} {o n d : String}
    (hc : c = .fieldRef owner nat ∨ c = .methodRef owner nat) (hi : pool.lookup? i = some c)
    (howner : pool.className owner = .ok o) (hnat : pool.nameAndType nat = .ok (n, d)) :
    pool.memberRef i = .ok ⟨i, o, n, d⟩ := by
  rw [memberRef, lookup_eq_ok_iff.mpr hi]
  rcases hc with rfl | rfl
  all_goals
    show (pool.nameAndType nat >>= _) = _
    rw [hnat]
    show (pool.className owner >>= _) = _
    rw [howner]
    rfl

/-- Behind the index of a member stands its constant, which resolves to what was asked for. -/
theorem memberRef_of_memberIndex {constant : UInt16 → UInt16 → Constant}
    (hconstant : MakesMembers constant)
    (h : memberIndex constant owner name descriptor pool = .ok i pool')
    (hcount : pool'.count ≤ maxSlots) : (∃ o n, pool'.lookup? i = some (constant o n)) ∧
      pool'.memberRef i = .ok ⟨i, owner, name, descriptor⟩ := by
  obtain ⟨o, pool₁, ho, h⟩ := Step.bind_eq_ok_iff.mp h
  obtain ⟨n, pool₂, hn, h⟩ := Step.bind_eq_ok_iff.mp h
  -- Each part resolves in the pool that it is put into, and so in all later ones.
  have hext₁ := appends_nameAndTypeIndex _ _ hn
  have hext₂ := appends_intern _ h
  have hcount₂ := hext₂.count_le.trans hcount
  have howner := className_of_classIndex ho (hext₁.count_le.trans hcount₂)
  have hnat := nameAndType_of_nameAndTypeIndex hn hcount₂
  have hi := lookup?_of_intern h hcount
  exact ⟨⟨o, n, hi⟩, memberRef_eq (hconstant o n) hi (hext₂.className (hext₁.className howner))
    (hext₂.nameAndType hnat)⟩

end Found

/-! ### Proper pools -/

/-- A pool that has grown and is proper. -/
structure Grown (pool pool' : ConstantPool) : Prop where
  extension : pool.Extends pool'
  proper : pool'.Proper

theorem Proper.count_le (h : pool.Proper) : pool.count ≤ maxSlots := Nat.le_of_lt_succ h.count_lt

/-- A proper pool that has grown and stayed valid is proper, as far as its slots can be counted. -/
theorem Proper.grown (h : pool.Proper) (hext : pool.Extends pool') (hcount : pool'.count ≤ maxSlots)
    (hvalid : pool'.validate = .ok ()) : pool.Grown pool' := by
  obtain ⟨xs, hxs⟩ := h.slots
  have hgrown := hext
  obtain ⟨added, hadded⟩ := hext
  refine ⟨hgrown, ⟨xs ++ added, ?_⟩, Nat.lt_succ_of_le hcount, hvalid⟩
  rw [hadded, hxs, slotsOf_append, List.cons_append]

end ConstantPool

end ClassGraft
