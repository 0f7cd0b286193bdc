/-
Constants and constant pools as bytes.

A constant is read back from exactly the bytes it is written as (`Constant.takes_read`).  A pool
is written without its unused slots, so the slots must be laid out as a list of constants says
(`ConstantPool.slotsOf`): then the pool is read back from exactly the bytes it is written as
(`ConstantPool.takes_read`).
-/
import ClassGraft.Pool.Basic
import ClassGraft.Proofs.Reading

namespace ClassGraft

namespace Constant

open Reader

/-- A body is read from exactly the bytes that it is written as. -/
theorem readBody_eq_ok_iff {k : ConstantKind} {x : Constant} {c c' : Cursor} :
    readBody k c = .ok x c' ↔ x.kind = k ∧ x.writable ∧ c.Advances x.bodyBytes c' := by
  constructor
  · intro h
    cases k with
    | utf8 =>
      simp only [readBody, bind_eq_ok_iff, u16_eq_ok_iff, bytes_eq_ok_iff, pure_eq_ok_iff] at h
      obtain ⟨n, m, hn, bytes, m', ⟨hlen, hb⟩, rfl, rfl⟩ := h
      refine ⟨rfl, ?_, ?_⟩
      · have := n.toNat_lt
        simp only [writable, decide_eq_true_eq]
        omega
      · simp only [bodyBytes, hlen]
        exact hn.append hb
    | integer | float | long | double | classRef | string | methodType | module | package =>
      simp only [readBody, bind_eq_ok_iff, u16_eq_ok_iff, u32_eq_ok_iff, u64_eq_ok_iff,
        i32_eq_ok_iff, i64_eq_ok_iff, pure_eq_ok_iff] at h
      obtain ⟨a, m, ha, rfl, rfl⟩ := h
      exact ⟨rfl, rfl, ha⟩
    | fieldRef | methodRef | interfaceMethodRef | nameAndType | methodHandle | dynamic
    | invokeDynamic =>
      simp only [readBody, bind_eq_ok_iff, u8_eq_ok_iff, u16_eq_ok_iff, pure_eq_ok_iff] at h
      obtain ⟨a, m, ha, b, m', hb, rfl, rfl⟩ := h
      exact ⟨rfl, rfl, ha.append hb⟩
  · rintro ⟨rfl, hw, h⟩
    cases x with
    | utf8 bytes =>
      simp only [writable, decide_eq_true_eq] at hw
      obtain ⟨m, hn, hb⟩ := Cursor.advances_append.mp h
      have hlen : (UInt16.ofNat bytes.length).toNat = bytes.length :=
        UInt16.toNat_ofNat_of_lt' (by show bytes.length < 65536; omega)
      simp only [kind, readBody, bind_eq_ok_iff, u16_eq_ok_iff, bytes_eq_ok_iff, pure_eq_ok_iff]
      refine ⟨UInt16.ofNat bytes.length, m, ?_, bytes, c', ⟨hlen.symm, hb⟩, rfl, rfl⟩
      rwa [Bytes.ofU16, hlen]
    | integer a | float a | long a | double a | classRef a | string a | methodType a | module a
    | package a =>
      simp only [kind, readBody, bind_eq_ok_iff, u16_eq_ok_iff, u32_eq_ok_iff, u64_eq_ok_iff,
        i32_eq_ok_iff, i64_eq_ok_iff, pure_eq_ok_iff]
      exact ⟨a, c', h, rfl, rfl⟩
    | fieldRef a b | methodRef a b | interfaceMethodRef a b | nameAndType a b | dynamic a b
    | invokeDynamic a b =>
      obtain ⟨m, ha, hb⟩ := Cursor.advances_append.mp h
      simp only [kind, readBody, bind_eq_ok_iff, u16_eq_ok_iff, pure_eq_ok_iff]
      exact ⟨a, m, ha, b, c', hb, rfl, rfl⟩
    | methodHandle a b =>
      obtain ⟨m, ha, hb⟩ := Cursor.advances_cons.mp h
      simp only [kind, readBody, bind_eq_ok_iff, u8_eq_ok_iff, u16_eq_ok_iff, pure_eq_ok_iff]
      exact ⟨a, m, ha, b, c', hb, rfl, rfl⟩

theorem write_eq_ok_iff {x : Constant} {b : Bytes} :
    x.write = .ok b ↔ x.writable ∧ b = x.tag :: x.bodyBytes := by
  cases x <;> simp [write, writable, eq_comm]
  split <;> simp_all

theorem tag_of_ofTag? {t : UInt8} {k : ConstantKind} (h : ConstantKind.ofTag? t = some k) :
    k.tag = t := by
  simpa using List.find?_some h

/-- A constant is read from exactly the bytes that it is written as. -/
theorem takes_read : Constant.read.Takes fun x b => x.write = .ok b := by
  intro c x c'
  simp only [Constant.read, bind_eq_ok_iff, pos_eq_ok_iff, u8_eq_ok_iff, write_eq_ok_iff]
  constructor
  · rintro ⟨place, _, ⟨rfl, rfl⟩, t, m, ht, h⟩
    rcases hk : ConstantKind.ofTag? t with _ | k
    · rw [hk] at h
      exact (malformed_eq_ok_iff.mp h).elim
    · rw [hk] at h
      obtain ⟨rfl, hw, hbody⟩ := readBody_eq_ok_iff.mp h
      refine ⟨_, ⟨hw, rfl⟩, ?_⟩
      rw [tag, tag_of_ofTag? hk]
      exact ht.append hbody
  · rintro ⟨b, ⟨hw, rfl⟩, h⟩
    obtain ⟨m, ht, hbody⟩ := Cursor.advances_cons.mp h
    refine ⟨c.pos, c, ⟨rfl, rfl⟩, x.tag, m, ht, ?_⟩
    rw [tag, ConstantKind.ofTag?_tag]
    exact readBody_eq_ok_iff.mpr ⟨rfl, hw, hbody⟩

end Constant

namespace ConstantPool

open Reader

/-! ### Slots -/

/-- The slots that constants take: behind a wide one a slot stays unused. -/
def slotsOf : List Constant → List (Option Constant)
  | [] => []
  | x :: xs => if x.wide then some x :: none :: slotsOf xs else some x :: slotsOf xs

/-- A pool as reading gives it: its slots are those of a list of constants, they can be counted in
two bytes, and the constants refer to each other properly. -/
structure Proper (pool : ConstantPool) : Prop where
  slots : ∃ xs, pool.slots.toList = none :: slotsOf xs
  count_lt : pool.count < 65536
  valid : pool.validate = .ok ()

theorem slotsOf_cons (x : Constant) (xs : List Constant) :
    slotsOf (x :: xs) = slotsOf [x] ++ slotsOf xs := by
  rw [slotsOf, slotsOf]
  split <;> rfl

theorem length_slotsOf_singleton_pos (x : Constant) : 0 < (slotsOf [x]).length := by
  rw [slotsOf]
  split <;> exact Nat.succ_pos _

theorem filterMap_slotsOf (xs : List Constant) : (slotsOf xs).filterMap id = xs := by
  induction xs with
  | nil => rfl
  | cons x xs ih =>
    rw [slotsOf]
    by_cases hx : x.wide
    · rw [if_pos hx]
      simpa using ih
    · rw [if_neg hx]
      simpa using ih

theorem slotsOf_append (xs ys : List Constant) :
    slotsOf (xs ++ ys) = slotsOf xs ++ slotsOf ys := by
  induction xs with
  | nil => rfl
  | cons x xs ih =>
    rw [List.cons_append, slotsOf_cons, slotsOf_cons x xs, ih, List.append_assoc]

/-- One round of filling slots: the next constant takes its own, if they are left. -/
theorem readSlots_succ (n : Nat) (slots : Array (Option Constant)) :
    readSlots (n + 1) slots = (do
      let x ← Constant.read
      if (slotsOf [x]).length ≤ n + 1 then
        readSlots (n + 1 - (slotsOf [x]).length) (slots ++ (slotsOf [x]).toArray)
      else malformed (.wideInLastSlot slots.size)) := by
  cases n with
  | zero =>
    rw [readSlots]
    congr 1
    funext x
    by_cases hw : x.wide
    · simp [slotsOf, hw]
    · simp [slotsOf, hw, readSlots]
  | succ n =>
    rw [readSlots]
    congr 1
    funext x
    have hpush : (slots.push (some x)).push none = slots ++ #[some x, none] :=
      Array.ext' (by simp)
    by_cases hw : x.wide
    · simp [slotsOf, hw, hpush]
    · simp [slotsOf, hw]

/-- Slots are filled by reading constants that take exactly so many. -/
theorem readSlots_eq_ok_iff (n : Nat) (slots slots' : Array (Option Constant)) (c c' : Cursor) :
    readSlots n slots c = .ok slots' c' ↔
      ∃ (xs : List Constant) (b : Bytes),
        (slotsOf xs).length = n ∧ slots'.toList = slots.toList ++ slotsOf xs ∧
          Bytes.Many (fun x b => x.write = .ok b) xs b ∧ c.Advances b c' := by
  -- The first constant decides how many slots are left.
  induction n using Nat.strong_induction_on generalizing slots c with
  | _ n ih =>
  match n with
  | 0 =>
    rw [readSlots, pure_eq_ok_iff]
    constructor
    · rintro ⟨rfl, rfl⟩
      exact ⟨[], [], rfl, by simp [slotsOf], rfl, by simp⟩
    · rintro ⟨xs, b, hlen, hslots, hmany, hb⟩
      cases xs with
      | nil =>
        obtain rfl : b = [] := hmany
        exact ⟨Array.ext' (by simpa [slotsOf] using hslots.symm), by simpa using hb⟩
      | cons x xs =>
        rw [slotsOf_cons, List.length_append] at hlen
        exact absurd hlen (by have := length_slotsOf_singleton_pos x; omega)
  | n + 1 =>
    have hless (x : Constant) : n + 1 - (slotsOf [x]).length < n + 1 := by
      have := length_slotsOf_singleton_pos x
      omega
    simp only [readSlots_succ, bind_eq_ok_iff, Constant.takes_read _ _ _]
    constructor
    · rintro ⟨x, m, ⟨a, hx, ha⟩, h⟩
      by_cases hfits : (slotsOf [x]).length ≤ n + 1
      · rw [if_pos hfits] at h
        obtain ⟨xs, b, hlen, hslots, hmany, hb⟩ := (ih _ (hless x) _ _).mp h
        refine ⟨x :: xs, a ++ b, ?_, ?_, ⟨a, b, hx, hmany, rfl⟩, ha.append hb⟩
        · rw [slotsOf_cons, List.length_append]
          omega
        · rw [hslots, slotsOf_cons x xs, Array.toList_append, List.append_assoc]
      · rw [if_neg hfits] at h
        exact (malformed_eq_ok_iff.mp h).elim
    · rintro ⟨xs, b, hlen, hslots, hmany, hb⟩
      cases xs with
      | nil => exact absurd hlen (by simp [slotsOf])
      | cons x xs =>
        rw [slotsOf_cons, List.length_append] at hlen
        rw [slotsOf_cons, ← List.append_assoc] at hslots
        obtain ⟨a, items, hx, hitems, rfl⟩ := hmany
        obtain ⟨m, ha, hb⟩ := Cursor.advances_append.mp hb
        refine ⟨x, m, ⟨a, hx, ha⟩, ?_⟩
        rw [if_pos (by omega)]
        refine (ih _ (hless x) _ _).mpr ⟨xs, items, by omega, ?_, hitems, hb⟩
        rw [hslots, Array.toList_append]

theorem write_eq_ok_iff {pool : ConstantPool} {b : Bytes} {xs : List Constant}
    (hslots : pool.slots.toList = none :: slotsOf xs) :
    pool.write = .ok b ↔ ∃ items : Bytes, Bytes.Many (fun x b => x.write = .ok b) xs items ∧
      b = BigEndian.encode 2 pool.count ++ items := by
  have hconstants : pool.slots.toList.filterMap id = xs := by
    rw [hslots, List.filterMap_cons_none rfl, filterMap_slotsOf]
  simp only [write, hconstants, ← Bytes.concatMapM_eq_ok_iff]
  exact Bytes.bind_pure_eq_ok_iff

theorem count_of_slots {pool : ConstantPool} {xs : List Constant}
    (hslots : pool.slots.toList = none :: slotsOf xs) : pool.count = (slotsOf xs).length + 1 := by
  rw [count, ← Array.length_toList, hslots, List.length_cons]

/-- A proper pool is read from exactly the bytes that it is written as, and no other is read. -/
theorem takes_read : ConstantPool.read.Takes fun pool b => pool.Proper ∧ pool.write = .ok b := by
  intro c pool c'
  simp only [ConstantPool.read, bind_eq_ok_iff, ite_eq_ok_iff, malformed_eq_ok_iff, and_false,
    false_or, u16_eq_ok_iff, readSlots_eq_ok_iff, ofExcept_eq_ok_iff, pure_eq_ok_iff]
  constructor
  · rintro ⟨count, m, hcount, hzero, slots, _, ⟨xs, b, hlen, hslots, hmany, hb⟩, _, _,
      ⟨hvalid, rfl⟩, rfl, rfl⟩
    have hpos : 0 < count.toNat := by
      rcases Nat.eq_zero_or_pos count.toNat with h0 | h0
      · exact absurd (UInt16.toNat_inj.mp h0) hzero
      · exact h0
    have hcount' : ConstantPool.count ⟨slots⟩ = count.toNat := by
      rw [count_of_slots hslots]
      omega
    refine ⟨_, ⟨⟨⟨xs, hslots⟩, ?_, hvalid⟩, (write_eq_ok_iff hslots).mpr ⟨b, hmany, rfl⟩⟩, ?_⟩
    · rw [hcount']
      exact count.toNat_lt
    · rw [hcount']
      exact hcount.append hb
  · rintro ⟨b, ⟨⟨⟨xs, hslots⟩, hlt, hvalid⟩, hwrite⟩, hb⟩
    obtain ⟨items, hmany, rfl⟩ := (write_eq_ok_iff hslots).mp hwrite
    obtain ⟨m, hcount, hitems⟩ := Cursor.advances_append.mp hb
    have htoNat : (UInt16.ofNat pool.count).toNat = pool.count := UInt16.toNat_ofNat_of_lt' hlt
    have hsize := count_of_slots hslots
    have hne : UInt16.ofNat pool.count ≠ 0 := by
      intro h0
      rw [h0] at htoNat
      have : (0 : UInt16).toNat = 0 := rfl
      omega
    exact ⟨UInt16.ofNat pool.count, m, by rwa [Bytes.ofU16, htoNat], hne, pool.slots, c',
      ⟨xs, items, by omega, hslots, hmany, hitems⟩, (), c', ⟨hvalid, rfl⟩, rfl, rfl⟩

end ConstantPool

end ClassGraft
