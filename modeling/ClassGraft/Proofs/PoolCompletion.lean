/-
Pools without a limit.

What is asked of a pool is found there or appended with the parts that are missing.  Here it is
appended however many slots there are (`ConstantPool.supply`).  An edit of a pool does the same as
long as the slots that there are in the end can be counted, and fails otherwise
(`ConstantPool.Realizes`), so what is missing fits a pool exactly if the supplied pool is not too
large.
-/
import ClassGraft.Proofs.PoolGrowth

namespace ClassGraft

namespace ConstantPool

/-! ### Supplies -/

/-- The first index of a constant, which is appended where it is missing. -/
def supply (c : Constant) : StateM ConstantPool UInt16 := fun pool =>
  match pool.indexOf? c with
  | some index => (index, pool)
  | none => (UInt16.ofNat pool.count, pool.append c)

def supplyText (text : String) : StateM ConstantPool UInt16 :=
  supply (.utf8 (ModifiedUtf8.encode text))

def supplyClass (name : String) : StateM ConstantPool UInt16 := do
  supply (.classRef (← supplyText name))

def supplyNameAndType (name descriptor : String) : StateM ConstantPool UInt16 := do
  let name ← supplyText name
  let descriptor ← supplyText descriptor
  supply (.nameAndType name descriptor)

/-- The index of a member, of which `constant` makes a constant. -/
def supplyMember (constant : UInt16 → UInt16 → Constant) (owner name descriptor : String) :
    StateM ConstantPool UInt16 := do
  let owner ← supplyClass owner
  let nat ← supplyNameAndType name descriptor
  supply (constant owner nat)

/-! ### Edits -/

/-- Whether an edit answers and leaves what `grow` does, where the slots that there are then can be
counted, and fails elsewhere. -/
structure Realizes {α : Type} (grow : StateM ConstantPool α) (m : PoolEdit α) : Prop where
  growth : ∀ pool : ConstantPool, pool.Extends (grow pool).2
  eq_ok_iff : ∀ {pool : ConstantPool} {x : α} {pool' : ConstantPool}, pool.count ≤ maxSlots →
    (m pool = .ok x pool' ↔ grow pool = (x, pool') ∧ pool'.count ≤ maxSlots)

theorem Realizes.pure {α : Type} (x : α) :
    Realizes (Pure.pure x : StateM ConstantPool α) (Pure.pure x) where
  growth := Extends.refl
  eq_ok_iff := by
    intro pool y pool' hpool
    rw [Step.pure_eq_ok_iff]
    show _ ↔ (x, pool) = (y, pool') ∧ _
    rw [Prod.mk.injEq]
    constructor
    · rintro ⟨rfl, rfl⟩
      exact ⟨⟨rfl, rfl⟩, hpool⟩
    · rintro ⟨h, -⟩
      exact h

/-- What the second part leaves can be counted only if what the first part leaves can be. -/
theorem Realizes.bind {α β : Type} {grow : StateM ConstantPool α} {m : PoolEdit α}
    {further : α → StateM ConstantPool β} {f : α → PoolEdit β} (hm : Realizes grow m)
    (hf : ∀ x, Realizes (further x) (f x)) : Realizes (grow >>= further) (m >>= f) where
  growth := by
    intro pool
    exact (hm.growth pool).trans ((hf _).growth _)
  eq_ok_iff := by
    intro pool y pool'' hpool
    show _ ↔ further (grow pool).1 (grow pool).2 = _ ∧ _
    rw [Step.bind_eq_ok_iff]
    constructor
    · rintro ⟨x, pool', hx, hy⟩
      obtain ⟨hgrow, hpool'⟩ := (hm.eq_ok_iff hpool).mp hx
      rw [hgrow]
      exact ((hf x).eq_ok_iff hpool').mp hy
    · rintro ⟨hfurther, hpool''⟩
      have hext := (hf (grow pool).1).growth (grow pool).2
      rw [hfurther] at hext
      have hpool' : (grow pool).2.count ≤ maxSlots := hext.count_le.trans hpool''
      exact ⟨(grow pool).1, (grow pool).2, (hm.eq_ok_iff hpool).mpr ⟨rfl, hpool'⟩,
        ((hf _).eq_ok_iff hpool').mpr ⟨hfurther, hpool''⟩⟩

theorem realizes_intern (c : Constant) : Realizes (supply c) (intern c) where
  growth := by
    intro pool
    rw [supply]
    cases pool.indexOf? c with
    | some index => exact Extends.refl pool
    | none => exact extends_append pool c
  eq_ok_iff := by
    intro pool i pool' hpool
    rw [intern_eq_ok_iff, supply]
    cases pool.indexOf? c with
    | some index =>
      rw [Prod.mk.injEq]
      constructor
      · rintro (⟨hi, rfl⟩ | ⟨hnone, -⟩)
        · exact ⟨⟨Option.some.inj hi, rfl⟩, hpool⟩
        · exact absurd hnone (by simp)
      · rintro ⟨⟨rfl, rfl⟩, -⟩
        exact .inl ⟨rfl, rfl⟩
    | none =>
      rw [Prod.mk.injEq]
      constructor
      · rintro (⟨hsome, -⟩ | ⟨-, hroom, rfl, rfl⟩)
        · exact absurd hsome (by simp)
        · exact ⟨⟨rfl, rfl⟩, (count_append pool c).trans_le hroom⟩
      · rintro ⟨⟨rfl, rfl⟩, hroom⟩
        exact .inr ⟨rfl, (count_append pool c).symm.trans_le hroom, rfl, rfl⟩

theorem realizes_classIndex (name : String) : Realizes (supplyClass name) (classIndex name) :=
  (realizes_intern _).bind fun _ => realizes_intern _

theorem realizes_nameAndTypeIndex (name descriptor : String) :
    Realizes (supplyNameAndType name descriptor) (nameAndTypeIndex name descriptor) :=
  (realizes_intern _).bind fun _ => (realizes_intern _).bind fun _ => realizes_intern _

theorem realizes_memberIndex (constant : UInt16 → UInt16 → Constant)
    (owner name descriptor : String) :
    Realizes (supplyMember constant owner name descriptor)
      (memberIndex constant owner name descriptor) :=
  (realizes_classIndex owner).bind fun _ =>
    (realizes_nameAndTypeIndex name descriptor).bind fun _ => realizes_intern _

end ConstantPool

end ClassGraft
