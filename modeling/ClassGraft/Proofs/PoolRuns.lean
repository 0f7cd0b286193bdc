/-
Pools over whole runs.

A pool is new or has been read, and then constants are pushed and asked for (`PoolAction`).  Each of
these may find the pool full, the requests also after some of their parts have been added, and what
is left is worked on all the same (`ConstantPool.left`).  Whichever way a pool has come about
(`ConstantPool.Obtained`), its slots are in order (`ConstantPool.Tidy`), and whatever is done to it
then, no index becomes invalid and what is written of it is read as the same pool
(`ConstantPool.Obtained.run_keeps`).

Every step appends constants, and no more than there is room for (`ConstantPool.Confined`); the
order of the slots follows from their being those of a list of constants (`ConstantPool.Laid`).
-/
import ClassGraft.Proofs.PooledTexts

namespace ClassGraft

/-- What can be asked of a pool: the index of a constant, which is added with its parts where it is
missing. -/
inductive PoolRequest where
  | utf8 (text : String)
  | classRef (name : String)
  | nameAndType (name descriptor : String)
  | field (owner name descriptor : String)
  | method (owner name descriptor : String)
  deriving DecidableEq, Repr

/-- What can be done to a pool. -/
inductive PoolAction where
  | push (c : Constant)
  | ask (request : PoolRequest)
  deriving DecidableEq, Repr

open ConstantPool

def PoolRequest.answer : PoolRequest → PoolEdit UInt16
  | .utf8 text => utf8Index text
  | .classRef name => classIndex name
  | .nameAndType name descriptor => nameAndTypeIndex name descriptor
  | .field owner name descriptor => fieldIndex owner name descriptor
  | .method owner name descriptor => methodIndex owner name descriptor

def PoolAction.perform : PoolAction → PoolEdit UInt16
  | .push c => ConstantPool.push c
  | .ask request => request.answer

namespace ConstantPool

/-- The pool behind actions, those included that fail. -/
def run (actions : List PoolAction) (pool : ConstantPool) : ConstantPool :=
  actions.foldl (fun pool action => left action.perform pool) pool

/-- The pools that come about. -/
inductive Obtained : ConstantPool → Prop
  | empty : Obtained .empty
  | read {pool : ConstantPool} {c c' : Cursor} (h : ConstantPool.read c = .ok pool c') :
    Obtained pool
  | step {pool : ConstantPool} (h : Obtained pool) (action : PoolAction) :
    Obtained (left action.perform pool)

/-- Whether the slots of a pool are in order: slot 0 is empty, and so is the slot behind every wide
constant but no other; and two bytes can count the slots. -/
structure Tidy (pool : ConstantPool) : Prop where
  first : pool.slots[0]? = some none
  empty_iff : ∀ n, pool.slots[n + 1]? = some none ↔
    ∃ c, pool.slots[n]? = some (some c) ∧ (c.kind = .long ∨ c.kind = .double)
  size_le : pool.slots.size ≤ 65535
  counted : (UInt16.ofNat pool.count).toNat = pool.slots.size

variable {pool pool' : ConstantPool} {c : Constant} {i : UInt16}

/-! ### The slots of constants -/

theorem wide_iff : c.wide ↔ c.kind = .long ∨ c.kind = .double := by
  rw [Constant.wide]
  cases c.kind <;> simp [ConstantKind.wide]

/-- Behind a slot that holds no wide constant, the empty slots are those behind wide ones. -/
theorem getElem?_slotsOf_eq_none_iff {slot : Option Constant} (hslot : ∀ c ∈ slot, ¬c.wide)
    (xs : List Constant) (n : Nat) : (slot :: slotsOf xs)[n + 1]? = some none ↔
      ∃ c, (slot :: slotsOf xs)[n]? = some (some c) ∧ c.wide := by
  -- Before the first slot of a constant there is either a narrow constant or an empty slot.
  induction xs generalizing slot n with
  | nil =>
    cases n with
    | zero => simpa [slotsOf] using hslot
    | succ n => simp [slotsOf]
  | cons x xs ih =>
    by_cases hx : x.wide
    · rw [slotsOf, if_pos hx]
      rcases n with _ | _ | n
      · simpa using hslot
      · simp [hx]
      · exact ih (by simp) n
    · rw [slotsOf, if_neg hx]
      cases n with
      | zero => simpa using hslot
      | succ n => exact ih (by simpa using hx) n

/-- What every step keeps: the slots are those of a list of constants, and no more than fit. -/
structure Laid (pool : ConstantPool) : Prop where
  slots : ∃ xs, pool.slots.toList = none :: slotsOf xs
  count_le : pool.count ≤ maxSlots

theorem Laid.tidy (h : pool.Laid) : pool.Tidy where
  first := by
    obtain ⟨xs, hxs⟩ := h.slots
    rw [← Array.getElem?_toList, hxs, List.getElem?_cons_zero]
  empty_iff := by
    intro n
    obtain ⟨xs, hxs⟩ := h.slots
    simp only [← Array.getElem?_toList, hxs, ← wide_iff]
    exact getElem?_slotsOf_eq_none_iff (by simp) xs n
  size_le := h.count_le
  counted := UInt16.toNat_ofNat_of_lt' (Nat.lt_succ_of_le h.count_le)

theorem Proper.laid (h : pool.Proper) : pool.Laid := ⟨h.slots, h.count_le⟩

theorem Laid.proper (h : pool.Laid) (hvalid : pool.validate = .ok ()) : pool.Proper :=
  ⟨h.slots, Nat.lt_succ_of_le h.count_le, hvalid⟩

theorem laid_empty : ConstantPool.empty.Laid := ⟨⟨[], rfl⟩, by decide⟩

/-! ### Steps -/

theorem Confined.laid {α : Type} {m : PoolEdit α} (hm : Confined m) (h : pool.Laid) :
    (left m pool).Laid where
  slots := by
    obtain ⟨xs, hxs⟩ := h.slots
    obtain ⟨added, hadded⟩ := hm.growth pool
    exact ⟨xs ++ added, by rw [hadded, hxs, slotsOf_append, List.cons_append]⟩
  count_le := hm.room pool h.count_le

end ConstantPool

theorem PoolRequest.confined_answer (request : PoolRequest) : Confined request.answer := by
  cases request with
  | utf8 text => exact confined_intern _
  | classRef name => exact confined_classIndex name
  | nameAndType name descriptor => exact confined_nameAndTypeIndex name descriptor
  | field owner name descriptor => exact confined_memberIndex .fieldRef owner name descriptor
  | method owner name descriptor => exact confined_memberIndex .methodRef owner name descriptor

theorem PoolRequest.stopsWith_answer (request : PoolRequest) :
    Step.StopsWith [.poolFull] request.answer := by
  cases request with
  | utf8 text => exact stopsWith_utf8Index text
  | classRef name => exact stopsWith_classIndex name
  | nameAndType name descriptor => exact stopsWith_nameAndTypeIndex name descriptor
  | field owner name descriptor => exact stopsWith_fieldIndex owner name descriptor
  | method owner name descriptor => exact stopsWith_methodIndex owner name descriptor

theorem PoolAction.confined_perform (action : PoolAction) : Confined action.perform := by
  cases action with
  | push c => exact confined_push c
  | ask request => exact request.confined_answer

theorem PoolAction.stopsWith_perform (action : PoolAction) :
    Step.StopsWith [.poolFull] action.perform := by
  cases action with
  | push c => exact stopsWith_push c
  | ask request => exact request.stopsWith_answer

theorem Fault.eq_poolFull {fault : Fault} (h : fault.kind ∈ [FaultKind.poolFull]) :
    fault = .poolFull := by
  cases fault with
  | poolFull => rfl
  | _ => exact absurd h (by simp [kind])

/-! ### Runs -/

namespace ConstantPool

variable {pool : ConstantPool}

theorem Obtained.laid (h : pool.Obtained) : pool.Laid := by
  induction h with
  | empty => exact laid_empty
  | read h =>
    obtain ⟨_, ⟨hproper, -⟩, -⟩ := (takes_read _ _ _).mp h
    exact hproper.laid
  | step _ action ih => exact action.confined_perform.laid ih

theorem Obtained.run (h : pool.Obtained) (actions : List PoolAction) :
    (pool.run actions).Obtained := by
  induction actions generalizing pool with
  | nil => exact h
  | cons action actions ih => exact ih (h.step action)

theorem extends_run (actions : List PoolAction) (pool : ConstantPool) :
    pool.Extends (pool.run actions) := by
  induction actions generalizing pool with
  | nil => exact Extends.refl pool
  | cons action actions ih => exact (action.confined_perform.growth pool).trans (ih _)

/-- A pool with short texts and proper references is read from what it is written as, whatever
follows. -/
theorem Laid.read_write (h : pool.Laid) (htexts : ∀ text ∈ pool.texts, text.length ≤ 65535)
    (hvalid : pool.validate = .ok ()) : ∃ bytes, pool.write = .ok bytes ∧
      ∀ n rest, ConstantPool.read ⟨n, bytes ++ rest⟩ = .ok pool ⟨n + bytes.length, rest⟩ := by
  obtain ⟨bytes, hbytes⟩ := exists_write_iff.mpr htexts
  refine ⟨bytes, hbytes, fun n rest => ?_⟩
  exact (takes_read _ _ _).mpr ⟨bytes, ⟨h.proper hvalid, hbytes⟩, rfl, rfl⟩

/-- Whatever is done to a pool, its slots stay in order and its indices valid, only want of room
makes an action fail, and it can be written and read again. -/
theorem Obtained.run_keeps (h : pool.Obtained) (actions : List PoolAction) :
    (pool.run actions).Tidy ∧
      (∀ i c, pool.lookup i = .ok c → (pool.run actions).lookup i = .ok c) ∧
      (∀ (action : PoolAction) fault pool',
        action.perform (pool.run actions) = .error fault pool' → fault = .poolFull) ∧
      ((∀ text ∈ (pool.run actions).texts, text.length ≤ 65535) →
        (pool.run actions).validate = .ok () → ∃ bytes, (pool.run actions).write = .ok bytes ∧
          ∀ n rest, ConstantPool.read ⟨n, bytes ++ rest⟩ =
            .ok (pool.run actions) ⟨n + bytes.length, rest⟩) := by
  have hlaid := (h.run actions).laid
  refine ⟨hlaid.tidy, fun i c => (extends_run actions pool).lookup, ?_, hlaid.read_write⟩
  intro action fault pool' hfault
  exact Fault.eq_poolFull (action.stopsWith_perform _ fault pool' hfault)

/-- A pool that holds one wide constant. -/
def oneWide : ConstantPool := ⟨#[none, some (.long 7), none]⟩

/-- The pool behind `oneWide` and the actions of `wideActions`. -/
def twoWide : ConstantPool :=
  ⟨#[none, some (.long 7), none, some (.double 0), none, some (.utf8 [65]), some (.classRef 5)]⟩

/-- A further wide constant and the name of a class, of which the text is asked for again. -/
def wideActions : List PoolAction := [.push (.double 0), .ask (.classRef "A"), .ask (.utf8 "A")]

theorem obtained_oneWide : oneWide.Obtained :=
  .read (show ConstantPool.read (.start [0, 3, 5, 0, 0, 0, 0, 0, 0, 0, 7]) = .ok oneWide ⟨11, []⟩
    from rfl)

theorem run_wideActions : oneWide.run wideActions = twoWide := by cbv

theorem run_keeps_oneWide : oneWide.Obtained ∧ twoWide.Tidy ∧ ∃ bytes,
    twoWide.write = .ok bytes ∧
      ConstantPool.read ⟨0, bytes ++ [1]⟩ = .ok twoWide ⟨bytes.length, [1]⟩ := by
  have h := obtained_oneWide.run_keeps wideActions
  rw [run_wideActions] at h
  obtain ⟨htidy, -, -, hwritten⟩ := h
  obtain ⟨bytes, hbytes, hagain⟩ := hwritten (by decide) (by decide +kernel)
  exact ⟨obtained_oneWide, htidy, bytes, hbytes, (hagain 0 [1]).trans (by rw [Nat.zero_add])⟩

end ConstantPool

end ClassGraft
