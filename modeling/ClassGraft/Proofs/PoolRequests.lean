/-
Requests to a pool.

A request that succeeds is answered with an index behind which stands what was asked for
(`PoolRequest.Resolves`), and asked again it is answered with the same index and adds nothing
(`ConstantPool.Settles`).  Nothing else changes: whatever was behind an index stays there, whether
the request succeeds or fails, and a valid pool stays valid (`ConstantPool.Obtained.answers`).

The pool may hold what it likes, constants that are there twice and such as refer to nothing: a
request finds the first constant that equals the one it wants, or else the one that it has added.
-/
import ClassGraft.Proofs.PoolRuns

namespace ClassGraft

namespace ConstantPool

/-! ### Requests made again -/

/-- The first index of a constant is the first one in a larger pool. -/
theorem Extends.indexOf?_eq_some {pool pool' : ConstantPool} (h : pool.Extends pool')
    {c : Constant} {i : UInt16} (hi : pool.indexOf? c = some i) : pool'.indexOf? c = some i := by
  obtain ⟨added, hadded⟩ := h
  rw [indexOf?_eq, Option.map_eq_some_iff] at hi ⊢
  obtain ⟨n, hn, hni⟩ := hi
  refine ⟨n, ?_, hni⟩
  rw [hadded, List.findIdx?_append, hn, Option.some_or]

/-- A constant that has been appended for want of an equal one is the first of its kind. -/
theorem indexOf?_append {pool : ConstantPool} {c : Constant} (h : pool.indexOf? c = none) :
    (pool.append c).indexOf? c = some (UInt16.ofNat pool.count) := by
  have hfirst : (slotsOf [c]).findIdx? (· == some c) = some 0 := by
    rw [slotsOf, slotsOf]
    split
    all_goals rw [List.findIdx?_cons, if_pos (beq_self_eq_true _)]
  rw [indexOf?_eq, Option.map_eq_none_iff] at h
  rw [indexOf?_eq, append_eq, List.findIdx?_append, h, Option.none_or, hfirst]
  simp [count]

/-- Whether an edit that is made again, in the pool that it has left or a larger one, answers the
same and adds nothing. -/
structure Settles {α : Type} (m : PoolEdit α) : Prop where
  appends : Appends m
  again : ∀ ⦃pool x pool'⦄, m pool = .ok x pool' →
    ∀ ⦃pool''⦄, pool'.Extends pool'' → m pool'' = .ok x pool''

theorem Settles.pure {α : Type} (x : α) : Settles (Pure.pure x : PoolEdit α) where
  appends := by
    intro pool y pool' h
    obtain ⟨-, rfl⟩ := Step.pure_eq_ok_iff.mp h
    exact Extends.refl pool
  again := by
    intro pool y pool' h pool'' _
    obtain ⟨rfl, -⟩ := Step.pure_eq_ok_iff.mp h
    exact Step.pure_eq_ok_iff.mpr ⟨rfl, rfl⟩

theorem Settles.bind {α β : Type} {m : PoolEdit α} {f : α → PoolEdit β} (hm : Settles m)
    (hf : ∀ x, Settles (f x)) : Settles (m >>= f) where
  appends := hm.appends.bind fun x => (hf x).appends
  again := by
    intro pool y pool' h pool'' hext
    obtain ⟨x, pool₁, hx, hy⟩ := Step.bind_eq_ok_iff.mp h
    -- What the first part has left has grown through the second one.
    have hgrown := (hf x).appends hy
    exact Step.bind_eq_ok_iff.mpr ⟨x, pool'', hm.again hx (hgrown.trans hext),
      (hf x).again hy hext⟩

theorem settles_intern (c : Constant) : Settles (intern c) where
  appends := appends_intern c
  again := by
    intro pool i pool' h pool'' hext
    refine intern_eq_ok_iff.mpr (.inl ⟨hext.indexOf?_eq_some ?_, rfl⟩)
    rcases intern_eq_ok_iff.mp h with ⟨hi, rfl⟩ | ⟨hnone, -, rfl, rfl⟩
    · exact hi
    · exact indexOf?_append hnone

theorem settles_classIndex (name : String) : Settles (classIndex name) :=
  (settles_intern _).bind fun _ => settles_intern _

theorem settles_nameAndTypeIndex (name descriptor : String) :
    Settles (nameAndTypeIndex name descriptor) :=
  (settles_intern _).bind fun _ => (settles_intern _).bind fun _ => settles_intern _

theorem settles_memberIndex (constant : UInt16 → UInt16 → Constant)
    (owner name descriptor : String) : Settles (memberIndex constant owner name descriptor) :=
  (settles_classIndex owner).bind fun _ =>
    (settles_nameAndTypeIndex name descriptor).bind fun _ => settles_intern _

end ConstantPool

open ConstantPool

namespace PoolRequest

/-! ### What is answered -/

/-- What stands behind an index if it answers a request. -/
def Resolves (pool : ConstantPool) (i : UInt16) : PoolRequest → Prop
  | .utf8 text => pool.utf8 i = .ok text
  | .classRef name => pool.className i = .ok name
  | .nameAndType name descriptor => pool.nameAndType i = .ok (name, descriptor)
  | .field owner name descriptor => (∃ o n, pool.lookup i = .ok (.fieldRef o n)) ∧
      pool.memberRef i = .ok ⟨i, owner, name, descriptor⟩
  | .method owner name descriptor => (∃ o n, pool.lookup i = .ok (.methodRef o n)) ∧
      pool.memberRef i = .ok ⟨i, owner, name, descriptor⟩

variable {pool pool' : ConstantPool} {i : UInt16}

theorem settles_answer (request : PoolRequest) : Settles request.answer := by
  cases request with
  | utf8 text => exact settles_intern _
  | classRef name => exact settles_classIndex name
  | nameAndType name descriptor => exact settles_nameAndTypeIndex name descriptor
  | field owner name descriptor => exact settles_memberIndex .fieldRef owner name descriptor
  | method owner name descriptor => exact settles_memberIndex .methodRef owner name descriptor

/-- Where slots can be counted, the answer is an index of what was asked for. -/
theorem resolves_answer {request : PoolRequest} (h : request.answer pool = .ok i pool')
    (hcount : pool'.count ≤ maxSlots) : request.Resolves pool' i := by
  cases request with
  | utf8 text => exact utf8_of_utf8Index h hcount
  | classRef name => exact className_of_classIndex h hcount
  | nameAndType name descriptor => exact nameAndType_of_nameAndTypeIndex h hcount
  | field owner name descriptor =>
    obtain ⟨⟨o, n, hi⟩, hmember⟩ := memberRef_of_memberIndex makesMembers_fieldRef h hcount
    exact ⟨⟨o, n, lookup_eq_ok_iff.mpr hi⟩, hmember⟩
  | method owner name descriptor =>
    obtain ⟨⟨o, n, hi⟩, hmember⟩ := memberRef_of_memberIndex makesMembers_methodRef h hcount
    exact ⟨⟨o, n, lookup_eq_ok_iff.mpr hi⟩, hmember⟩

theorem validate_answer {request : PoolRequest} (h : request.answer pool = .ok i pool')
    (hvalid : pool.validate = .ok ()) : pool'.validate = .ok () := by
  cases request with
  | utf8 text => exact (furnishes_utf8Index text).valid h hvalid
  | classRef name => exact (furnishes_classIndex name).valid h hvalid
  | nameAndType name descriptor =>
    exact (furnishes_nameAndTypeIndex name descriptor).valid h hvalid
  | field owner name descriptor => exact validate_of_memberIndex makesMembers_fieldRef h hvalid
  | method owner name descriptor => exact validate_of_memberIndex makesMembers_methodRef h hvalid

end PoolRequest

/-- A request is answered with an index of what was asked for, or else the pool is full; in both
cases no index becomes invalid. -/
theorem ConstantPool.Obtained.answers {pool : ConstantPool} (h : pool.Obtained)
    (request : PoolRequest) :
    match request.answer pool with
    | .ok i pool' => request.Resolves pool' i ∧
        (∀ j c, pool.lookup j = .ok c → pool'.lookup j = .ok c) ∧
        (pool.validate = .ok () → pool'.validate = .ok ()) ∧ request.answer pool' = .ok i pool'
    | .error fault pool' => fault = .poolFull ∧
        ∀ j c, pool.lookup j = .ok c → pool'.lookup j = .ok c := by
  have hconfined := request.confined_answer
  have hext := hconfined.growth pool
  cases hanswer : request.answer pool with
  | ok i pool' =>
    have hleft := left_eq_of_ok hanswer
    have hcount : pool'.count ≤ maxSlots := hleft ▸ hconfined.room pool h.laid.count_le
    refine ⟨PoolRequest.resolves_answer hanswer hcount, fun j c => (hleft ▸ hext).lookup, ?_, ?_⟩
    · exact PoolRequest.validate_answer hanswer
    · exact request.settles_answer.again hanswer (Extends.refl pool')
  | error fault pool' =>
    have hleft := left_eq_of_error hanswer
    exact ⟨Fault.eq_poolFull (request.stopsWith_answer pool fault pool' hanswer),
      fun j c => (hleft ▸ hext).lookup⟩

/-- A field of the class in `twoWide`, whose name is a NUL, finds the class there. -/
theorem ConstantPool.answers_twoWide : twoWide.Obtained ∧
    ∃ pool, (PoolRequest.field "A" "\x00" "D").answer twoWide = .ok 10 pool ∧
      pool.lookup 10 = .ok (.fieldRef 6 9) ∧ pool.memberRef 10 = .ok ⟨10, "A", "\x00", "D"⟩ ∧
      pool.lookup 1 = .ok (.long 7) ∧
      (PoolRequest.field "A" "\x00" "D").answer pool = .ok 10 pool := by
  have hobtained : twoWide.Obtained := run_wideActions ▸ obtained_oneWide.run wideActions
  have hanswer : (PoolRequest.field "A" "\x00" "D").answer twoWide = .ok 10
      ⟨twoWide.slots ++ #[some (.utf8 [192, 128]), some (.utf8 [68]), some (.nameAndType 7 8),
        some (.fieldRef 6 9)]⟩ := by cbv
  have hanswers := hobtained.answers (.field "A" "\x00" "D")
  rw [hanswer] at hanswers
  obtain ⟨⟨-, hmember⟩, hkept, -, hagain⟩ := hanswers
  exact ⟨hobtained, _, hanswer, rfl, hmember, hkept 1 _ rfl, hagain⟩

end ClassGraft
