/-
Where a class file ends.

A class file is read from left to right, and no part of it looks behind its own last byte.  So a
reader that is given more bytes does what it did before and leaves the new ones ahead
(`Reader.Onward`), unless it had run out of bytes; this is proved reader by reader, up to tables of
members.  Bodies and attributes are cut out by their length first, and what is then made of them
depends on the cut alone.

Only the check for the end of the file sees what follows (`Reader.Final`).  A file that is read thus
ends where it must: every shorter one is cut off, every longer one has trailing bytes
(`ClassFile.ofBytes_prefix_free`).  Until the end nothing but the front counts, so that a front
that is refused for its contents is refused for them whatever follows
(`ClassFile.ofBytes_append_cases`).
-/
import ClassGraft.Proofs.RoundTrip

namespace ClassGraft

/-- The same place, with more bytes ahead. -/
def Cursor.before (c : Cursor) (behind : Bytes) : Cursor := ⟨c.pos, c.rest ++ behind⟩

namespace Reader

/-! ### Readers that do not look behind what they read -/

/-- What becomes of an outcome if `behind` follows the bytes that were read: a value and a fault
stay, and only where bytes were missing anything may happen. -/
inductive Lasts {α : Type} (behind : Bytes) :
    EStateM.Result Fault Cursor α → EStateM.Result Fault Cursor α → Prop
  | ok (x : α) (c : Cursor) : Lasts behind (.ok x c) (.ok x (c.before behind))
  | error (fault : Fault) (c c' : Cursor) : Lasts behind (.error fault c) (.error fault c')
  | missing (c : Cursor) (outcome : EStateM.Result Fault Cursor α) :
    Lasts behind (.error .outOfBounds c) outcome

/-- Whether bytes behind those that a reader needs make no difference to it. -/
def Onward {α : Type} (r : Reader α) : Prop :=
  ∀ (c : Cursor) (behind : Bytes), Lasts behind (r c) (r (c.before behind))

namespace Onward

variable {α β : Type} {r : Reader α}

theorem pure (x : α) : Onward (Pure.pure x : Reader α) := fun c _ => .ok x c

theorem throw (fault : Fault) : Onward (MonadExcept.throw fault : Reader α) :=
  fun c _ => .error fault c _

theorem ofExcept (e : Except Fault α) : Onward (Reader.ofExcept e) := by
  cases e with
  | ok x => exact .pure x
  | error fault => exact .throw fault

theorem malformed (cause : Malformation) : Onward (Reader.malformed cause : Reader α) := .throw _

theorem pos : Onward Reader.pos := fun c _ => .ok c.pos c

theorem bind (h : Onward r) {f : α → Reader β} (hf : ∀ x, Onward (f x)) : Onward (r >>= f) := by
  intro c behind
  show Lasts behind (EStateM.bind r f c) (EStateM.bind r f (c.before behind))
  have hlasts := h c behind
  rw [EStateM.bind, EStateM.bind]
  generalize r c = short at hlasts ⊢
  generalize r (c.before behind) = long at hlasts ⊢
  cases hlasts with
  | ok x m => exact hf x m behind
  | error fault m m' => exact .error fault m m'
  | missing m => exact .missing m _

/-- A read whose value is looked at in another way. -/
theorem then_pure (h : Onward r) (f : α → β) : Onward (r >>= fun x => Pure.pure (f x)) :=
  h.bind fun _ => .pure _

theorem ite {p : Prop} [Decidable p] {s : Reader α} (hr : Onward r) (hs : Onward s) :
    Onward (if p then r else s) := by
  split
  · exact hr
  · exact hs

/-- If enough bytes lie ahead, the same are the next ones when more follow. -/
theorem bytes (n : Nat) : Onward (Reader.bytes n) := by
  intro c behind
  by_cases hn : n ≤ c.rest.length
  · have hfront : (c.rest ++ behind).take n = c.rest.take n := List.take_append_of_le_length hn
    have hback : (c.rest ++ behind).drop n = c.rest.drop n ++ behind :=
      List.drop_append_of_le_length hn
    have hlen : (c.rest.take n).length = n := List.length_take_of_le hn
    simp only [Reader.bytes, Cursor.before, hfront, hback, hlen, if_true]
    exact .ok (c.rest.take n) ⟨c.pos + n, c.rest.drop n⟩
  · have hlen : (c.rest.take n).length ≠ n := by
      rw [List.length_take]
      omega
    simp only [Reader.bytes, hlen, if_false]
    exact .missing c _

theorem word (width : Nat) : Onward (Reader.word width) := (bytes width).then_pure _

theorem u8 : Onward Reader.u8 := (word 1).then_pure _

theorem u16 : Onward Reader.u16 := (word 2).then_pure _

theorem u32 : Onward Reader.u32 := (word 4).then_pure _

theorem u64 : Onward Reader.u64 := (word 8).then_pure _

theorem i32 : Onward Reader.i32 := u32.then_pure _

theorem i64 : Onward Reader.i64 := u64.then_pure _

theorem times (h : Onward r) (n : Nat) : Onward (Reader.times n r) := by
  -- The items that have been read wait in reverse, so the induction is for any of them.
  have honto : ∀ n done, Onward (timesOnto r n done) := by
    intro n
    induction n with
    | zero => exact fun done => .pure _
    | succ n ih => exact fun done => h.bind fun x => ih (x :: done)
  exact honto n []

theorem table (h : Onward r) : Onward (Reader.table r) :=
  u16.bind fun count => h.times count.toNat

end Onward

end Reader

open Reader

/-! ### The parts of a class file -/

theorem Constant.onward_readBody (kind : ConstantKind) : Onward (readBody kind) := by
  have hpair : ∀ f : UInt16 → UInt16 → Constant, Onward do return f (← u16) (← u16) :=
    fun f => Onward.u16.bind fun a => Onward.u16.then_pure (f a)
  cases kind with
  | utf8 => exact Onward.u16.bind fun length => (Onward.bytes length.toNat).then_pure _
  | integer => exact Onward.i32.then_pure _
  | float => exact Onward.u32.then_pure _
  | long => exact Onward.i64.then_pure _
  | double => exact Onward.u64.then_pure _
  | classRef | string | methodType | module | package => exact Onward.u16.then_pure _
  | methodHandle => exact Onward.u8.bind fun _ => Onward.u16.then_pure _
  | fieldRef | methodRef | interfaceMethodRef | nameAndType | dynamic | invokeDynamic =>
    exact hpair _

/-- An unknown tag is reported with its place, which is counted from the front. -/
theorem Constant.onward_read : Onward Constant.read := by
  refine Onward.pos.bind fun place => Onward.u8.bind fun tag => ?_
  split
  · exact onward_readBody _
  · exact .malformed _

namespace ConstantPool

theorem onward_readSlots (n : Nat) (slots : Array (Option Constant)) :
    Onward (readSlots n slots) := by
  fun_induction readSlots n slots with
  | case1 slots => exact .pure slots
  | case2 slots =>
    exact Constant.onward_read.bind fun c => .ite (.malformed _) (.pure _)
  | case3 n slots ih₂ ih₁ =>
    exact Constant.onward_read.bind fun c => .ite (ih₂ c) (ih₁ c)

theorem onward_read : Onward ConstantPool.read := by
  refine Onward.u16.bind fun count => .ite (.malformed _) ?_
  exact (onward_readSlots _ _).bind fun slots => (Onward.ofExcept _).then_pure _

end ConstantPool

theorem RawAttribute.onward_read : Onward RawAttribute.read :=
  Onward.u16.bind fun _ => Onward.u32.bind fun length => (Onward.bytes length.toNat).then_pure _

theorem Field.onward_read (pool : ConstantPool) : Onward (Field.read pool) := by
  refine Onward.u16.bind fun access => Onward.u16.bind fun nameIndex => ?_
  refine Onward.u16.bind fun descriptorIndex => (Onward.ofExcept _).bind fun name => ?_
  exact (Onward.ofExcept _).bind fun descriptor => RawAttribute.onward_read.table.then_pure _

/-- A body is read from the bytes of its attribute, so it may well look at their end. -/
theorem MethodAttribute.onward_read [Build] (pool : ConstantPool) : Onward
    (MethodAttribute.read pool) := by
  refine RawAttribute.onward_read.bind fun raw => (Onward.ofExcept _).bind fun name => ?_
  exact .ite ((Onward.ofExcept _).then_pure _) (.pure _)

theorem Method.onward_read [Build] (pool : ConstantPool) : Onward (Method.read pool) := by
  refine Onward.u16.bind fun access => Onward.u16.bind fun nameIndex => ?_
  refine Onward.u16.bind fun descriptorIndex => ?_
  refine (MethodAttribute.onward_read pool).table.bind fun attributes => ?_
  exact (Onward.ofExcept _).bind fun name => (Onward.ofExcept _).then_pure _

namespace ClassFile

theorem onward_readClass (pool : ConstantPool) : Onward (readClass pool) :=
  Onward.u16.bind fun _ => (Onward.ofExcept _).then_pure _

theorem onward_readSuperClass (pool : ConstantPool) : Onward (readSuperClass pool) :=
  Onward.u16.bind fun _ => .ite ((Onward.ofExcept _).then_pure _) (.pure _)

end ClassFile

/-! ### The end of the file -/

namespace Reader

/-- What becomes of an outcome if `behind` follows the bytes of a whole file: all of it is
trailing. -/
inductive Spills {α : Type} (behind : Bytes) :
    EStateM.Result Fault Cursor α → EStateM.Result Fault Cursor α → Prop
  | ok (x : α) (c c' : Cursor) :
    Spills behind (.ok x c) (.error (.malformed (.classTrailing behind.length)) c')
  | trailing (n : Nat) (c c' : Cursor) :
    Spills behind (.error (.malformed (.classTrailing n)) c)
      (.error (.malformed (.classTrailing (n + behind.length))) c')
  | error (fault : Fault) (c c' : Cursor) : Spills behind (.error fault c) (.error fault c')
  | missing (c : Cursor) (outcome : EStateM.Result Fault Cursor α) :
    Spills behind (.error .outOfBounds c) outcome

/-- Whether a reader takes the bytes ahead for all there is. -/
def Final {α : Type} (r : Reader α) : Prop :=
  ∀ (c : Cursor) (behind : Bytes), behind ≠ [] → Spills behind (r c) (r (c.before behind))

variable {α β : Type} {r : Reader α}

/-- After parts that do not look behind what they read, the last part decides. -/
theorem Final.bind (h : Onward r) {f : α → Reader β} (hf : ∀ x, Final (f x)) :
    Final (r >>= f) := by
  intro c behind hbehind
  show Spills behind (EStateM.bind r f c) (EStateM.bind r f (c.before behind))
  have hlasts := h c behind
  rw [EStateM.bind, EStateM.bind]
  generalize r c = short at hlasts ⊢
  generalize r (c.before behind) = long at hlasts ⊢
  cases hlasts with
  | ok x m => exact hf x m behind hbehind
  | error fault m m' => exact .error fault m m'
  | missing m => exact .missing m _

theorem Final.malformed (cause : Malformation) : Final (Reader.malformed cause : Reader α) :=
  fun c _ _ => .error _ c _

theorem Final.atEnd (x : α) :
    Final (do
      let left ← remaining
      if left = 0 then return x else Reader.malformed (.classTrailing left)) := by
  intro c behind hbehind
  have hlong : (c.rest ++ behind).length ≠ 0 := by simp [hbehind]
  show Spills behind
    ((if c.rest.length = 0 then pure x else Reader.malformed (.classTrailing c.rest.length)) c)
    ((if (c.rest ++ behind).length = 0 then pure x
      else Reader.malformed (.classTrailing (c.rest ++ behind).length)) (c.before behind))
  rw [if_neg hlong, List.length_append]
  by_cases hrest : c.rest.length = 0
  · rw [if_pos hrest, hrest, Nat.zero_add]
    exact .ok x c _
  · rw [if_neg hrest]
    exact .trailing _ c _

end Reader

namespace ClassFile

theorem final_read [Build] : Final ClassFile.read := by
  refine Final.bind .u32 fun magic => ?_
  split
  · exact .malformed _
  · refine Final.bind .u16 fun minor => Final.bind .u16 fun major => ?_
    refine Final.bind ConstantPool.onward_read fun pool => Final.bind .u16 fun access => ?_
    refine Final.bind (onward_readClass pool) fun thisClass => ?_
    refine Final.bind (onward_readSuperClass pool) fun superClass => ?_
    refine Final.bind Onward.u16.table fun interfaces => ?_
    refine Final.bind (Field.onward_read pool).table fun fields => ?_
    refine Final.bind (Method.onward_read pool).table fun methods => ?_
    exact Final.bind RawAttribute.onward_read.table fun attributes => .atEnd _

/-- What becomes of a file if `behind` follows it. -/
theorem ofBytes_append_cases [Build] {bytes behind : Bytes} (hbytes : bytes ≠ [])
    (hbehind : behind ≠ []) : (∃ c, ofBytes bytes = .ok c ∧
        ofBytes (bytes ++ behind) = .error (.malformed (.classTrailing behind.length))) ∨
      (∃ n, ofBytes bytes = .error (.malformed (.classTrailing n)) ∧
        ofBytes (bytes ++ behind) = .error (.malformed (.classTrailing (n + behind.length)))) ∨
      (∃ fault, ofBytes bytes = .error fault ∧ ofBytes (bytes ++ behind) = .error fault) ∨
      ofBytes bytes = .error (.malformed (.truncated bytes.length)) := by
  have hspills := final_read (Cursor.start bytes) behind hbehind
  have hstart : (Cursor.start bytes).before behind = Cursor.start (bytes ++ behind) := rfl
  rw [ofBytes, ofBytes, if_neg (by simp [hbytes]), if_neg (by simp [hbytes]), eval, eval, ← hstart]
  generalize ClassFile.read (Cursor.start bytes) = short at hspills ⊢
  generalize ClassFile.read ((Cursor.start bytes).before behind) = long at hspills ⊢
  cases hspills with
  | ok c => exact .inl ⟨c, rfl, rfl⟩
  | trailing n => exact .inr (.inl ⟨n, rfl, rfl⟩)
  | missing => exact .inr (.inr (.inr rfl))
  | error fault =>
    cases fault with
    | outOfBounds => exact .inr (.inr (.inr rfl))
    | _ => exact .inr (.inr (.inl ⟨_, rfl, rfl⟩))

/-- A class file that is read ends where it must.  If a part of it is missing at the end, it is
reported as cut off at its length; if anything follows it, the bytes behind are counted. -/
theorem ofBytes_prefix_free [Build] {bytes : Bytes} {c : ClassFile} (h : ofBytes bytes = .ok c) :
    (∀ front : Bytes, front <+: bytes → front ≠ [] → front ≠ bytes →
      ofBytes front = .error (.malformed (.truncated front.length))) ∧
    ∀ behind : Bytes, behind ≠ [] →
      ofBytes (bytes ++ behind) = .error (.malformed (.classTrailing behind.length)) := by
  constructor
  · rintro front ⟨behind, rfl⟩ hfront hne
    have hbehind : behind ≠ [] := by
      rintro rfl
      exact hne (List.append_nil front).symm
    -- In all but the last case the whole file would be refused as well.
    rcases ofBytes_append_cases hfront hbehind with
      ⟨-, -, hall⟩ | ⟨n, -, hall⟩ | ⟨fault, -, hall⟩ | hmissing
    · exact absurd (h.symm.trans hall) (by simp)
    · exact absurd (h.symm.trans hall) (by simp)
    · exact absurd (h.symm.trans hall) (by simp)
    · exact hmissing
  · intro behind hbehind
    have hbytes : bytes ≠ [] := by
      rintro rfl
      exact absurd h (by simp [ofBytes])
    rcases ofBytes_append_cases hbytes hbehind with
      ⟨-, -, hall⟩ | ⟨n, hn, -⟩ | ⟨fault, hfault, -⟩ | hmissing
    · exact hall
    · exact absurd (h.symm.trans hn) (by simp)
    · exact absurd (h.symm.trans hfault) (by simp)
    · exact absurd (h.symm.trans hmissing) (by simp)

attribute [local instance] Build.checked

/-- The body of the one method ends where the class does, so that a cut may fall into it. -/
theorem ofBytes_cut_switchBytes :
    ofBytes switchBytes = .ok switchClass ∧
      ofBytes (switchBytes.take 100) = .error (.malformed (.truncated 100)) ∧
      ofBytes (switchBytes ++ [0, 0]) = .error (.malformed (.classTrailing 2)) := by
  have h : ofBytes switchBytes = .ok switchClass := by decide +kernel
  obtain ⟨hshort, hlong⟩ := ofBytes_prefix_free h
  refine ⟨h, ?_, hlong [0, 0] (by decide)⟩
  exact hshort _ (List.take_prefix 100 _) (by decide) (by decide)

end ClassFile

end ClassGraft
