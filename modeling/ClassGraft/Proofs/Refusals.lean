/-
Bytes that are turned down.

A reader is guarded if it fails only because bytes are missing or malformed (`Reader.Guarded`);
compound readers are guarded because their parts are.  So are the readers of constants, tables,
frames and members.  Those of instructions, bodies and whole classes are guarded but for one stop
(`Reader.GuardedBut`, `ClassFile.failsBut_read`): a build that checks its sums goes no further at a
call whose arguments it cannot count (`ConstantPool.Overcounts`).  Running out of bytes is renamed
at the end, so a class file is read, or it is empty, or it is malformed, or there is such a call in
it (`ClassFile.ofBytes_cases`).

An instruction is never put together from operands that are not there
(`Decoded.not_lifts_of_lift?`), and fuel never decides what is turned down.
-/
import ClassGraft.Proofs.Failing
import ClassGraft.Proofs.Legible
import ClassGraft.Proofs.Rounds
import ClassGraft.Proofs.WholeClass

namespace ClassGraft

open Step

/-! ### Guarded readers -/

namespace Step.StopsBy

variable {α β : Type} {P : Fault → Prop} {r : Reader α}

/-- A read whose value is looked at in another way. -/
theorem then_pure (h : StopsBy P r) (f : α → β) : StopsBy P (r >>= fun x => Pure.pure (f x)) :=
  h.bind fun _ => .pure _ _

theorem times (h : StopsBy P r) (n : Nat) : StopsBy P (Reader.times n r) := by
  -- The items that have been read wait in reverse, so the induction is for any of them.
  have honto : ∀ n done, StopsBy P (Reader.timesOnto r n done) := by
    intro n
    induction n with
    | zero => exact fun done => .pure _ _
    | succ n ih => exact fun done => h.bind fun x => ih (x :: done)
  exact honto n []

theorem failsBy_eval (h : StopsBy P r) (bytes : Bytes) : FailsBy P (r.eval bytes) := by
  intro fault hfault
  obtain ⟨c, hr⟩ := Reader.eval_eq_error_iff.mp hfault
  exact h _ fault c hr

end Step.StopsBy

namespace Reader

theorem stopsBy_ofExcept {α : Type} {P : Fault → Prop} {e : Except Fault α} (h : FailsBy P e) :
    StopsBy P (ofExcept e) := by
  cases e with
  | error fault => exact .throw (h fault rfl)
  | ok x => exact .pure _ x

/-- Whether a reader fails only because bytes are missing or malformed. -/
abbrev Guarded {α : Type} (r : Reader α) : Prop := StopsWith [.malformed, .outOfBounds] r

/-- Whether a reader fails only because bytes are missing or malformed, or at a sum that is not
held, where that can be. -/
abbrev GuardedBut {α : Type} (stops : Prop) (r : Reader α) : Prop :=
  StopsBut [.malformed, .outOfBounds] stops r

variable {α β : Type} {r : Reader α}

theorem guarded_malformed (cause : Malformation) : Guarded (malformed cause : Reader α) :=
  .throw List.mem_cons_self

theorem guarded_pos : Guarded pos :=
  .of_eq_ok _ fun _ => ⟨_, _, rfl⟩

theorem guarded_remaining : Guarded remaining :=
  .of_eq_ok _ fun _ => ⟨_, _, rfl⟩

theorem guarded_more : Guarded more :=
  .of_eq_ok _ fun _ => ⟨_, _, rfl⟩

theorem guarded_bytes (n : Nat) : Guarded (bytes n) := by
  intro c fault c' h
  simp only [bytes] at h
  split at h
  · exact absurd h (by simp)
  · obtain ⟨rfl, -⟩ := EStateM.Result.error.inj h
    exact List.mem_cons_of_mem _ List.mem_cons_self

theorem guarded_ensure (n : Nat) : Guarded (ensure n) := by
  intro c fault c' h
  rw [ensure] at h
  split at h
  · exact absurd h (by simp)
  · obtain ⟨rfl, -⟩ := EStateM.Result.error.inj h
    exact List.mem_cons_of_mem _ List.mem_cons_self

theorem guarded_skip (n : Nat) : Guarded (skip n) := (guarded_bytes n).then_pure _

theorem guarded_align {n : Nat} (hn : 0 < n) : Guarded (align n hn) :=
  guarded_pos.bind fun _ => guarded_skip _

theorem guarded_word (width : Nat) : Guarded (word width) := (guarded_bytes width).then_pure _

theorem guarded_u8 : Guarded u8 := (guarded_word 1).then_pure _

theorem guarded_u16 : Guarded u16 := (guarded_word 2).then_pure _

theorem guarded_u32 : Guarded u32 := (guarded_word 4).then_pure _

theorem guarded_u64 : Guarded u64 := (guarded_word 8).then_pure _

theorem guarded_i16 : Guarded i16 := guarded_u16.then_pure _

theorem guarded_i32 : Guarded i32 := guarded_u32.then_pure _

theorem guarded_i64 : Guarded i64 := guarded_u64.then_pure _

theorem guarded_of_malformed {e : Except Fault α} (h : FailsWith [.malformed] e) :
    Guarded (ofExcept e) :=
  stopsBy_ofExcept (h.mono (by decide))

theorem Guarded.table (h : Guarded r) : Guarded (Reader.table r) :=
  guarded_u16.bind fun count => h.times count.toNat

theorem GuardedBut.table {stops : Prop} (h : GuardedBut stops r) :
    GuardedBut stops (Reader.table r) :=
  (guarded_u16.but stops).bind fun count => h.times count.toNat

end Reader

open Reader

theorem FailsBy.forM {α : Type} {P : Fault → Prop} {f : α → Except Fault Unit} {xs : List α}
    (h : ∀ x ∈ xs, FailsBy P (f x)) : FailsBy P (xs.forM f) := by
  induction xs with
  | nil => exact .ok P ()
  | cons x xs ih =>
    obtain ⟨hx, hxs⟩ := List.forall_mem_cons.mp h
    exact hx.bind fun _ => ih hxs

/-! ### Constants -/

theorem Constant.guarded_readBody (kind : ConstantKind) : Guarded (readBody kind) := by
  have hpair : ∀ f : UInt16 → UInt16 → Constant, Guarded do return f (← u16) (← u16) :=
    fun f => guarded_u16.bind fun a => guarded_u16.then_pure (f a)
  cases kind with
  | utf8 => exact guarded_u16.bind fun length => (guarded_bytes length.toNat).then_pure _
  | integer => exact guarded_i32.then_pure _
  | float => exact guarded_u32.then_pure _
  | long => exact guarded_i64.then_pure _
  | double => exact guarded_u64.then_pure _
  | classRef | string | methodType | module | package => exact guarded_u16.then_pure _
  | methodHandle => exact guarded_u8.bind fun _ => guarded_u16.then_pure _
  | fieldRef | methodRef | interfaceMethodRef | nameAndType | dynamic | invokeDynamic =>
    exact hpair _

theorem Constant.guarded_read : Guarded Constant.read := by
  refine guarded_pos.bind fun place => guarded_u8.bind fun tag => ?_
  split
  · exact guarded_readBody _
  · exact guarded_malformed _

namespace ConstantPool

theorem failsWith_checkReference (pool : ConstantPool) (source : Nat) (index : UInt16)
    (wanted : ConstantKind) : FailsWith [.malformed] (pool.checkReference source index wanted) := by
  rw [checkReference]
  split
  · exact .error List.mem_cons_self
  · exact .ite (.ok _ _) (.error List.mem_cons_self)

theorem failsWith_checkConstant (pool : ConstantPool) (index : Nat) (c : Constant) :
    FailsWith [.malformed] (pool.checkConstant index c) := by
  rw [checkConstant.eq_def]
  split
  · refine .ite (.error List.mem_cons_self) ?_
    show FailsWith [.malformed] (Except.map _ _)
    cases hlookup : pool.lookup _ with
    | error fault => exact .error (pool.failsWith_lookup _ fault hlookup)
    | ok found => exact .ok _ ()
  · exact .forM fun reference _ => pool.failsWith_checkReference index _ _

theorem failsWith_validate (pool : ConstantPool) : FailsWith [.malformed] pool.validate :=
  .forM fun entry _ => pool.failsWith_checkConstant entry.1 entry.2

theorem guarded_readSlots (n : Nat) (slots : Array (Option Constant)) :
    Guarded (readSlots n slots) := by
  fun_induction readSlots n slots with
  | case1 slots => exact .pure _ slots
  | case2 slots =>
    refine Constant.guarded_read.bind fun c => ?_
    split
    · exact guarded_malformed _
    · exact .pure _ _
  | case3 n slots ih₂ ih₁ =>
    refine Constant.guarded_read.bind fun c => ?_
    split
    · exact ih₂ c
    · exact ih₁ c

theorem guarded_read : Guarded ConstantPool.read := by
  refine guarded_u16.bind fun count => ?_
  split
  · exact guarded_malformed _
  · refine (guarded_readSlots _ _).bind fun slots => ?_
    exact (guarded_of_malformed (failsWith_validate _)).then_pure _

end ConstantPool

theorem RawAttribute.guarded_read : Guarded RawAttribute.read :=
  guarded_u16.bind fun _ => guarded_u32.bind fun length => (guarded_bytes length.toNat).then_pure _

/-! ### Instructions -/

/-- Whether a build stops at a method in a pool: it checks its sums, and a call takes more slots,
with the receiver, than sixteen bits can count. -/
def ConstantPool.Overcounts [Build] (pool : ConstantPool) : Prop :=
  Build.checksSums ∧ ∃ index member d, pool.memberRef index = .ok member ∧
    MethodDescriptor.parse member.descriptor = .ok d ∧ 65536 ≤ d.slotCount true

namespace Decoded

/-- A call that is put together is that of a method in the pool. -/
theorem exists_member_of_lift? {pool : ConstantPool} {op : Opcode} {operands : Bytes}
    {i : Instruction} (h : lift? pool op operands = .ok (some i)) (hover : i.Overcounts) :
    ∃ high low rest member d, op = Opcode.invokeinterface ∧ operands = high :: low :: rest ∧
      pool.memberRef (UInt16.ofNat (BigEndian.decode [high, low])) = .ok member ∧
      MethodDescriptor.parse member.descriptor = .ok d ∧ 65536 ≤ d.slotCount true := by
  obtain ⟨m, d, rfl, hd, hmany⟩ := hover
  generalize hi : Instruction.invoke m .interface = i at h
  cases liftedFrom_of_lift? h with
  | invoke dispatch rest hm =>
    obtain ⟨rfl, rfl⟩ := Instruction.invoke.inj hi
    exact ⟨_, _, rest, m, d, rfl, rfl, hm, hd, hmany⟩
  | wide | named | indexed =>
    -- An access to a local is no call.
    rw [localInstruction] at hi
    split at hi
    · cases hi
    · cases hi
  | _ => cases hi

variable (pool : ConstantPool) (offset : Nat)

theorem failsWith_absolute (delta : Int) : FailsWith [.malformed] (absolute offset delta) :=
  .ite (.ok _ _) (.error List.mem_cons_self)

theorem failsWith_lift? (op : Opcode) (operands : Bytes) :
    FailsWith [.malformed] (lift? pool op operands) := by
  -- Only accesses to fields and calls look into the pool.
  unfold lift?
  refine .ite ?wide (.ite (.ok _ _) (.ite (.ok _ _) (.ite ?members ?others)))
  case wide =>
    split
    · split
      · exact .ok _ _
      · exact .ok _ _
    · exact .ok _ _
  case members =>
    split
    · exact (pool.failsWith_memberRef _).bind fun _ => .ok _ _
    · exact .ok _ _
  case others =>
    split
    · exact .ok _ _
    · exact .ok _ _
    · split
      all_goals exact .ok _ _

/-- A form of its own that cannot be written is given up, which is no fault; but writing it may
stop the program. -/
theorem failsBut_settle [Build] (op : Opcode) (operands : Bytes) :
    FailsBut [.malformed] pool.Overcounts (settle pool offset op operands) := by
  refine ((failsWith_lift? pool op operands).but _).bind_of_ok fun lifted hlift => ?_
  split
  · exact .ok _ _
  · next i =>
    split
    · exact .ok _ _
    · next hover =>
      obtain ⟨hchecks, hover⟩ := Instruction.encodeAt_eq_overflow_iff.mp hover
      obtain ⟨_, _, _, member, d, -, -, hmember⟩ := exists_member_of_lift? hlift hover
      exact .error (.inr ⟨rfl, hchecks, _, member, d, hmember⟩)
    · exact .ok _ _

theorem guarded_readFar : Guarded (readFar offset) :=
  guarded_i32.bind fun _ => guarded_of_malformed (failsWith_absolute offset _)

theorem guarded_readTableSwitch : Guarded (readTableSwitch offset) := by
  refine (guarded_align _).bind fun _ => (guarded_readFar offset).bind fun default => ?_
  refine guarded_i32.bind fun low => guarded_i32.bind fun high => ?_
  split
  · exact guarded_malformed _
  · exact (guarded_ensure _).bind fun _ => ((guarded_readFar offset).times _).then_pure _

theorem guarded_readLookupSwitch : Guarded (readLookupSwitch offset) := by
  refine (guarded_align _).bind fun _ => (guarded_readFar offset).bind fun default => ?_
  refine guarded_i32.bind fun count => ?_
  split
  · exact guarded_malformed _
  · refine (guarded_ensure _).bind fun _ => StopsBy.then_pure (StopsBy.times ?_ _) _
    exact guarded_i32.bind fun key => (guarded_readFar offset).then_pure _

theorem guarded_readWide : Guarded (readWide offset) := by
  refine guarded_u8.bind fun modified => ?_
  split
  · exact (guarded_bytes _).then_pure _
  · exact guarded_malformed _

theorem guardedBut_readInstruction [Build] :
    GuardedBut pool.Overcounts (readInstruction pool) := by
  refine (guarded_pos.but _).bind fun offset => (guarded_u8.but _).bind fun op => ?_
  have hsettle : ∀ operands, GuardedBut pool.Overcounts
      (Reader.ofExcept (settle pool offset op operands)) :=
    fun operands => stopsBy_ofExcept ((failsBut_settle pool offset op operands).mono (by decide))
  split
  · exact (guarded_malformed _).but _
  · split
    · exact hsettle []
    · exact ((guarded_bytes _).but _).bind hsettle
    · exact (guarded_i16.but _).bind fun delta =>
        ((guarded_of_malformed (failsWith_absolute offset _)).but _).then_pure _
    · exact ((guarded_readFar offset).but _).then_pure _
    · exact (guarded_readTableSwitch offset).but _
    · exact (guarded_readLookupSwitch offset).but _
    · exact ((guarded_readWide offset).but _).bind hsettle

/-- An instruction that the end of the code cuts off is malformed. -/
theorem stopsBut_nameCut {α : Type} {r : Reader α} {stops : Prop} (h : GuardedBut stops r) :
    StopsBut [.malformed] stops (mapFault (nameCut offset) (transaction r)) := by
  intro c fault c' hfault
  rw [mapFault, transaction] at hfault
  cases hr : r c with
  | ok x m =>
    rw [hr] at hfault
    exact absurd hfault (by simp)
  | error cause m =>
    rw [hr] at hfault
    obtain ⟨rfl, -⟩ := EStateM.Result.error.inj hfault
    rcases h c cause m hr with hkind | ⟨rfl, hstops⟩
    · cases cause with
      | malformed => exact .inl List.mem_cons_self
      | outOfBounds => exact .inl List.mem_cons_self
      | _ => exact absurd hkind (by simp [Fault.kind])
    · exact .inr ⟨rfl, hstops⟩

theorem stopsBut_readInstructions [Build] (fuel : Nat) (done : List (Nat × Instruction)) :
    StopsBut [.malformed] pool.Overcounts (readInstructions pool fuel done) := by
  induction fuel generalizing done with
  | zero => exact .pure _ _
  | succ fuel ih =>
    refine StopsBy.bind (.of_eq_ok _ fun _ => ⟨_, _, rfl⟩) fun more => ?_
    split
    · refine StopsBy.bind (.of_eq_ok _ fun _ => ⟨_, _, rfl⟩) fun offset => ?_
      exact (stopsBut_nameCut offset (guardedBut_readInstruction pool)).bind fun i => ih _
    · exact .pure _ _

theorem failsWith_resolveTarget (layout : Layout) (index target : Nat) :
    FailsWith [.malformed] (resolveTarget layout index offset target) := by
  rw [resolveTarget]
  split
  · exact .ite (.ok _ _) (.error List.mem_cons_self)
  · exact .error List.mem_cons_self

end Decoded

theorem Instruction.failsBy_mapTargetsM {P : Fault → Prop} {f : Nat → Except Fault Nat}
    (hf : ∀ target, FailsBy P (f target)) (i : Instruction) : FailsBy P (i.mapTargetsM f) := by
  cases i with
  | jump op target => exact (hf target).bind fun _ => .ok _ _
  | tableSwitch default low targets =>
    exact (hf default).bind fun _ => (FailsBy.mapM fun target _ => hf target).bind fun _ => .ok _ _
  | lookupSwitch default pairs =>
    refine (hf default).bind fun _ => (FailsBy.mapM fun pair _ => ?_).bind fun _ => .ok _ _
    exact (hf pair.2).bind fun _ => .ok _ _
  | _ => exact .ok _ _

/-- Whatever is wrong with a code array, it is malformed, unless the program is stopped. -/
theorem failsBut_decode [Build] (pool : ConstantPool) (code : Bytes) :
    FailsBut [.malformed] pool.Overcounts (decode pool code) := by
  have hread := (Decoded.stopsBut_readInstructions pool code.length []).failsBy_eval code
  refine hread.bind fun list => FailsBy.bind (FailsBy.mapM fun entry _ => ?_) fun _ => .ok _ _
  exact Instruction.failsBy_mapTargetsM
    (fun target => (Decoded.failsWith_resolveTarget _ _ _ target).but _) _

/-! ### Operands -/

namespace Decoded

/-- Whether instructions of an opcode have a constructor of their own; one that is widened has that
of the access to a local that it widens. -/
def Lifts (op : Opcode) (operands : Bytes) : Prop :=
  if op = Opcode.wide then
    ∃ modified args kind stores, operands = modified :: args ∧
      Opcode.localForm? modified = some ⟨kind, stores, none⟩
  else
    op = Opcode.pop ∨ op = Opcode.pop2 ∨
      (Opcode.getstatic ≤ op ∧ op ≤ Opcode.invokeinterface) ∨
      (Opcode.returned? op).isSome ∨ (Opcode.localForm? op).isSome

theorem form?_of_member {op : Opcode}
    (h : Opcode.getstatic ≤ op ∧ op ≤ Opcode.invokeinterface) :
    op.form? = some (.fixed 2) ∨ op.form? = some (.fixed 4) := by
  have hlow : 178 ≤ op.toNat := UInt8.le_iff_toNat_le.mp h.1
  have hhigh : op.toNat ≤ 185 := UInt8.le_iff_toNat_le.mp h.2
  obtain ⟨info, hinfo⟩ : ∃ info, Opcode.info? op = some info := Opcode.exists_info? (by omega)
  have hform := Opcode.forall_info? (P := fun n info => 178 ≤ n → n ≤ 185 →
    info.operands = .fixed 2 ∨ info.operands = .fixed 4) (by decide +kernel) hinfo hlow hhigh
  rw [Opcode.form?_eq_map, hinfo, Option.map_some, Option.some.injEq, Option.some.injEq]
  exact hform

/-- An access to a local that its opcode does not name has an operand. -/
theorem form?_of_localForm? {op : Opcode} {form : LocalForm}
    (h : Opcode.localForm? op = some form) (hindex : form.index = none) :
    op.form? = some (.fixed 1) := by
  have hle := Opcode.toNat_le_of_localForm? h
  obtain ⟨info, hinfo⟩ : ∃ info, Opcode.info? op = some info := Opcode.exists_info? (by omega)
  have hform := Opcode.forall_info? (P := fun n info =>
    ∀ form ∈ Opcode.localForm? (UInt8.ofNat n), form.index = none → info.operands = .fixed 1)
    (by decide +kernel) hinfo
  rw [UInt8.ofNat_toNat] at hform
  rw [Opcode.form?_eq_map, hinfo, Option.map_some, hform form h hindex]

/-- The operands of an access to a field and of a call begin with two bytes. -/
theorem two_le_of_member {op : Opcode} {operands : Bytes}
    (h : Opcode.getstatic ≤ op ∧ op ≤ Opcode.invokeinterface) (hfit : OperandsFit op operands) :
    2 ≤ operands.length := by
  rw [OperandsFit] at hfit
  rcases form?_of_member h with hform | hform
  · rw [hform] at hfit
    exact hfit.ge
  · rw [hform] at hfit
    have hfit : operands.length = 4 := hfit
    omega

theorem ne_nil_of_localForm? {op : Opcode} {operands : Bytes} {kind : ValueKind} {stores : Bool}
    (h : Opcode.localForm? op = some ⟨kind, stores, none⟩) (hfit : OperandsFit op operands) :
    operands ≠ [] := by
  rw [OperandsFit, form?_of_localForm? h rfl] at hfit
  have hfit : operands.length = 1 := hfit
  rintro rfl
  exact absurd hfit (by simp)

/-- No instruction goes without its constructor for want of operands: those that fit the opcode are
enough to put it together. -/
theorem not_lifts_of_lift? {pool : ConstantPool} {op : Opcode} {operands : Bytes}
    (hfit : OperandsFit op operands) (h : lift? pool op operands = .ok none) :
    ¬Lifts op operands := by
  intro hlifts
  rw [Lifts] at hlifts
  unfold lift? at h
  by_cases hwide : op = Opcode.wide
  · rw [if_pos hwide] at h hlifts
    obtain ⟨modified, args, kind, stores, rfl, hform⟩ := hlifts
    rw [hwide, OperandsFit, form?_wide] at hfit
    obtain ⟨_, _, hcons, hcount⟩ := hfit
    obtain ⟨rfl, rfl⟩ := List.cons.inj hcons
    rw [wideOperands?_of_localForm? hform] at hcount
    obtain ⟨high, low, rfl⟩ := List.length_eq_two.mp (Option.some.inj hcount).symm
    simp only [hform] at h
    exact absurd h (by simp)
  · rw [if_neg hwide] at h hlifts
    by_cases hpop : op = Opcode.pop
    · rw [if_pos hpop] at h
      exact absurd h (by simp)
    · by_cases hpop2 : op = Opcode.pop2
      · rw [if_neg hpop, if_pos hpop2] at h
        exact absurd h (by simp)
      · rw [if_neg hpop, if_neg hpop2] at h
        by_cases hmember : Opcode.getstatic ≤ op ∧ op ≤ Opcode.invokeinterface
        · rw [if_pos hmember] at h
          have hle := two_le_of_member hmember hfit
          rcases operands with _ | ⟨high, _ | ⟨low, rest⟩⟩
          · exact absurd hle (by simp)
          · exact absurd hle (by simp)
          · obtain ⟨member, -, h⟩ := Bytes.bind_eq_ok_iff.mp h
            exact absurd h (by simp [pure, Except.pure])
        · rw [if_neg hmember] at h
          have hlifts := hlifts.resolve_left hpop |>.resolve_left hpop2 |>.resolve_left hmember
          split at h
          · exact absurd h (by simp)
          · next hreturned hlocal =>
            rw [hreturned, hlocal] at hlifts
            exact absurd hlifts (by simp)
          · next form hreturned hlocal =>
            obtain ⟨kind, stores, index⟩ := form
            split at h
            · exact absurd h (by simp)
            · exact absurd h (by simp)
            · next hindex =>
              obtain rfl : index = none := hindex
              exact ne_nil_of_localForm? hlocal hfit rfl

end Decoded

/-! ### Tables and frames -/

section Tables

variable (layout : Layout)

theorem Layout.failsWith_position (place : Anchorage) (offset : Nat) :
    FailsWith [.malformed] (layout.position place offset) := by
  rw [position]
  split
  · exact .ok _ _
  · exact .error List.mem_cons_self

theorem Layout.guarded_readPosition (place : Anchorage) : Guarded (layout.readPosition place) :=
  guarded_u16.bind fun _ => guarded_of_malformed (layout.failsWith_position place _)

theorem Handler.guarded_read : Guarded (Handler.read layout) := by
  refine (layout.guarded_readPosition _).bind fun start => ?_
  refine (layout.guarded_readPosition _).bind fun stop => ?_
  refine (layout.guarded_readPosition _).bind fun entry => ?_
  split
  · exact guarded_u16.then_pure _
  · exact guarded_malformed _

theorem LineNumber.guarded_read : Guarded (LineNumber.read layout) :=
  (layout.guarded_readPosition _).bind fun _ => guarded_u16.then_pure _

theorem LocalVariable.guarded_read : Guarded (LocalVariable.read layout) := by
  refine guarded_u16.bind fun start => guarded_u16.bind fun length => ?_
  refine (guarded_of_malformed (layout.failsWith_position _ _)).bind fun _ => ?_
  refine (guarded_of_malformed (layout.failsWith_position _ _)).bind fun _ => ?_
  exact guarded_u16.bind fun _ => guarded_u16.bind fun _ => guarded_u16.then_pure _

/-- A table whose contents end with its last item. -/
theorem guarded_table_to_end {α : Type} {item : Reader α} (h : Guarded item)
    (cause : Malformation) : Guarded do
      let entries ← Reader.table item
      if ← Reader.more then Reader.malformed cause else return entries := by
  refine h.table.bind fun entries => guarded_more.bind fun more => ?_
  split
  · exact guarded_malformed cause
  · exact .pure _ entries

theorem VerificationType.guarded_read : Guarded (VerificationType.read layout) := by
  refine guarded_u8.bind fun tag => ?_
  split
  case h_8 => exact guarded_u16.then_pure _
  case h_9 => exact (layout.guarded_readPosition _).then_pure _
  case h_10 => exact guarded_malformed _
  all_goals exact .pure _ _

theorem FrameKind.guarded_read (form : UInt8) : Guarded (FrameKind.read layout form) := by
  have htype := VerificationType.guarded_read layout
  -- Short forms hold the distance themselves, the others have it behind the form.
  rw [FrameKind.read]
  dsimp only
  split
  · exact .pure _ _
  · split
    · exact htype.then_pure _
    · split
      · exact guarded_malformed _
      · refine guarded_u16.bind fun distance => ?_
        split
        · exact htype.then_pure _
        · split
          · exact .pure _ _
          · split
            · exact .pure _ _
            · split
              · exact (htype.times _).then_pure _
              · exact htype.table.bind fun _ => htype.table.then_pure _

theorem StackMap.guarded_readFrames (n : Nat) (previous : Option Nat)
    (done : List StackMapFrame) : Guarded (readFrames layout n previous done) := by
  induction n generalizing previous done with
  | zero => exact .pure _ _
  | succ n ih =>
    refine guarded_u8.bind fun form => (FrameKind.guarded_read layout form).bind fun frame => ?_
    exact (guarded_of_malformed (layout.failsWith_position _ _)).bind fun target => ih _ _

theorem StackMap.guarded_read : Guarded (StackMap.read layout) := by
  refine guarded_u16.bind fun count => (guarded_readFrames layout _ _ _).bind fun frames => ?_
  refine guarded_remaining.bind fun left => ?_
  split
  · exact .pure _ frames
  · exact guarded_malformed _

/-! ### Bodies -/

variable (pool : ConstantPool)

theorem CodeAttribute.failsWith_ofRaw (name : String) (raw : RawAttribute) :
    FailsWith [.malformed, .outOfBounds] (ofRaw layout name raw) := by
  have hscopes := (guarded_table_to_end (LocalVariable.guarded_read layout)
    .variableTableTrailing).failsBy_eval raw.info
  rw [ofRaw]
  split
  · exact ((guarded_table_to_end (LineNumber.guarded_read layout)
      .lineTableTrailing).failsBy_eval raw.info).bind fun _ => .ok _ _
  · exact hscopes.bind fun _ => .ok _ _
  · exact hscopes.bind fun _ => .ok _ _
  · exact ((StackMap.guarded_read layout).failsBy_eval raw.info).bind fun _ => .ok _ _
  · exact .ok _ _

theorem CodeAttribute.guarded_read : Guarded (CodeAttribute.read pool layout) := by
  refine RawAttribute.guarded_read.bind fun raw => ?_
  refine (guarded_of_malformed (pool.failsWith_utf8 _)).bind fun name => ?_
  exact stopsBy_ofExcept (CodeAttribute.failsWith_ofRaw layout name raw)

theorem Code.guardedBut_read [Build] : GuardedBut pool.Overcounts (Code.read pool) := by
  refine (guarded_u16.but _).bind fun maxStack => (guarded_u16.but _).bind fun maxLocals => ?_
  refine (guarded_u32.but _).bind fun length => ?_
  split
  · exact (guarded_malformed _).but _
  · refine ((guarded_bytes _).but _).bind fun array => ?_
    refine StopsBy.bind (stopsBy_ofExcept ((failsBut_decode pool array).mono (by decide)))
      fun decoded => ?_
    refine ((Handler.guarded_read decoded.layout).table.but _).bind fun handlers => ?_
    refine ((CodeAttribute.guarded_read decoded.layout pool).table.but _).bind
      fun attributes => ?_
    refine (guarded_remaining.but _).bind fun left => ?_
    split
    · exact .pure _ _
    · exact (guarded_malformed _).but _

/-! ### Classes -/

theorem Field.guarded_read : Guarded (Field.read pool) := by
  refine guarded_u16.bind fun access => guarded_u16.bind fun nameIndex => ?_
  refine guarded_u16.bind fun descriptorIndex => ?_
  refine (guarded_of_malformed (pool.failsWith_utf8 _)).bind fun name => ?_
  refine (guarded_of_malformed (pool.failsWith_utf8 _)).bind fun descriptor => ?_
  exact RawAttribute.guarded_read.table.then_pure _

theorem MethodAttribute.guardedBut_read [Build] :
    GuardedBut pool.Overcounts (MethodAttribute.read pool) := by
  refine (RawAttribute.guarded_read.but _).bind fun raw => ?_
  refine ((guarded_of_malformed (pool.failsWith_utf8 _)).but _).bind fun name => ?_
  split
  · exact (stopsBy_ofExcept ((Code.guardedBut_read pool).failsBy_eval raw.info)).then_pure _
  · exact .pure _ _

theorem Method.guardedBut_read [Build] : GuardedBut pool.Overcounts (Method.read pool) := by
  refine (guarded_u16.but _).bind fun access => (guarded_u16.but _).bind fun nameIndex => ?_
  refine (guarded_u16.but _).bind fun descriptorIndex => ?_
  refine (MethodAttribute.guardedBut_read pool).table.bind fun attributes => ?_
  refine ((guarded_of_malformed (pool.failsWith_utf8 _)).but _).bind fun name => ?_
  exact ((guarded_of_malformed (pool.failsWith_utf8 _)).but _).then_pure _

end Tables

namespace ClassFile

theorem guarded_readClass (pool : ConstantPool) : Guarded (readClass pool) :=
  guarded_u16.bind fun _ => (guarded_of_malformed (pool.failsWith_className _)).then_pure _

theorem guarded_readSuperClass (pool : ConstantPool) : Guarded (readSuperClass pool) := by
  refine guarded_u16.bind fun index => ?_
  split
  · exact (guarded_of_malformed (pool.failsWith_className _)).bind fun _ => .pure _ _
  · exact .pure _ _

/-- Whether a build stops at a method in the constant pool of a class, which stands behind the first
eight bytes. -/
def Overcounts [Build] (bytes : Bytes) : Prop :=
  ∃ pool c, ConstantPool.read ⟨8, bytes.drop 8⟩ = .ok pool c ∧ pool.Overcounts

/-- Reading a class fails because bytes are missing or malformed, or at a method in its pool. -/
theorem failsBut_read [Build] (bytes : Bytes) :
    FailsBut [.malformed, .outOfBounds] (Overcounts bytes) (read.eval bytes) := by
  intro fault hfault
  obtain ⟨c, hread⟩ := eval_eq_error_iff.mp hfault
  rcases bind_eq_error_iff.mp hread with h | ⟨magic, c₁, hmagic, h⟩
  · exact .inl (guarded_u32 _ _ _ h)
  split at h
  · exact .inl (guarded_malformed _ _ _ _ h)
  rcases bind_eq_error_iff.mp h with h | ⟨minor, c₂, hminor, h⟩
  · exact .inl (guarded_u16 _ _ _ h)
  rcases bind_eq_error_iff.mp h with h | ⟨major, c₃, hmajor, h⟩
  · exact .inl (guarded_u16 _ _ _ h)
  rcases bind_eq_error_iff.mp h with h | ⟨pool, c₄, hpool, h⟩
  · exact .inl (ConstantPool.guarded_read _ _ _ h)
  have hrest : fault.kind ∈ [.malformed, .outOfBounds] ∨
      fault = .overflow ∧ pool.Overcounts := by
    refine StopsBy.bind (guarded_u16.but pool.Overcounts) (fun access => ?_) _ _ _ h
    refine ((guarded_readClass pool).but _).bind fun thisClass => ?_
    refine ((guarded_readSuperClass pool).but _).bind fun superClass => ?_
    refine (guarded_u16.table.but _).bind fun interfaces => ?_
    refine ((Field.guarded_read pool).table.but _).bind fun fields => ?_
    refine (Method.guardedBut_read pool).table.bind fun methods => ?_
    refine (RawAttribute.guarded_read.table.but _).bind fun attributes => ?_
    refine (guarded_remaining.but _).bind fun left => ?_
    split
    · exact .pure _ _
    · exact (guarded_malformed _).but _
  refine hrest.imp_right fun hover => ⟨hover.1, pool, c₄, ?_, hover.2⟩
  -- The magic number and the two versions take eight bytes.
  obtain ⟨hbytes, hpos⟩ := Cursor.advances_start (((u32_eq_ok_iff.mp hmagic).append
    (u16_eq_ok_iff.mp hminor)).append (u16_eq_ok_iff.mp hmajor))
  have hlen : (Bytes.ofU32 magic ++ Bytes.ofU16 minor ++ Bytes.ofU16 major).length = 8 := by
    simp [Bytes.ofU32, Bytes.ofU16, BigEndian.length_encode]
  have hfront : c₃ = ⟨8, bytes.drop 8⟩ := by
    obtain ⟨pos, rest⟩ := c₃
    rw [hbytes, ← hlen, List.drop_left, ← hpos]
  rw [← hfront]
  exact hpool

/-! ### Class files -/

/-- Bytes are read as a class, or they are empty, or they are malformed, or else the program is
stopped at a method in the pool. -/
theorem ofBytes_cases [Build] (bytes : Bytes) :
    (bytes = [] ∧ ofBytes bytes = .error .empty) ∨ (∃ c, ofBytes bytes = .ok c) ∨
      (∃ cause, ofBytes bytes = .error (.malformed cause)) ∨
      ofBytes bytes = .error .overflow ∧ Overcounts bytes := by
  cases bytes with
  | nil => exact .inl ⟨rfl, rfl⟩
  | cons b rest =>
    have hread := failsBut_read (b :: rest)
    rw [ofBytes, if_neg (by simp)]
    right
    cases hfault : ClassFile.read.eval (b :: rest) with
    | ok c => exact .inl ⟨c, rfl⟩
    | error fault =>
      right
      rcases hread fault hfault with hkind | ⟨rfl, hover⟩
      · -- Running out of bytes is named a malformation.
        cases fault with
        | malformed cause => exact .inl ⟨cause, rfl⟩
        | outOfBounds => exact .inl ⟨_, rfl⟩
        | _ => exact absurd hkind (by simp [Fault.kind])
      · exact .inr ⟨rfl, hover⟩

/-- Reading a class file ends with a class, with the fault of empty bytes, which only empty bytes
have, or with a malformation, except that a build that checks its sums may stop where the pool has a
method whose calls take too many slots to be counted.  Within it the loop over a code array ends by
itself, however much fuel there is, and no instruction is put together from operands that are not
there. -/
theorem ofBytes_faults [Build] (bytes : Bytes) :
    (ofBytes bytes = .error .empty ↔ bytes = []) ∧
    ((∃ c, ofBytes bytes = .ok c) ∨ ofBytes bytes = .error .empty ∨
      (∃ cause, ofBytes bytes = .error (.malformed cause)) ∨
      ofBytes bytes = .error .overflow ∧ Overcounts bytes) ∧
    (∀ (pool : ConstantPool) (code : Bytes) (extra : Nat),
      (Decoded.readInstructions pool (code.length + extra) []).eval code =
        (Decoded.readInstructions pool code.length []).eval code) ∧
    ∀ (pool : ConstantPool) (op : Opcode) (operands : Bytes),
      ¬(Decoded.OperandsFit op operands ∧ Decoded.lift? pool op operands = .ok none ∧
        Decoded.Lifts op operands) := by
  refine ⟨⟨fun hempty => ?_, fun hnil => ?_⟩, ?_, fun pool code extra => ?_, ?_⟩
  · rcases ofBytes_cases bytes with ⟨hnil, -⟩ | ⟨c, hc⟩ | ⟨cause, hcause⟩ | ⟨hover, -⟩
    · exact hnil
    · exact absurd (hempty.symm.trans hc) (by simp)
    · exact absurd (hempty.symm.trans hcause) (by simp)
    · exact absurd (hempty.symm.trans hover) (by simp)
  · rw [hnil]
    rfl
  · rcases ofBytes_cases bytes with ⟨-, hempty⟩ | hread | hmalformed | hover
    · exact .inr (.inl hempty)
    · exact .inl hread
    · exact .inr (.inr (.inl hmalformed))
    · exact .inr (.inr (.inr hover))
  · have hrounds :=
      Decoded.readInstructions_add pool code.length extra [] (Cursor.start code) le_rfl
    rw [Reader.eval, Reader.eval, hrounds]
  · rintro pool op operands ⟨hfit, hlift, hlifts⟩
    exact Decoded.not_lifts_of_lift? hfit hlift hlifts

end ClassFile

end ClassGraft
