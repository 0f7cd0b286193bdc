/-
Two forms of one instruction.

What is lifted from operand bytes is asked through its constructor, what keeps them through the
opcode table, the bytes and the pool.  A load or a store of the table goes on behind itself and has
the effect of the kind of value that it moves (`Opcode.info?_of_localForm?`), and where the table
states an effect, the operands do not change it (`StackEffect.ofBytes_of_ofTable`).  An access to a
member asks for the descriptor of the same member in both forms.

So an instruction that is settled on and its own bytes have the same size, go on in the same way,
touch the same local, have the same targets and the same effect (`Decoded.alike_of_settle`).
-/
import ClassGraft.Proofs.CodeRoundTrip
import ClassGraft.Proofs.HandlerCall
import ClassGraft.Proofs.LocalSlots

namespace ClassGraft

variable {pool : ConstantPool}

/-- Whether nothing that is asked of an instruction tells two of them apart. -/
structure Instruction.Alike [Build] (pool : ConstantPool) (i j : Instruction) : Prop where
  size : ∀ offset, i.size offset = j.size offset
  flow : i.flow = j.flow
  localAccess : i.localAccess = j.localAccess
  targets : i.targets = j.targets
  stackEffect : i.stackEffect pool = j.stackEffect pool

/-! ### The opcode table -/

/-- What an access to a local does to the stack. -/
def LocalForm.effect (form : LocalForm) : StackEffect :=
  if form.stores then ⟨form.kind.width, 0⟩ else ⟨0, form.kind.width⟩

/-- What the table says about control and about the stack. -/
def OpcodeInfo.conduct (info : OpcodeInfo) : Flow × Option Nat × Option Nat :=
  (info.flow, info.pops, info.pushes)

theorem Opcode.info?_of_localForm? {op : Opcode} {form : LocalForm}
    (h : localForm? op = some form) : (info? op).map OpcodeInfo.conduct =
      some (.sequential, some form.effect.pops, some form.effect.pushes) := by
  have hle := toNat_le_of_localForm? h
  obtain ⟨info, hinfo⟩ : ∃ info, info? op = some info := exists_info? (by omega)
  have hconduct := forall_info? (P := fun n info => ∀ form ∈ localForm? (UInt8.ofNat n),
    info.conduct = (.sequential, some form.effect.pops, some form.effect.pushes))
    (by decide +kernel) hinfo
  rw [UInt8.ofNat_toNat] at hconduct
  rw [hinfo, Option.map_some, hconduct form h]

theorem Opcode.info?_returning (kind : Option ValueKind) :
    (info? (returning kind)).map OpcodeInfo.conduct =
      some (.exit, some ((kind.map ValueKind.width).getD 0), some 0) := by
  rcases kind with _ | kind
  · cbv
  · cases kind
    all_goals cbv

theorem Opcode.eq_returning {op : Opcode} {kind : Option ValueKind}
    (h : returned? op = some kind) : op = returning kind := by
  have hrange : 172 ≤ op.toNat ∧ op.toNat ≤ 177 := by
    by_contra hrange
    rw [returned?] at h
    rw [if_neg (by omega), if_neg (by omega)] at h
    exact absurd h (by simp)
  have hop : op = 172 ∨ op = 173 ∨ op = 174 ∨ op = 175 ∨ op = 176 ∨ op = 177 := by
    simp only [← UInt8.toNat_inj]
    show op.toNat = 172 ∨ op.toNat = 173 ∨ op.toNat = 174 ∨ op.toNat = 175 ∨ op.toNat = 176 ∨
      op.toNat = 177
    omega
  rcases hop with rfl | rfl | rfl | rfl | rfl | rfl
  all_goals
    obtain rfl := Option.some.inj h
    rfl

/-- The opcodes whose effect depends on a constant or an operand have none in the table. -/
theorem Opcode.eq_none_of_variable {op : Opcode} {info : OpcodeInfo} (h : info? op = some info)
    (hop : (getstatic ≤ op ∧ op ≤ invokedynamic) ∨ op = multianewarray ∨ op = wide) :
    info.pops = none ∨ info.pushes = none := by
  have hnone := forall_info? (P := fun n info => (178 ≤ n ∧ n ≤ 186) ∨ n = 197 ∨ n = 196 →
    info.pops = none ∨ info.pushes = none) (by decide +kernel) h
  rw [UInt8.le_iff_toNat_le, UInt8.le_iff_toNat_le, ← UInt8.toNat_inj, ← UInt8.toNat_inj] at hop
  exact hnone hop

namespace StackEffect

theorem ofTable_eq_ok_iff {op : Opcode} {effect : StackEffect} :
    ofTable op = .ok effect ↔ ∃ info, Opcode.info? op = some info ∧
      info.pops = some effect.pops ∧ info.pushes = some effect.pushes := by
  obtain ⟨pops, pushes⟩ := effect
  unfold ofTable
  generalize Opcode.info? op = info?
  rcases info? with _ | ⟨_, _, _ | pops', _ | pushes', _⟩
  all_goals simp

/-- An effect that stands in the table is not changed by operands. -/
theorem ofBytes_of_ofTable [Build] {op : Opcode} {effect : StackEffect}
    (h : ofTable op = .ok effect) (operands : Bytes) : ofBytes pool op operands = .ok effect := by
  have hfixed : ¬((Opcode.getstatic ≤ op ∧ op ≤ Opcode.invokedynamic) ∨
      op = Opcode.multianewarray ∨ op = Opcode.wide) := by
    obtain ⟨info, hinfo, hpops, hpushes⟩ := ofTable_eq_ok_iff.mp h
    intro hvariable
    rcases Opcode.eq_none_of_variable hinfo hvariable with hnone | hnone
    · rw [hnone] at hpops
      exact absurd hpops (by simp)
    · rw [hnone] at hpushes
      exact absurd hpushes (by simp)
  rw [not_or, not_or] at hfixed
  obtain ⟨hmember, harray, hwide⟩ := hfixed
  have hbounds : ∀ low high : Opcode, Opcode.getstatic ≤ low → high ≤ Opcode.invokedynamic →
      ¬(low ≤ op ∧ op ≤ high) := by
    rintro low high hlow hhigh ⟨h₁, h₂⟩
    exact hmember ⟨UInt8.le_trans hlow h₁, UInt8.le_trans h₂ hhigh⟩
  have hdynamic : op ≠ Opcode.invokedynamic := by
    rintro rfl
    exact absurd hmember (by decide)
  rw [ofBytes.eq_def, if_neg (hbounds _ _ (by decide) (by decide)),
    if_neg (hbounds _ _ (by decide) (by decide)), if_neg hdynamic, if_neg harray, if_neg hwide, h]

theorem ofTable_of_info? {op : Opcode} {flow : Flow} {effect : StackEffect}
    (h : (Opcode.info? op).map OpcodeInfo.conduct =
      some (flow, some effect.pops, some effect.pushes)) : ofTable op = .ok effect := by
  obtain ⟨info, hinfo, h⟩ := Option.map_eq_some_iff.mp h
  obtain ⟨hpops, hpushes⟩ := Prod.mk.inj (Prod.mk.inj h).2
  exact ofTable_eq_ok_iff.mpr ⟨info, hinfo, hpops, hpushes⟩

theorem ofTable_returning (kind : Option ValueKind) :
    ofTable (Opcode.returning kind) = .ok ⟨(kind.map ValueKind.width).getD 0, 0⟩ :=
  ofTable_of_info? (Opcode.info?_returning kind)

theorem ofTable_pop : ofTable Opcode.pop = .ok ⟨1, 0⟩ := by
  have hinfo : (Opcode.info? Opcode.pop).map OpcodeInfo.conduct =
      some (.sequential, some 1, some 0) := by
    cbv
  exact ofTable_of_info? hinfo

theorem ofTable_pop2 : ofTable Opcode.pop2 = .ok ⟨2, 0⟩ := by
  have hinfo : (Opcode.info? Opcode.pop2).map OpcodeInfo.conduct =
      some (.sequential, some 2, some 0) := by
    cbv
  exact ofTable_of_info? hinfo

end StackEffect

/-! ### Accesses to locals -/

theorem Opcode.ne_of_localForm? {op : Opcode} {form : LocalForm}
    (h : localForm? op = some form) : ¬(op = iinc ∨ op = ret) ∧ op ≠ wide := by
  have hle : op.toNat ≤ 78 := toNat_le_of_localForm? h
  simp only [Ne, ← UInt8.toNat_inj]
  show ¬(op.toNat = 132 ∨ op.toNat = 169) ∧ ¬op.toNat = 196
  omega

namespace Instruction

theorem localAccess_localInstruction (form : LocalForm) (index : UInt16) :
    (Decoded.localInstruction form index).localAccess = some (index, form.kind.width) := by
  rw [Decoded.localInstruction]
  split
  all_goals rfl

theorem stackEffect_localInstruction [Build] (form : LocalForm) (index : UInt16) :
    (Decoded.localInstruction form index).stackEffect pool = .ok form.effect := by
  rw [Decoded.localInstruction, LocalForm.effect]
  split
  all_goals rfl

theorem flow_other {op : Opcode} (hop : op ≠ Opcode.wide) (operands : Bytes) :
    (other op operands).flow = ((Opcode.info? op).map OpcodeInfo.flow).getD .sequential := by
  rw [flow, flowOpcode, if_neg hop]

theorem flow_other_wide (modified : Opcode) (args : Bytes) :
    (other Opcode.wide (modified :: args)).flow =
      ((Opcode.info? modified).map OpcodeInfo.flow).getD .sequential := by
  rw [flow, flowOpcode, if_pos rfl]
  rfl

end Instruction

theorem Opcode.flow_of_localForm? {op : Opcode} {form : LocalForm} (h : localForm? op = some form) :
    ((info? op).map OpcodeInfo.flow).getD .sequential = .sequential := by
  obtain ⟨info, hinfo, hflow⟩ := Option.map_eq_some_iff.mp (info?_of_localForm? h)
  rw [hinfo]
  exact (Prod.mk.inj hflow).1

namespace Decoded

variable {op : Opcode} {operands : Bytes} {i : Instruction}

/-! ### What is lifted, and its bytes -/

theorem flow_of_liftedFrom (h : LiftedFrom pool op operands i) :
    i.flow = (Instruction.other op operands).flow := by
  cases h with
  | wide h =>
    rw [Instruction.flow_localInstruction, Instruction.flow_other_wide, Opcode.flow_of_localForm? h]
  | @named _ form index _ h =>
    rw [Instruction.flow_other (Opcode.ne_of_localForm? h).2, Opcode.flow_of_localForm? h]
    exact Instruction.flow_localInstruction index form.kind form.stores
  | @indexed _ form index _ h =>
    rw [Instruction.flow_other (Opcode.ne_of_localForm? h).2, Opcode.flow_of_localForm? h]
    exact Instruction.flow_localInstruction index.toUInt16 form.kind form.stores
  | loadField isStatic =>
    cases isStatic
    all_goals rfl
  | storeField isStatic =>
    cases isStatic
    all_goals rfl
  | invoke dispatch =>
    cases dispatch
    all_goals rfl
  | pop | pop2 => rfl
  | @exit _ kind _ h =>
    obtain rfl := Opcode.eq_returning h
    have hwide : Opcode.returning kind ≠ Opcode.wide := by
      rcases kind with _ | kind
      · decide
      · cases kind
        all_goals decide
    rw [Instruction.flow_other hwide]
    rfl

theorem localAccess_of_liftedFrom (h : LiftedFrom pool op operands i) :
    i.localAccess = (Instruction.other op operands).localAccess := by
  cases h with
  | wide h =>
    have hsingle := (Opcode.ne_of_localForm? h).1
    rw [Instruction.localAccess_localInstruction, Instruction.localAccess,
      if_neg Instruction.wide_ne_single, if_pos rfl]
    simp only [if_neg hsingle, h, Option.map_some]
  | @named _ form index _ h hindex =>
    obtain ⟨hsingle, hwide⟩ := Opcode.ne_of_localForm? h
    obtain ⟨kind, stores, _⟩ := form
    obtain rfl : _ = some index := hindex
    refine (Instruction.localAccess_localInstruction _ _).trans
      ((if_neg hsingle).trans ((if_neg hwide).trans ?_)).symm
    rw [h]
  | @indexed _ form index rest h hindex =>
    obtain ⟨hsingle, hwide⟩ := Opcode.ne_of_localForm? h
    obtain ⟨kind, stores, _⟩ := form
    obtain rfl : _ = none := hindex
    refine (Instruction.localAccess_localInstruction _ _).trans
      ((if_neg hsingle).trans ((if_neg hwide).trans ?_)).symm
    rw [h]
    rfl
  | loadField isStatic =>
    cases isStatic
    all_goals rfl
  | storeField isStatic =>
    cases isStatic
    all_goals rfl
  | invoke dispatch =>
    cases dispatch
    all_goals rfl
  | pop | pop2 => rfl
  | @exit _ kind _ h =>
    obtain rfl := Opcode.eq_returning h
    rcases kind with _ | kind
    · rfl
    · cases kind
      all_goals rfl

theorem stackEffect_of_liftedFrom [Build] (h : LiftedFrom pool op operands i) :
    i.stackEffect pool = (Instruction.other op operands).stackEffect pool := by
  -- For a member, both forms ask for the same descriptor; the table has all the other effects.
  cases h with
  | @wide modified high low kind stores h =>
    have hsingle := (Opcode.ne_of_localForm? h).1
    have htable := StackEffect.ofTable_of_info? (Opcode.info?_of_localForm? h)
    have hbytes : StackEffect.ofBytes pool Opcode.wide [modified, high, low] =
        if modified = Opcode.iinc ∨ modified = Opcode.ret then .ok ⟨0, 0⟩
        else StackEffect.ofTable modified := rfl
    rw [Instruction.stackEffect_localInstruction, Instruction.stackEffect, hbytes, if_neg hsingle,
      htable]
  | named _ h | indexed _ _ h =>
    have htable := StackEffect.ofTable_of_info? (Opcode.info?_of_localForm? h)
    rw [Instruction.stackEffect_localInstruction, Instruction.stackEffect,
      StackEffect.ofBytes_of_ofTable htable]
  | @loadField high low m isStatic rest hm =>
    have hbytes : StackEffect.ofBytes pool (Instruction.loadField m isStatic).opcode
        (high :: low :: rest) =
          pool.memberRef (UInt16.ofNat (BigEndian.decode [high, low])) >>= fun field =>
            StackEffect.ofLoad field.descriptor isStatic := by
      cases isStatic
      all_goals rfl
    rw [Instruction.stackEffect, Instruction.stackEffect, hbytes, hm]
    rfl
  | @storeField high low m isStatic rest hm =>
    have hbytes : StackEffect.ofBytes pool (Instruction.storeField m isStatic).opcode
        (high :: low :: rest) =
          pool.memberRef (UInt16.ofNat (BigEndian.decode [high, low])) >>= fun field =>
            StackEffect.ofStore field.descriptor isStatic := by
      cases isStatic
      all_goals rfl
    rw [Instruction.stackEffect, Instruction.stackEffect, hbytes, hm]
    rfl
  | @invoke high low m dispatch rest hm =>
    have hbytes : StackEffect.ofBytes pool dispatch.opcode (high :: low :: rest) =
        pool.memberRef (UInt16.ofNat (BigEndian.decode [high, low])) >>= fun method =>
          StackEffect.ofCall method.descriptor (dispatch ≠ .static) := by
      cases dispatch
      all_goals rfl
    rw [Instruction.stackEffect, Instruction.stackEffect, hbytes, hm]
    rfl
  | pop =>
    exact (StackEffect.ofBytes_of_ofTable StackEffect.ofTable_pop _).symm
  | pop2 =>
    exact (StackEffect.ofBytes_of_ofTable StackEffect.ofTable_pop2 _).symm
  | @exit _ kind _ h =>
    obtain rfl := Opcode.eq_returning h
    exact (StackEffect.ofBytes_of_ofTable (StackEffect.ofTable_returning kind) _).symm

/-- Nothing tells an instruction that is settled on from its own bytes. -/
theorem alike_of_settle [Build] {offset : Nat} (h : settle pool offset op operands = .ok i) :
    i.Alike pool (.other op operands) := by
  obtain ⟨hplain, hbytes⟩ := encodeAt_of_settle h
  rcases settle_cases h with rfl | ⟨hlift, -⟩
  · exact ⟨fun _ => rfl, rfl, rfl, rfl, rfl⟩
  · have hform := liftedFrom_of_lift? hlift
    refine ⟨fun place => ?_, flow_of_liftedFrom hform, localAccess_of_liftedFrom hform,
      Instruction.targets_of_isPlain hplain, stackEffect_of_liftedFrom hform⟩
    rw [← length_encodeAt_of_isPlain hplain (hbytes Layout.empty ⟨"", 0, 0⟩) place]
    exact Nat.add_comm operands.length 1

attribute [local instance] Build.checked

/-- A load that is widened, and a call through an interface. -/
theorem alike_of_settle_mixedPool :
    (settle mixedPool 0 Opcode.wide [21, 1, 44] = .ok (.loadLocal 300 .int) ∧
      (Instruction.loadLocal 300 .int).Alike mixedPool (.other Opcode.wide [21, 1, 44])) ∧
    (settle mixedPool 12 Opcode.invokeinterface [0, 6, 3, 0] =
        .ok (.invoke ⟨6, "A", "m", "(J)V"⟩ .interface) ∧
      (Instruction.invoke ⟨6, "A", "m", "(J)V"⟩ .interface).Alike mixedPool
        (.other Opcode.invokeinterface [0, 6, 3, 0])) := by
  have hload : settle mixedPool 0 Opcode.wide [21, 1, 44] = .ok (.loadLocal 300 .int) := rfl
  have hcall : settle mixedPool 12 Opcode.invokeinterface [0, 6, 3, 0] =
      .ok (.invoke ⟨6, "A", "m", "(J)V"⟩ .interface) := by
    cbv
  exact ⟨⟨hload, alike_of_settle hload⟩, hcall, alike_of_settle hcall⟩

end Decoded

end ClassGraft
