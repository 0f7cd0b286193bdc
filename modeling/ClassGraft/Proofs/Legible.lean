/-
Legible instructions.

What an instruction needs to be read again are its bytes and, for an access to a member, a constant
that resolves to the member.  So instructions stay legible when the pool grows
(`Instruction.Legible.of_extends`), and the instructions of a handler call are legible where the
members that they name resolve (`Instruction.legible_handlerCall`).
-/
import ClassGraft.Graft.Splice
import ClassGraft.Proofs.PoolGrowth
import ClassGraft.Proofs.Encoding

namespace ClassGraft

variable {pool pool' : ConstantPool}

namespace Decoded

theorem lift?_of_extends (h : pool.Extends pool') {op : Opcode} {operands : Bytes}
    {i? : Option Instruction} (hi : lift? pool op operands = .ok i?) :
    lift? pool' op operands = .ok i? := by
  -- Only accesses to fields and calls look into the pool.
  by_cases hmember : Opcode.getstatic ≤ op ∧ op ≤ Opcode.invokeinterface
  · have hwide : op ≠ Opcode.wide := by
      rintro rfl
      exact absurd hmember (by decide)
    have hpop : op ≠ Opcode.pop := by
      rintro rfl
      exact absurd hmember (by decide)
    have hpop2 : op ≠ Opcode.pop2 := by
      rintro rfl
      exact absurd hmember (by decide)
    unfold lift? at hi ⊢
    rw [if_neg hwide, if_neg hpop, if_neg hpop2, if_pos hmember] at hi ⊢
    split at hi
    · simp only [Bytes.bind_eq_ok_iff] at hi ⊢
      obtain ⟨member, hmember, hi⟩ := hi
      exact ⟨member, h.memberRef hmember, hi⟩
    · exact hi
  · unfold lift? at hi ⊢
    rw [if_neg hmember] at hi ⊢
    exact hi

theorem settle_of_extends [Build] (h : pool.Extends pool') {offset : Nat} {op : Opcode}
    {operands : Bytes} {i : Instruction} (hi : settle pool offset op operands = .ok i) :
    settle pool' offset op operands = .ok i := by
  rw [settle, Bytes.bind_eq_ok_iff] at hi ⊢
  obtain ⟨i?, hlift, hi⟩ := hi
  exact ⟨i?, lift?_of_extends h hlift, hi⟩

theorem operandsFit_none {op : Opcode}
    (h : (Opcode.info? op).map OpcodeInfo.operands = some .none) : OperandsFit op [] := by
  rw [OperandsFit, Opcode.form?_eq_map, h]

theorem operandsFit_fixed {op : Opcode} {operands : Bytes} {count : Nat}
    (h : (Opcode.info? op).map OpcodeInfo.operands = some (.fixed count))
    (hlen : operands.length = count) : OperandsFit op operands := by
  rw [OperandsFit, Opcode.form?_eq_map, h]
  exact hlen

theorem operandsFit_wide {modified : Opcode} {args : Bytes}
    (h : wideOperands? modified = some args.length) :
    OperandsFit Opcode.wide (modified :: args) := by
  rw [OperandsFit, form?_wide]
  exact ⟨modified, args, rfl, h⟩

/-- An access to a local is widened with an index of two bytes. -/
theorem wideOperands?_of_localForm? {modified : Opcode} {kind : ValueKind} {stores : Bool}
    (h : Opcode.localForm? modified = some ⟨kind, stores, none⟩) :
    wideOperands? modified = some 2 := by
  have hiinc : modified ≠ Opcode.iinc := by
    rintro rfl
    exact absurd h (by simp [show Opcode.localForm? Opcode.iinc = none by decide])
  have hret : modified ≠ Opcode.ret := by
    rintro rfl
    exact absurd h (by simp [show Opcode.localForm? Opcode.ret = none by decide])
  rw [wideOperands?, if_neg hiinc, if_neg hret, h]

/-- An instruction that has a constructor of its own, written as the bytes it is lifted from. -/
theorem settle_of_lift? [Build] {op : Opcode} {operands : Bytes} {i : Instruction}
    (hlift : lift? pool op operands = .ok (some i))
    (hbytes : i.encodeAt Layout.empty ⟨"", 0, 0⟩ = .ok (op :: operands)) :
    settle pool 0 op operands = .ok i := by
  rw [settle, Bytes.bind_eq_ok_iff]
  refine ⟨some i, hlift, ?_⟩
  simp only [hbytes, if_true]
  rfl

end Decoded

namespace Instruction

open Decoded

/-! ### In a grown pool -/

theorem Legible.of_extends [Build] (h : pool.Extends pool') {i : Instruction}
    (hi : i.Legible pool) :
    i.Legible pool' := by
  by_cases hplain : i.isPlain
  · rw [legible_iff_of_isPlain hplain] at hi ⊢
    obtain ⟨op, operands, hfit, hi⟩ := hi
    exact ⟨op, operands, hfit, settle_of_extends h hi⟩
  · cases i with
    | jump | tableSwitch | lookupSwitch => exact hi
    | _ => exact absurd rfl hplain

/-! ### Accesses to locals -/

theorem legible_of_lift? [Build] {i : Instruction} (op : Opcode) (operands : Bytes)
    (hfit : OperandsFit op operands) (hlift : lift? pool op operands = .ok (some i))
    (hbytes : i.encodeAt Layout.empty ⟨"", 0, 0⟩ = .ok (op :: operands)) : i.Legible pool :=
  (legible_iff_of_isPlain (isPlain_of_lift? hlift)).mpr
    ⟨op, operands, hfit, settle_of_lift? hlift hbytes⟩

/-- The two bytes of a word, and the word of the two bytes. -/
theorem exists_ofU16_eq (v : UInt16) : ∃ high low : UInt8,
    Bytes.ofU16 v = [high, low] ∧ UInt16.ofNat (BigEndian.decode [high, low]) = v := by
  have hlen : (Bytes.ofU16 v).length = 2 := BigEndian.length_encode 2 _
  obtain ⟨high, low, hbytes⟩ := List.length_eq_two.mp hlen
  refine ⟨high, low, hbytes, ?_⟩
  rw [← hbytes, Bytes.ofU16, BigEndian.decode_encode v.toNat_lt, UInt16.ofNat_toNat]

theorem uint16_cases {index : UInt16} (h : index ≤ 3) :
    index = 0 ∨ index = 1 ∨ index = 2 ∨ index = 3 := by
  have h : index.toNat ≤ 3 := UInt16.le_iff_toNat_le.mp h
  simp only [← UInt16.toNat_inj]
  show index.toNat = 0 ∨ index.toNat = 1 ∨ index.toNat = 2 ∨ index.toNat = 3
  omega

theorem operands_of_short {index : UInt16} (h : index ≤ 3) (kind : ValueKind) (stores : Bool) :
    (Opcode.info? (localInstruction ⟨kind, stores, none⟩ index).opcode).map OpcodeInfo.operands =
      some .none := by
  rcases uint16_cases h with rfl | rfl | rfl | rfl
  all_goals
    cases stores
    all_goals
      cases kind
      all_goals cbv

theorem operands_of_long (kind : ValueKind) :
    (Opcode.info? (Opcode.load kind)).map OpcodeInfo.operands = some (.fixed 1) ∧
      (Opcode.info? (Opcode.store kind)).map OpcodeInfo.operands = some (.fixed 1) := by
  cases kind
  all_goals cbv

/-- An access to a local is read again whether its opcode names the local or an operand does. -/
theorem legible_localInstruction [Build] (kind : ValueKind) (stores : Bool) (index : UInt16) :
    (localInstruction ⟨kind, stores, none⟩ index).Legible pool := by
  by_cases h₃ : index ≤ 3
  · -- The opcode names the local: forty opcodes, each read as that access.
    refine legible_of_lift? (localInstruction ⟨kind, stores, none⟩ index).opcode []
      (operandsFit_none (operands_of_short h₃ kind stores)) ?_ ?_
    all_goals
      rcases uint16_cases h₃ with rfl | rfl | rfl | rfl
      all_goals
        cases stores
        all_goals
          cases kind
          all_goals rfl
  by_cases h₂₅₅ : index ≤ 255
  · -- The index takes one byte.
    have hindex : index.toUInt8.toUInt16 = index := by
      rw [← UInt16.toNat_inj, UInt8.toNat_toUInt16, UInt16.toNat_toUInt8]
      have : index.toNat ≤ 255 := UInt16.le_iff_toNat_le.mp h₂₅₅
      omega
    have hbytes : ∀ short long : Opcode, localBytes index short long = [long, index.toUInt8] :=
      fun _ _ => by rw [localBytes, if_neg h₃, if_pos h₂₅₅]
    cases stores
    · refine legible_of_lift? (Opcode.load kind) [index.toUInt8]
        (operandsFit_fixed (operands_of_long kind).1 rfl) ?_ (congrArg Except.ok (hbytes _ _))
      have hlift : lift? pool (Opcode.load kind) [index.toUInt8] =
          .ok (some (localInstruction ⟨kind, false, none⟩ index.toUInt8.toUInt16)) := by
        cases kind
        all_goals rfl
      rw [hlift, hindex]
    · refine legible_of_lift? (Opcode.store kind) [index.toUInt8]
        (operandsFit_fixed (operands_of_long kind).2 rfl) ?_ (congrArg Except.ok (hbytes _ _))
      have hlift : lift? pool (Opcode.store kind) [index.toUInt8] =
          .ok (some (localInstruction ⟨kind, true, none⟩ index.toUInt8.toUInt16)) := by
        cases kind
        all_goals rfl
      rw [hlift, hindex]
  · -- It takes two, behind a `wide`.
    obtain ⟨high, low, hpair, hindex⟩ := exists_ofU16_eq index
    have hbytes : ∀ short long : Opcode,
        localBytes index short long = [Opcode.wide, long, high, low] :=
      fun _ _ => by rw [localBytes, if_neg h₃, if_neg h₂₅₅, hpair]
    have hlift : ∀ modified : Opcode, Opcode.localForm? modified = some ⟨kind, stores, none⟩ →
        lift? pool Opcode.wide [modified, high, low] =
          .ok (some (localInstruction ⟨kind, stores, none⟩ index)) := by
      intro modified hform
      rw [lift?, if_pos rfl, hform]
      simp only [hindex]
    cases stores
    · have hform := Opcode.localForm?_load kind
      exact legible_of_lift? _ _ (operandsFit_wide (wideOperands?_of_localForm? hform))
        (hlift _ hform) (congrArg Except.ok (hbytes _ _))
    · have hform := Opcode.localForm?_store kind
      exact legible_of_lift? _ _ (operandsFit_wide (wideOperands?_of_localForm? hform))
        (hlift _ hform) (congrArg Except.ok (hbytes _ _))

theorem legible_loadLocal [Build] (index : UInt16) (kind : ValueKind) :
    (loadLocal index kind).Legible pool :=
  legible_localInstruction kind false index

theorem legible_storeLocal [Build] (index : UInt16) (kind : ValueKind) :
    (storeLocal index kind).Legible pool :=
  legible_localInstruction kind true index

/-! ### Opcodes without operands -/

theorem legible_pop [Build] : pop.Legible pool :=
  legible_of_lift? Opcode.pop [] (operandsFit_none (by cbv)) rfl rfl

theorem legible_pop2 [Build] : pop2.Legible pool :=
  legible_of_lift? Opcode.pop2 [] (operandsFit_none (by cbv)) rfl rfl

theorem legible_exit [Build] (kind : Option ValueKind) : (exit kind).Legible pool := by
  have hform : (Opcode.info? (Opcode.returning kind)).map OpcodeInfo.operands = some .none := by
    rcases kind with _ | kind
    · cbv
    · cases kind
      all_goals cbv
  have hop : Opcode.returning kind ≠ Opcode.wide ∧ Opcode.returning kind ≠ Opcode.pop ∧
      Opcode.returning kind ≠ Opcode.pop2 ∧
      ¬(Opcode.getstatic ≤ Opcode.returning kind ∧
        Opcode.returning kind ≤ Opcode.invokeinterface) := by
    rcases kind with _ | kind
    · decide
    · cases kind
      all_goals decide
  obtain ⟨hwide, hpop, hpop2, hmember⟩ := hop
  refine legible_of_lift? (Opcode.returning kind) [] (operandsFit_none hform) ?_ rfl
  unfold lift?
  rw [if_neg hwide, if_neg hpop, if_neg hpop2, if_neg hmember, Opcode.returned?_returning]

/-! ### Accesses to members -/

/-- An access to a member is read again where its index resolves to the member, whatever stands
behind the index. -/
theorem legible_member [Build] {m : MemberRef} (hm : pool.memberRef m.index = .ok m)
    (f : MemberRef → Instruction) (op : Opcode) (tail : Bytes)
    (hop : (Opcode.info? op).map OpcodeInfo.operands = some (.fixed (tail.length + 2)))
    (hlift : ∀ high low, lift? pool op (high :: low :: tail) = do
      return some (f (← pool.memberRef (UInt16.ofNat (BigEndian.decode [high, low])))))
    (hencode : (f m).encodeAt Layout.empty ⟨"", 0, 0⟩ =
      .ok (op :: (Bytes.ofU16 m.index ++ tail))) : (f m).Legible pool := by
  obtain ⟨high, low, hbytes, hindex⟩ := exists_ofU16_eq m.index
  rw [hbytes] at hencode
  refine legible_of_lift? op (high :: low :: tail) (operandsFit_fixed hop rfl) ?_ hencode
  rw [hlift, hindex, hm]
  rfl

theorem legible_loadField [Build] {m : MemberRef} (hm : pool.memberRef m.index = .ok m)
    (isStatic : Bool) : (loadField m isStatic).Legible pool := by
  cases isStatic with
  | false =>
    exact legible_member hm (loadField · false) Opcode.getfield [] (by cbv)
      (fun _ _ => rfl) rfl
  | true =>
    exact legible_member hm (loadField · true) Opcode.getstatic [] (by cbv)
      (fun _ _ => rfl) rfl

theorem legible_storeField [Build] {m : MemberRef} (hm : pool.memberRef m.index = .ok m)
    (isStatic : Bool) : (storeField m isStatic).Legible pool := by
  cases isStatic with
  | false =>
    exact legible_member hm (storeField · false) Opcode.putfield [] (by cbv)
      (fun _ _ => rfl) rfl
  | true =>
    exact legible_member hm (storeField · true) Opcode.putstatic [] (by cbv)
      (fun _ _ => rfl) rfl

/-- A call is read again if it can be written: one through an interface is written with the slots of
its arguments. -/
theorem legible_invoke [Build] {m : MemberRef} (hm : pool.memberRef m.index = .ok m)
    {dispatch : Dispatch} {layout : Layout} {site : Site} {b : Bytes}
    (hb : (invoke m dispatch).encodeAt layout site = .ok b) :
    (invoke m dispatch).Legible pool := by
  obtain ⟨tail, htail, -⟩ := encodeAt_invoke_eq_ok_iff.mp hb
  have hencode : (invoke m dispatch).encodeAt Layout.empty ⟨"", 0, 0⟩ =
      .ok (dispatch.opcode :: (Bytes.ofU16 m.index ++ tail)) :=
    encodeAt_invoke_eq_ok_iff.mpr ⟨tail, htail, rfl⟩
  cases dispatch with
  | interface =>
    refine legible_member hm (invoke · .interface) Opcode.invokeinterface tail ?_
      (fun _ _ => rfl) hencode
    rw [length_interfaceTail htail]
    cbv
  | virtual =>
    exact legible_member hm (invoke · .virtual) Opcode.invokevirtual [] (by cbv)
      (fun _ _ => rfl) rfl
  | special =>
    exact legible_member hm (invoke · .special) Opcode.invokespecial [] (by cbv)
      (fun _ _ => rfl) rfl
  | static =>
    exact legible_member hm (invoke · .static) Opcode.invokestatic [] (by cbv)
      (fun _ _ => rfl) rfl

/-- The instructions of a handler call are legible where their members resolve. -/
theorem legible_handlerCall [Build] {slot : UInt16} {kind : ValueKind}
    {holder world player handler : MemberRef}
    (hholder : pool.memberRef holder.index = .ok holder)
    (hworld : pool.memberRef world.index = .ok world)
    (hplayer : pool.memberRef player.index = .ok player)
    (hhandler : pool.memberRef handler.index = .ok handler) :
    ∀ i ∈ handlerCall slot kind holder world player handler, i.Legible pool := by
  have hcall : (invoke handler .virtual).encodeAt Layout.empty ⟨"", 0, 0⟩ =
      .ok (Opcode.invokevirtual :: (Bytes.ofU16 handler.index ++ [])) :=
    encodeAt_invoke_eq_ok_iff.mpr ⟨[], rfl, rfl⟩
  simp only [handlerCall, List.forall_mem_cons]
  exact ⟨legible_storeLocal _ _, legible_loadField hholder true, legible_loadLocal _ _,
    legible_loadField hworld false, legible_loadLocal _ _, legible_loadField hplayer false,
    legible_loadLocal _ _, legible_loadLocal _ _, legible_loadLocal _ _, legible_loadLocal _ _,
    legible_invoke hhandler hcall, List.forall_mem_nil _⟩

end Instruction

end ClassGraft
