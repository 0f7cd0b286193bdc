/-
Calls that take too many slots to be counted.

A call through an interface is written with the slots of its arguments in one byte, so reading a
code array counts them.  A build that checks its sums is stopped where they go beyond sixteen bits,
and that is the only thing that stops it: an instruction is refused so exactly if the bytes open
with such a call (`Decoded.readInstruction_eq_overflow_iff`), the loop exactly if it comes to one
(`Decoded.loops_overflow_iff`), and a code array exactly if one follows instructions that can be
read (`decode_eq_overflow_iff`).
-/
import ClassGraft.Proofs.Refusals

namespace ClassGraft

open Step Reader

/-- Whether bytes open with a call through an interface that takes more slots, with its receiver,
than sixteen bits can count. -/
def ConstantPool.OpensWide (pool : ConstantPool) (bytes : Bytes) : Prop :=
  ∃ high low count zero rest member d,
    bytes = Opcode.invokeinterface :: high :: low :: count :: zero :: rest ∧
    pool.memberRef (UInt16.ofNat (BigEndian.decode [high, low])) = .ok member ∧
    MethodDescriptor.parse member.descriptor = .ok d ∧ 65536 ≤ d.slotCount true

namespace Decoded

/-! ### One instruction -/

/-- A call through an interface has four bytes of operands. -/
theorem operands_invokeinterface :
    (Opcode.info? Opcode.invokeinterface).map OpcodeInfo.operands = some (.fixed 4) := by
  cbv

theorem not_overflow_of_guarded {α : Type} {r : Reader α} (h : Guarded r) {c c' : Cursor} :
    r c ≠ .error .overflow c' :=
  fun hr => absurd (h _ _ _ hr) (by decide)

variable [Build] {pool : ConstantPool} {c : Cursor}

theorem settle_eq_overflow_iff {offset : Nat} {op : Opcode} {operands : Bytes} :
    settle pool offset op operands = .error .overflow ↔
      Build.checksSums ∧ ∃ i, lift? pool op operands = .ok (some i) ∧ i.Overcounts := by
  rw [settle, Bytes.bind_eq_error_iff]
  constructor
  · rintro (h | ⟨lifted, hlift, h⟩)
    · exact absurd (failsWith_lift? pool op operands _ h) (by decide)
    · split at h
      · cases h
      · split at h
        · cases h
        · next hover =>
          obtain ⟨hchecks, hover⟩ := Instruction.encodeAt_eq_overflow_iff.mp hover
          exact ⟨hchecks, _, hlift, hover⟩
        · cases h
  · rintro ⟨hchecks, i, hlift, hover⟩
    have hencode : i.encodeAt Layout.empty ⟨"", 0, offset⟩ = .error .overflow :=
      Instruction.encodeAt_eq_overflow_iff.mpr ⟨hchecks, hover⟩
    refine .inr ⟨some i, hlift, ?_⟩
    simp only [hencode]
    rfl

/-- Where settling on an instruction stops the program, the instruction is a wide call. -/
theorem opensWide_of_settle {offset : Nat} {op : Opcode} {operands : Bytes} (rest : Bytes)
    (hlen : op = Opcode.invokeinterface → operands.length = 4)
    (h : settle pool offset op operands = .error .overflow) :
    Build.checksSums ∧ pool.OpensWide (op :: (operands ++ rest)) := by
  obtain ⟨hchecks, i, hlift, hover⟩ := settle_eq_overflow_iff.mp h
  obtain ⟨high, low, tail, member, d, rfl, rfl, hmember⟩ := exists_member_of_lift? hlift hover
  have htail : tail.length = 2 := Nat.succ_injective (Nat.succ_injective (hlen rfl))
  obtain ⟨count, zero, rfl⟩ := List.length_eq_two.mp htail
  exact ⟨hchecks, high, low, count, zero, rest, member, d, rfl, hmember⟩

/-- Where reading an instruction stops the program, the bytes open with a wide call. -/
theorem opensWide_of_readInstruction {c' : Cursor}
    (h : readInstruction pool c = .error .overflow c') :
    Build.checksSums ∧ pool.OpensWide c.rest := by
  rcases bind_eq_error_iff.mp h with h | ⟨offset, _, hpos, h⟩
  · exact absurd h (not_overflow_of_guarded guarded_pos)
  obtain ⟨-, rfl⟩ := pos_eq_ok_iff.mp hpos
  rcases bind_eq_error_iff.mp h with h | ⟨op, c₁, hop, h⟩
  · exact absurd h (not_overflow_of_guarded guarded_u8)
  rw [(u8_eq_ok_iff.mp hop).1, List.singleton_append]
  cases hinfo : Opcode.info? op with
  | none =>
    simp only [hinfo] at h
    exact absurd h (not_overflow_of_guarded (guarded_malformed _))
  | some info =>
    -- What a call through an interface has for operands.
    have hform : op = Opcode.invokeinterface → info.operands = .fixed 4 := by
      rintro rfl
      have hform := operands_invokeinterface
      rw [hinfo] at hform
      exact Option.some.inj hform
    simp only [hinfo] at h
    cases hoperands : info.operands with
    | none =>
      simp only [hoperands] at h
      obtain ⟨hsettle, -⟩ := ofExcept_eq_error_iff.mp h
      refine opensWide_of_settle _ (fun hcall => ?_) hsettle
      exact absurd (hoperands.symm.trans (hform hcall)) (by simp)
    | fixed count =>
      simp only [hoperands] at h
      rcases bind_eq_error_iff.mp h with h | ⟨operands, c₂, hread, h⟩
      · exact absurd h (not_overflow_of_guarded (guarded_bytes _))
      obtain ⟨hlen, hrest, -⟩ := bytes_eq_ok_iff.mp hread
      obtain ⟨hsettle, -⟩ := ofExcept_eq_error_iff.mp h
      rw [hrest]
      refine opensWide_of_settle _ (fun hcall => hlen.trans ?_) hsettle
      exact OperandForm.fixed.inj (hoperands.symm.trans (hform hcall))
    | branch16 =>
      simp only [hoperands] at h
      refine absurd h (not_overflow_of_guarded (guarded_i16.bind fun delta => ?_))
      exact (guarded_of_malformed (failsWith_absolute offset _)).then_pure _
    | branch32 =>
      simp only [hoperands] at h
      exact absurd h (not_overflow_of_guarded ((guarded_readFar offset).then_pure _))
    | tableSwitch =>
      simp only [hoperands] at h
      exact absurd h (not_overflow_of_guarded (guarded_readTableSwitch offset))
    | lookupSwitch =>
      simp only [hoperands] at h
      exact absurd h (not_overflow_of_guarded (guarded_readLookupSwitch offset))
    | wide =>
      simp only [hoperands] at h
      rcases bind_eq_error_iff.mp h with h | ⟨operands, c₂, -, h⟩
      · exact absurd h (not_overflow_of_guarded (guarded_readWide offset))
      obtain ⟨hsettle, -⟩ := ofExcept_eq_error_iff.mp h
      obtain ⟨-, i, hlift, hover⟩ := settle_eq_overflow_iff.mp hsettle
      obtain ⟨_, _, _, _, _, hcall, -⟩ := exists_member_of_lift? hlift hover
      exact absurd (hoperands.symm.trans (hform hcall)) (by simp)

/-- Where the bytes open with a wide call, a build that checks its sums is stopped. -/
theorem readInstruction_of_opensWide (hchecks : Build.checksSums) (h : pool.OpensWide c.rest) :
    ∃ c', readInstruction pool c = .error .overflow c' := by
  obtain ⟨high, low, count, zero, rest, member, d, hrest, hmember, hd, hmany⟩ := h
  obtain ⟨pos, _⟩ := c
  obtain rfl := hrest
  have hlift : lift? pool Opcode.invokeinterface [high, low, count, zero] =
      .ok (some (.invoke member .interface)) := by
    show (do return some (Instruction.invoke (← pool.memberRef _) .interface)) = _
    rw [hmember]
    rfl
  have hsettle : settle pool pos Opcode.invokeinterface [high, low, count, zero] =
      .error .overflow :=
    settle_eq_overflow_iff.mpr ⟨hchecks, _, hlift, member, d, rfl, hd, hmany⟩
  have hop : Reader.u8 ⟨pos, Opcode.invokeinterface :: high :: low :: count :: zero :: rest⟩ =
      .ok Opcode.invokeinterface ⟨pos + 1, high :: low :: count :: zero :: rest⟩ :=
    u8_eq_ok_iff.mpr ⟨rfl, rfl⟩
  have hoperands : Reader.bytes 4 ⟨pos + 1, high :: low :: count :: zero :: rest⟩ =
      .ok [high, low, count, zero] ⟨pos + 1 + 4, rest⟩ :=
    bytes_eq_ok_iff.mpr ⟨rfl, rfl, rfl⟩
  obtain ⟨info, hinfo, hfixed⟩ := Option.map_eq_some_iff.mp operands_invokeinterface
  refine ⟨⟨pos + 1 + 4, rest⟩, bind_eq_error_iff.mpr (.inr ⟨pos, _, rfl,
    bind_eq_error_iff.mpr (.inr ⟨_, _, hop, ?_⟩)⟩)⟩
  simp only [hinfo, hfixed]
  exact bind_eq_error_iff.mpr (.inr ⟨_, _, hoperands, ofExcept_eq_error_iff.mpr ⟨hsettle, rfl⟩⟩)

/-- Reading an instruction stops the program exactly at a wide call. -/
theorem readInstruction_eq_overflow_iff : (∃ c', readInstruction pool c = .error .overflow c') ↔
    Build.checksSums ∧ pool.OpensWide c.rest :=
  ⟨fun ⟨_, h⟩ => opensWide_of_readInstruction h, fun ⟨hchecks, h⟩ =>
    readInstruction_of_opensWide hchecks h⟩

/-! ### The loop -/

theorem readNext_eq_overflow_iff : (∃ c', readNext pool c = .error .overflow c') ↔
    Build.checksSums ∧ pool.OpensWide c.rest := by
  rw [← readInstruction_eq_overflow_iff, readNext, mapFault, transaction]
  cases readInstruction pool c with
  | ok i c' => simp
  | error fault c' => cases fault <;> simp [nameCut]

/-- The loop stops the program exactly at a wide call that it comes to. -/
theorem loops_overflow_iff {done : List (Nat × Instruction)} :
    (∃ c', Loops pool done c (.error .overflow c')) ↔ Build.checksSums ∧
      ∃ list front m, Spelled pool c.pos list front ∧ c.Advances front m ∧
        pool.OpensWide m.rest := by
  constructor
  · rintro ⟨c', h⟩
    generalize hout : EStateM.Result.error Fault.overflow c' = out at h
    induction h with
    | stop => cases hout
    | @next done c m i out hmore hnext hloops ih =>
      obtain ⟨hchecks, list, front, m', hspelled, hfront, hwide⟩ := ih hout
      obtain ⟨a, ha, hadv⟩ := readNext_eq_ok_iff.mp hnext
      rw [hadv.2] at hspelled
      exact ⟨hchecks, i :: list, a ++ front, m', ⟨a, front, ha, hspelled, rfl⟩,
        hadv.append hfront, hwide⟩
    | @fail done c m fault hmore hnext =>
      obtain ⟨rfl, -⟩ := EStateM.Result.error.inj hout
      obtain ⟨hchecks, hwide⟩ := readNext_eq_overflow_iff.mp ⟨_, hnext⟩
      exact ⟨hchecks, [], [], c, rfl, Cursor.advances_nil.mpr rfl, hwide⟩
  · rintro ⟨hchecks, list, front, m, hspelled, hfront, hwide⟩
    induction list generalizing c done front with
    | nil =>
      obtain rfl : front = [] := hspelled
      obtain rfl := Cursor.advances_nil.mp hfront
      obtain ⟨c', hnext⟩ := readNext_eq_overflow_iff.mpr ⟨hchecks, hwide⟩
      refine ⟨c', .fail ?_ hnext⟩
      obtain ⟨_, _, _, _, _, _, _, hrest, -⟩ := hwide
      rw [hrest]
      simp
    | cons i list ih =>
      obtain ⟨a, b, ha, hb, rfl⟩ := hspelled
      obtain ⟨m', hadv, hadv'⟩ := Cursor.advances_append.mp hfront
      rw [← hadv.2] at hb
      obtain ⟨c', hloops⟩ : ∃ c', Loops pool ((c.pos, i) :: done) m' (.error .overflow c') :=
        ih b hb hadv'
      refine ⟨c', .next ?_ (readNext_eq_ok_iff.mpr ⟨a, ha, hadv⟩) hloops⟩
      -- An instruction takes at least one byte.
      have hpos : a ≠ [] := by
        rw [← List.length_pos_iff, length_of_spelling ha]
        exact i.size_pos c.pos
      rw [hadv.1]
      exact List.append_ne_nil_of_left_ne_nil hpos _

end Decoded

open Decoded

/-- A code array stops the program exactly if instructions that can be read are followed by a wide
call. -/
theorem decode_eq_overflow_iff [Build] {pool : ConstantPool} {code : Bytes} :
    decode pool code = .error .overflow ↔ Build.checksSums ∧
      ∃ list front rest, code = front ++ rest ∧ Spelled pool 0 list front ∧
        pool.OpensWide rest := by
  have hloop : (readInstructions pool code.length []).eval code = .error .overflow ↔
      Build.checksSums ∧ ∃ list front m, Spelled pool 0 list front ∧
        (Cursor.start code).Advances front m ∧ pool.OpensWide m.rest := by
    have hstop : (∃ c', Loops pool [] (Cursor.start code) (.error .overflow c')) ↔ _ :=
      loops_overflow_iff
    rw [eval_eq_error_iff]
    refine Iff.trans (exists_congr fun c' => ?_) hstop
    have hrun : Loops pool [] (Cursor.start code) (.error .overflow c') ↔
        .error .overflow c' = readInstructions pool code.length [] (Cursor.start code) :=
      loops_iff le_rfl
    rw [hrun, eq_comm]
  rw [decode, Bytes.bind_eq_error_iff, hloop]
  constructor
  · rintro (⟨hchecks, list, front, m, hspelled, hadv, hwide⟩ | ⟨list, -, h⟩)
    · exact ⟨hchecks, list, front, m.rest, hadv.1, hspelled, hwide⟩
    · -- Targets are resolved without counting anything.
      refine absurd (FailsBy.bind (P := fun fault => fault.kind ∈ [.malformed])
        (FailsBy.mapM fun entry _ => ?_) (fun _ => .ok _ _) _ h) (by decide)
      exact Instruction.failsBy_mapTargetsM (failsWith_resolveTarget _ _ _) _
  · rintro ⟨hchecks, list, front, rest, hcode, hspelled, hwide⟩
    exact .inl ⟨hchecks, list, front, ⟨front.length, rest⟩, hspelled,
      ⟨hcode, (Nat.zero_add _).symm⟩, hwide⟩

end ClassGraft
