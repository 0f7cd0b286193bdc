/-
The local slots of a body.

Which local an instruction accesses, and over how many slots, is said form by form
(`Instruction.Accesses`): typed loads and stores, and what is kept as bytes, with an operand of one
byte, with none, or widened.  The program finds all of these accesses
(`Instruction.Accesses.exists_localAccess`).

The watermark of a body is the least number that is not below the declared size, the slots of the
parameters and the end of each access, where no end counts for more than two bytes hold
(`Code.localWatermark_le_iff`).
-/
import ClassGraft.Proofs.Renumbering

namespace ClassGraft

namespace Instruction

/-- Whether an instruction accesses the local at an index, over so many slots. -/
inductive Accesses : Instruction → Nat → Nat → Prop where
  | load (index : UInt16) (kind : ValueKind) :
    Accesses (.loadLocal index kind) index.toNat kind.width
  | store (index : UInt16) (kind : ValueKind) :
    Accesses (.storeLocal index kind) index.toNat kind.width
  /-- A load or a store with a one-byte index. -/
  | long {op : Opcode} {kind : ValueKind} (h : op = Opcode.load kind ∨ op = Opcode.store kind)
    (index : UInt8) (rest : Bytes) : Accesses (.other op (index :: rest)) index.toNat kind.width
  /-- A load or a store whose opcode names one of the first four locals. -/
  | short {op : Opcode} {kind : ValueKind} (index : Fin 4)
    (h : op = Opcode.loadShort kind + UInt8.ofNat index ∨
      op = Opcode.storeShort kind + UInt8.ofNat index) (operands : Bytes) :
    Accesses (.other op operands) index kind.width
  /-- An increment of a local, or a return to the address that it holds. -/
  | single {op : Opcode} (h : op = Opcode.iinc ∨ op = Opcode.ret) (index : UInt8) (rest : Bytes) :
    Accesses (.other op (index :: rest)) index.toNat 1
  | wideLong {op : Opcode} {kind : ValueKind} (h : op = Opcode.load kind ∨ op = Opcode.store kind)
    (high low : UInt8) (rest : Bytes) :
    Accesses (.other Opcode.wide (op :: high :: low :: rest)) (high.toNat * 256 + low.toNat)
      kind.width
  | wideSingle {op : Opcode} (h : op = Opcode.iinc ∨ op = Opcode.ret) (high low : UInt8)
    (rest : Bytes) :
    Accesses (.other Opcode.wide (op :: high :: low :: rest)) (high.toNat * 256 + low.toNat) 1

/-- Whether an instruction accesses a slot, be it the second one of a value of two. -/
def Touches (i : Instruction) (slot : Nat) : Prop :=
  ∃ index width, i.Accesses index width ∧ index ≤ slot ∧ slot < index + width

@[simp] theorem localAccess_mapTargets (f : Nat → Nat) (i : Instruction) :
    (i.mapTargets f).localAccess = i.localAccess := by
  cases i <;> rfl

/-- An opcode that needs an index is a load or a store and nothing else. -/
theorem localForm?_of_long {op : Opcode} {kind : ValueKind}
    (h : op = Opcode.load kind ∨ op = Opcode.store kind) :
    ¬(op = Opcode.iinc ∨ op = Opcode.ret) ∧ op ≠ Opcode.wide ∧
      ∃ stores, Opcode.localForm? op = some ⟨kind, stores, none⟩ := by
  rcases h with rfl | rfl
  · exact ⟨by cases kind <;> decide, by cases kind <;> decide, _, Opcode.localForm?_load kind⟩
  · exact ⟨by cases kind <;> decide, by cases kind <;> decide, _, Opcode.localForm?_store kind⟩

/-- So is an opcode that names a local. -/
theorem localForm?_of_short {op : Opcode} {kind : ValueKind} {index : Fin 4}
    (h : op = Opcode.loadShort kind + UInt8.ofNat index ∨
      op = Opcode.storeShort kind + UInt8.ofNat index) :
    ¬(op = Opcode.iinc ∨ op = Opcode.ret) ∧ op ≠ Opcode.wide ∧
      ∃ stores, Opcode.localForm? op = some ⟨kind, stores, some (UInt16.ofNat index)⟩ := by
  rcases h with rfl | rfl
  all_goals
    cases kind
    all_goals
      revert index
      decide

theorem wide_ne_single : ¬(Opcode.wide = Opcode.iinc ∨ Opcode.wide = Opcode.ret) := by decide

theorem toNat_ofNat_decode (high low : UInt8) :
    (UInt16.ofNat (BigEndian.decode [high, low])).toNat = high.toNat * 256 + low.toNat := by
  have hhigh := high.toNat_lt
  have hlow := low.toNat_lt
  have hdecode : BigEndian.decode [high, low] = high.toNat * 256 + low.toNat := by
    simp [BigEndian.decode]
  rw [hdecode, UInt16.toNat_ofNat_of_lt' (by show _ < 65536; omega)]

/-- The program finds every access. -/
theorem Accesses.exists_localAccess {i : Instruction} {index width : Nat}
    (h : i.Accesses index width) :
    ∃ v : UInt16, v.toNat = index ∧ i.localAccess = some (v, width) := by
  cases h with
  | load v kind => exact ⟨v, rfl, rfl⟩
  | store v kind => exact ⟨v, rfl, rfl⟩
  | long h b rest =>
    obtain ⟨hsingle, hwide, stores, hform⟩ := localForm?_of_long h
    refine ⟨b.toUInt16, UInt8.toNat_toUInt16 b, (if_neg hsingle).trans ((if_neg hwide).trans ?_)⟩
    rw [hform]
    rfl
  | short index h operands =>
    obtain ⟨hsingle, hwide, stores, hform⟩ := localForm?_of_short h
    refine ⟨UInt16.ofNat index, UInt16.toNat_ofNat_of_lt' (by show _ < 65536; omega),
      (if_neg hsingle).trans ((if_neg hwide).trans ?_)⟩
    rw [hform]
  | single h b rest =>
    exact ⟨b.toUInt16, UInt8.toNat_toUInt16 b, if_pos h⟩
  | wideLong h high low rest =>
    obtain ⟨hsingle, -, stores, hform⟩ := localForm?_of_long h
    refine ⟨_, toNat_ofNat_decode high low, ?_⟩
    rw [localAccess, if_neg wide_ne_single, if_pos rfl]
    simp only [if_neg hsingle, hform]
    rfl
  | wideSingle h high low rest =>
    refine ⟨_, toNat_ofNat_decode high low, ?_⟩
    rw [localAccess, if_neg wide_ne_single, if_pos rfl]
    simp only [if_pos h]

end Instruction

/-! ### The watermark -/

theorem foldl_max_le_iff {xs : List Nat} {a n : Nat} :
    xs.foldl max a ≤ n ↔ a ≤ n ∧ ∀ x ∈ xs, x ≤ n := by
  induction xs generalizing a with
  | nil => simp
  | cons x rest ih => rw [List.foldl_cons, ih, Nat.max_le, List.forall_mem_cons, and_assoc]

namespace Code

variable {code : Code} {slots n : Nat} {i : Instruction}

theorem localWatermark_le_iff : code.localWatermark slots ≤ n ↔
    code.maxLocals.toNat ≤ n ∧ slots ≤ n ∧ ∀ i ∈ code.instructions, ∀ index width,
      i.localAccess = some (index, width) → min (index.toNat + width) 65535 ≤ n := by
  rw [localWatermark, foldl_max_le_iff, Nat.max_le, and_assoc]
  refine and_congr_right fun _ => and_congr_right fun _ => ?_
  simp only [List.forall_mem_map, List.mem_filterMap, Prod.forall]
  constructor
  · exact fun h i hi index width haccess => h index width ⟨i, hi, haccess⟩
  · rintro h index width ⟨i, hi, haccess⟩
    exact h i hi index width haccess

theorem maxLocals_le_localWatermark (code : Code) (slots : Nat) :
    code.maxLocals.toNat ≤ code.localWatermark slots :=
  (localWatermark_le_iff.mp le_rfl).1

theorem slots_le_localWatermark (code : Code) (slots : Nat) : slots ≤ code.localWatermark slots :=
  (localWatermark_le_iff.mp le_rfl).2.1

theorem end_le_localWatermark (slots : Nat) (hi : i ∈ code.instructions) {index : UInt16}
    {width : Nat} (h : i.localAccess = some (index, width)) :
    min (index.toNat + width) 65535 ≤ code.localWatermark slots :=
  (localWatermark_le_iff.mp le_rfl).2.2 i hi index width h

/-- A watermark fits two bytes where the slots of the parameters do. -/
theorem localWatermark_le (code : Code) (hslots : slots ≤ 65535) :
    code.localWatermark slots ≤ 65535 :=
  localWatermark_le_iff.mpr ⟨Nat.le_of_lt_succ code.maxLocals.toNat_lt, hslots,
    fun _ _ _ _ _ => Nat.min_le_right _ _⟩

/-- Below the limit of two bytes, an access ends where it says. -/
theorem end_le_of_localWatermark_lt (h : code.localWatermark slots < 65535)
    (hi : i ∈ code.instructions) {index : UInt16} {width : Nat}
    (haccess : i.localAccess = some (index, width)) :
    index.toNat + width ≤ code.localWatermark slots := by
  have := end_le_localWatermark slots hi haccess
  omega

end Code

end ClassGraft
