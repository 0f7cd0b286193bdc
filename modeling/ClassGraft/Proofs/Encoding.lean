/-
Spelling an instruction at its place.

What reading makes of a spelling is written as that spelling again, and what is written is a
spelling (`encodeAt_iff_spelling`): between positions and offsets a displacement stands for the
place that an instruction lies at (`near_eq_ok_iff`, `far_eq_ok_iff`), the padding of a switch is
zero, and an instruction without targets is written as the bytes that were settled on
(`encodeAt_of_settle`).  The instructions that reading gives are the legible ones
(`Instruction.Legible`).
-/
import ClassGraft.Proofs.Spelling

namespace ClassGraft

namespace Instruction

/-- Whether the instruction chooses among targets. -/
def isSwitch : Instruction → Bool
  | .tableSwitch .. | .lookupSwitch .. => true
  | _ => false

/-- Whether control can only go on behind the instruction, as far as its constructor tells. -/
def isPlain : Instruction → Bool
  | .jump .. | .tableSwitch .. | .lookupSwitch .. => false
  | _ => true

/-- The instructions that reading gives, their targets left aside: a branch has the opcode of one, a
table switch has cases, and an instruction without targets is what its bytes are settled on. -/
def Legible [Build] (pool : ConstantPool) : Instruction → Prop
  | .jump op _ => op.form? = some .branch16 ∨ op.form? = some .branch32
  | .tableSwitch _ _ targets => targets ≠ []
  | .lookupSwitch .. => True
  | i => ∃ op operands, Decoded.OperandsFit op operands ∧
      Decoded.settle pool 0 op operands = .ok i

/-- Whether the padding of a switch at an offset is zero. -/
def ZeroPadded (offset : Nat) (i : Instruction) (bytes : Bytes) : Prop :=
  i.isSwitch → (bytes.drop 1).take (switchPadding offset) = paddingBytes offset

theorem length_paddingBytes (offset : Nat) :
    (paddingBytes offset).length = switchPadding offset := by
  rw [paddingBytes, List.length_replicate]

theorem zeroPadded_paddingBytes (offset : Nat) (i : Instruction) (op : Opcode) (rest : Bytes) :
    i.ZeroPadded offset (op :: (paddingBytes offset ++ rest)) := by
  intro _
  rw [List.drop_one, List.tail_cons, List.take_left' (length_paddingBytes offset)]

/-- The padding of a switch stands behind its opcode. -/
theorem ZeroPadded.eq_paddingBytes {offset : Nat} {i : Instruction} {op : Opcode}
    {pad rest : Bytes} (h : i.ZeroPadded offset (op :: (pad ++ rest))) (hi : i.isSwitch)
    (hpad : pad.length = switchPadding offset) : pad = paddingBytes offset := by
  rw [← h hi, List.drop_one, List.tail_cons, List.take_left' hpad]

theorem mapTargets_of_isPlain {i : Instruction} (h : i.isPlain) (f : Nat → Nat) :
    i.mapTargets f = i := by
  cases i with
  | jump | tableSwitch | lookupSwitch => exact absurd h (by simp [isPlain])
  | _ => rfl

theorem mapTargetsM_of_isPlain {ε : Type} {i : Instruction} (h : i.isPlain)
    (f : Nat → Except ε Nat) : i.mapTargetsM f = .ok i := by
  cases i with
  | jump | tableSwitch | lookupSwitch => exact absurd h (by simp [isPlain])
  | _ => rfl

theorem targets_of_isPlain {i : Instruction} (h : i.isPlain) : i.targets = [] := by
  cases i with
  | jump | tableSwitch | lookupSwitch => exact absurd h (by simp [isPlain])
  | _ => rfl

theorem not_isSwitch_of_isPlain {i : Instruction} (h : i.isPlain) : ¬i.isSwitch := by
  cases i with
  | jump | tableSwitch | lookupSwitch => exact absurd h (by simp [isPlain])
  | _ => exact Bool.false_ne_true

/-- The bytes of a plain instruction do not depend on where it stands. -/
theorem encodeAt_of_isPlain [Build] {i : Instruction} (h : i.isPlain) (layout layout' : Layout)
    (site site' : Site) : i.encodeAt layout site = i.encodeAt layout' site' := by
  cases i with
  | jump | tableSwitch | lookupSwitch => exact absurd h (by simp [isPlain])
  | _ => rfl

end Instruction

namespace Decoded

variable {pool : ConstantPool} {layout : Layout} {site : Site}

/-! ### Displacements -/

theorem absolute_eq_ok_iff {offset t : Nat} {delta : Int} :
    absolute offset delta = .ok t ↔ (t : Int) = offset + delta := by
  rw [absolute]
  by_cases h : 0 ≤ (offset : Int) + delta
  · rw [if_pos h, Except.ok.injEq]
    omega
  · rw [if_neg h]
    simp only [reduceCtorEq, false_iff]
    omega

theorem displacement_eq_ok_iff {p : Nat} {delta : Int} :
    site.displacement layout p = .ok delta ↔
      p < layout.count ∧ (layout.offsetOf p : Int) = site.offset + delta := by
  rw [Site.displacement]
  by_cases hp : p < layout.count
  · rw [if_pos hp, Layout.offset?_eq_offsetOf hp]
    simp only [Except.ok.injEq, hp, true_and]
    omega
  · rw [if_neg hp]
    simp [hp]

/-- A displacement of two bytes is that of the offset that an instruction lies at. -/
theorem near_eq_ok_iff {p : Nat} {b : Bytes} :
    site.near layout p = .ok b ↔ p < layout.count ∧ ∃ v : Int16,
      absolute site.offset v.toInt = .ok (layout.offsetOf p) ∧ b = Bytes.ofI16 v := by
  simp only [Site.near, Bytes.bind_eq_ok_iff, Bytes.ite_throw_eq_ok_iff, displacement_eq_ok_iff,
    absolute_eq_ok_iff]
  constructor
  · rintro ⟨delta, ⟨hp, hdelta⟩, hfit, h⟩
    refine ⟨hp, Int16.ofInt delta, ?_, (Except.ok.inj h).symm⟩
    rw [Int16.toInt_ofInt_of_le (by omega) (by omega)]
    exact hdelta
  · rintro ⟨hp, v, hv, rfl⟩
    have h₁ := v.le_toInt
    have h₂ := v.toInt_lt
    refine ⟨v.toInt, ⟨hp, hv⟩, ⟨by omega, by omega⟩, ?_⟩
    rw [Int16.ofInt_toInt]
    rfl

/-- A displacement of four bytes is that of the offset that an instruction lies at. -/
theorem far_eq_ok_iff {p : Nat} {b : Bytes} (hfits : layout.Fits) (hsite : site.offset ≤ 65535) :
    site.far layout p = .ok b ↔ p < layout.count ∧ ∃ v : Int32,
      absolute site.offset v.toInt = .ok (layout.offsetOf p) ∧ b = Bytes.ofI32 v := by
  simp only [Site.far, Bytes.bind_eq_ok_iff, displacement_eq_ok_iff, absolute_eq_ok_iff]
  constructor
  · rintro ⟨delta, ⟨hp, hdelta⟩, h⟩
    have hle := hfits (Layout.offset?_eq_offsetOf hp)
    refine ⟨hp, Int32.ofInt delta, ?_, (Except.ok.inj h).symm⟩
    rw [Int32.toInt_ofInt_of_le (by omega) (by omega)]
    exact hdelta
  · rintro ⟨hp, v, hv, rfl⟩
    refine ⟨v.toInt, ⟨hp, hv⟩, ?_⟩
    rw [Int32.ofInt_toInt]
    rfl

/-! ### Written instructions -/

theorem encodeAt_jump_eq_ok_iff [Build] {op : Opcode} {p : Nat} {b : Bytes} :
    (Instruction.jump op p).encodeAt layout site = .ok b ↔
      ∃ tail : Bytes,
        (if op.isFarBranch then site.far layout p else site.near layout p) = .ok tail ∧
        b = op :: tail := by
  rw [Instruction.encodeAt]
  by_cases hop : op.isFarBranch
  · rw [if_pos hop, if_pos hop]
    exact Bytes.bind_pure_eq_ok_iff
  · rw [if_neg hop, if_neg hop]
    exact Bytes.bind_pure_eq_ok_iff

theorem encodeAt_invoke_eq_ok_iff [Build] {m : MemberRef} {dispatch : Dispatch} {b : Bytes} :
    (Instruction.invoke m dispatch).encodeAt layout site = .ok b ↔
      ∃ tail : Bytes,
        (if dispatch = .interface then Instruction.interfaceTail m.descriptor else .ok []) =
          .ok tail ∧
        b = dispatch.opcode :: (Bytes.ofU16 m.index ++ tail) := by
  rw [Instruction.encodeAt]
  by_cases hi : dispatch = .interface
  · rw [if_pos hi, if_pos hi]
    exact Bytes.bind_pure_eq_ok_iff
  · rw [if_neg hi, if_neg hi]
    exact Bytes.bind_pure_eq_ok_iff

theorem length_interfaceTail [Build] {descriptor : String} {tail : Bytes}
    (h : Instruction.interfaceTail descriptor = .ok tail) : tail.length = 2 := by
  simp only [Instruction.interfaceTail, Bytes.bind_eq_ok_iff, Bytes.ite_throw_eq_ok_iff] at h
  obtain ⟨d, -, slots, -, -, h⟩ := h
  rw [← Except.ok.inj h]
  rfl

theorem encodeAt_tableSwitch_eq_ok_iff [Build] {p : Nat} {low : Int32} {ps : List Nat} {b : Bytes} :
    (Instruction.tableSwitch p low ps).encodeAt layout site = .ok b ↔
      ∃ otherwise items : Bytes, site.far layout p = .ok otherwise ∧
        (-2147483648 ≤ low.toInt + ps.length - 1 ∧ low.toInt + ps.length - 1 ≤ 2147483647) ∧
        Bytes.Many (fun p b => site.far layout p = .ok b) ps items ∧
        b = Opcode.tableswitch :: (Instruction.paddingBytes site.offset ++ (otherwise ++
          (Bytes.ofI32 low ++
            (Bytes.ofI32 (Int32.ofInt (low.toInt + ps.length - 1)) ++ items)))) := by
  simp only [Instruction.encodeAt, Bytes.bind_eq_ok_iff, Bytes.ite_throw_eq_ok_iff,
    Bytes.concatMapM_eq_ok_iff]
  constructor
  · rintro ⟨otherwise, hp, hhigh, items, hps, hb⟩
    refine ⟨otherwise, items, hp, hhigh, hps, ?_⟩
    rw [← Except.ok.inj hb]
    simp only [List.append_assoc, List.cons_append]
  · rintro ⟨otherwise, items, hp, hhigh, hps, rfl⟩
    refine ⟨otherwise, hp, hhigh, items, hps, ?_⟩
    simp only [List.append_assoc, List.cons_append]
    rfl

theorem encodeAt_lookupSwitch_eq_ok_iff [Build] {p : Nat} {ps : List (Int32 × Nat)} {b : Bytes} :
    (Instruction.lookupSwitch p ps).encodeAt layout site = .ok b ↔
      ∃ otherwise items : Bytes, site.far layout p = .ok otherwise ∧
        Bytes.Many (fun p b => ∃ d : Bytes, site.far layout p.2 = .ok d ∧
          b = Bytes.ofI32 p.1 ++ d) ps items ∧
        b = Opcode.lookupswitch :: (Instruction.paddingBytes site.offset ++ (otherwise ++
          (BigEndian.encode 4 ps.length ++ items))) := by
  have hpair : ∀ (q : Int32 × Nat) (b : Bytes),
      (do return Bytes.ofI32 q.1 ++ (← site.far layout q.2) : Except Fault Bytes) = .ok b ↔
        ∃ d : Bytes, site.far layout q.2 = .ok d ∧ b = Bytes.ofI32 q.1 ++ d :=
    fun _ _ => Bytes.bind_pure_eq_ok_iff
  simp only [Instruction.encodeAt, Bytes.bind_eq_ok_iff (e := site.far layout p),
    Bytes.bind_eq_ok_iff (e := Bytes.concatMapM _ _), Bytes.concatMapM_eq_ok_iff, hpair]
  constructor
  · rintro ⟨otherwise, hp, items, hps, hb⟩
    refine ⟨otherwise, items, hp, hps, ?_⟩
    rw [← Except.ok.inj hb]
    simp only [List.append_assoc, List.cons_append]
  · rintro ⟨otherwise, items, hp, hps, rfl⟩
    refine ⟨otherwise, hp, items, hps, ?_⟩
    simp only [List.append_assoc, List.cons_append]
    rfl

/-! ### Settled instructions -/

theorem isPlain_localInstruction (form : LocalForm) (index : UInt16) :
    (localInstruction form index).isPlain := by
  rw [localInstruction]
  split <;> rfl

/-- An instruction with a constructor of its own, beside an opcode and operands that it is put
together from. -/
inductive LiftedFrom (pool : ConstantPool) : Opcode → Bytes → Instruction → Prop
  | wide {modified high low : UInt8} {kind : ValueKind} {stores : Bool}
      (h : Opcode.localForm? modified = some ⟨kind, stores, none⟩) :
      LiftedFrom pool Opcode.wide [modified, high, low]
        (localInstruction ⟨kind, stores, none⟩ (UInt16.ofNat (BigEndian.decode [high, low])))
  | named {op : Opcode} {form : LocalForm} {index : UInt16} (operands : Bytes)
      (h : Opcode.localForm? op = some form) (hindex : form.index = some index) :
      LiftedFrom pool op operands (localInstruction form index)
  | indexed {op : Opcode} {form : LocalForm} (index : UInt8) (rest : Bytes)
      (h : Opcode.localForm? op = some form) (hindex : form.index = none) :
      LiftedFrom pool op (index :: rest) (localInstruction form index.toUInt16)
  | loadField {high low : UInt8} {m : MemberRef} (isStatic : Bool) (rest : Bytes)
      (hm : pool.memberRef (UInt16.ofNat (BigEndian.decode [high, low])) = .ok m) :
      LiftedFrom pool (Instruction.loadField m isStatic).opcode (high :: low :: rest)
        (.loadField m isStatic)
  | storeField {high low : UInt8} {m : MemberRef} (isStatic : Bool) (rest : Bytes)
      (hm : pool.memberRef (UInt16.ofNat (BigEndian.decode [high, low])) = .ok m) :
      LiftedFrom pool (Instruction.storeField m isStatic).opcode (high :: low :: rest)
        (.storeField m isStatic)
  | invoke {high low : UInt8} {m : MemberRef} (dispatch : Dispatch) (rest : Bytes)
      (hm : pool.memberRef (UInt16.ofNat (BigEndian.decode [high, low])) = .ok m) :
      LiftedFrom pool dispatch.opcode (high :: low :: rest) (.invoke m dispatch)
  | pop (operands : Bytes) : LiftedFrom pool Opcode.pop operands .pop
  | pop2 (operands : Bytes) : LiftedFrom pool Opcode.pop2 operands .pop2
  | exit {op : Opcode} {kind : Option ValueKind} (operands : Bytes)
      (h : Opcode.returned? op = some kind) : LiftedFrom pool op operands (.exit kind)

/-- The opcodes of accesses to members. -/
theorem mem_of_member {op : Opcode}
    (h : Opcode.getstatic ≤ op ∧ op ≤ Opcode.invokeinterface) :
    op ∈ [Opcode.getstatic, Opcode.putstatic, Opcode.getfield, Opcode.putfield,
      Opcode.invokevirtual, Opcode.invokespecial, Opcode.invokestatic,
      Opcode.invokeinterface] := by
  have hlow : 178 ≤ op.toNat := UInt8.le_iff_toNat_le.mp h.1
  have hhigh : op.toNat ≤ 185 := UInt8.le_iff_toNat_le.mp h.2
  simp only [List.mem_cons, List.not_mem_nil, or_false, ← UInt8.toNat_inj]
  show op.toNat = 178 ∨ op.toNat = 179 ∨ op.toNat = 180 ∨ op.toNat = 181 ∨ op.toNat = 182 ∨
    op.toNat = 183 ∨ op.toNat = 184 ∨ op.toNat = 185
  omega

theorem liftedFrom_of_lift? {op : Opcode} {operands : Bytes} {i : Instruction}
    (h : lift? pool op operands = .ok (some i)) : LiftedFrom pool op operands i := by
  have hnone : (.ok none : Except Fault (Option Instruction)) ≠ .ok (some i) :=
    fun h => absurd (Except.ok.inj h).symm (Option.some_ne_none i)
  unfold lift? at h
  by_cases hwide : op = Opcode.wide
  · rw [if_pos hwide] at h
    split at h
    · split at h
      · next hform =>
        obtain rfl := Option.some.inj (Except.ok.inj h)
        exact hwide ▸ .wide hform
      · exact absurd h hnone
    · exact absurd h hnone
  rw [if_neg hwide] at h
  by_cases hpop : op = Opcode.pop
  · rw [if_pos hpop] at h
    obtain rfl := Option.some.inj (Except.ok.inj h)
    exact hpop ▸ .pop operands
  rw [if_neg hpop] at h
  by_cases hpop2 : op = Opcode.pop2
  · rw [if_pos hpop2] at h
    obtain rfl := Option.some.inj (Except.ok.inj h)
    exact hpop2 ▸ .pop2 operands
  rw [if_neg hpop2] at h
  by_cases hmember : Opcode.getstatic ≤ op ∧ op ≤ Opcode.invokeinterface
  · -- Accesses to fields and calls.
    rw [if_pos hmember] at h
    split at h
    · obtain ⟨m, hm, h⟩ := Bytes.bind_eq_ok_iff.mp h
      obtain rfl := Option.some.inj (Except.ok.inj h)
      have hop := mem_of_member hmember
      simp only [List.mem_cons, List.not_mem_nil, or_false] at hop
      rcases hop with rfl | rfl | rfl | rfl | rfl | rfl | rfl | rfl
      · exact .loadField true _ hm
      · exact .storeField true _ hm
      · exact .loadField false _ hm
      · exact .storeField false _ hm
      · exact .invoke .virtual _ hm
      · exact .invoke .special _ hm
      · exact .invoke .static _ hm
      · exact .invoke .interface _ hm
    · exact absurd h hnone
  · rw [if_neg hmember] at h
    split at h
    · next hreturned =>
      obtain rfl := Option.some.inj (Except.ok.inj h)
      exact .exit operands hreturned
    · exact absurd h hnone
    · next hform =>
      split at h
      · next hindex =>
        obtain rfl := Option.some.inj (Except.ok.inj h)
        exact .named _ hform hindex
      · next hindex =>
        obtain rfl := Option.some.inj (Except.ok.inj h)
        exact .indexed _ _ hform hindex
      · exact absurd h hnone

/-- What is lifted has no targets. -/
theorem isPlain_of_lift? {op : Opcode} {operands : Bytes} {i : Instruction}
    (h : lift? pool op operands = .ok (some i)) : i.isPlain := by
  cases liftedFrom_of_lift? h with
  | wide | named | indexed => exact isPlain_localInstruction _ _
  | _ => rfl

/-- What is settled on keeps its operands, or has been lifted and is written as them again. -/
theorem settle_cases [Build] {offset : Nat} {op : Opcode} {operands : Bytes} {i : Instruction}
    (h : settle pool offset op operands = .ok i) :
    i = .other op operands ∨ (lift? pool op operands = .ok (some i) ∧
      i.encodeAt Layout.empty ⟨"", 0, offset⟩ = .ok (op :: operands)) := by
  simp only [settle, Bytes.bind_eq_ok_iff] at h
  obtain ⟨lifted?, hlift, h⟩ := h
  rcases lifted? with _ | lifted
  · exact .inl (Except.ok.inj h).symm
  · simp only at h
    rcases hbytes : lifted.encodeAt Layout.empty ⟨"", 0, offset⟩ with fault | bytes
    · rw [hbytes] at h
      cases fault with
      | overflow => cases h
      | _ => exact .inl (Except.ok.inj h).symm
    · rw [hbytes] at h
      by_cases heq : bytes = op :: operands
      · simp only [if_pos heq] at h
        obtain rfl := Except.ok.inj h
        exact .inr ⟨hlift, heq ▸ hbytes⟩
      · simp only [if_neg heq] at h
        exact .inl (Except.ok.inj h).symm

/-- What is settled on is written as the bytes that it was read from. -/
theorem encodeAt_of_settle [Build] {offset : Nat} {op : Opcode} {operands : Bytes} {i : Instruction}
    (h : settle pool offset op operands = .ok i) :
    i.isPlain ∧ ∀ (layout : Layout) (site : Site),
      i.encodeAt layout site = .ok (op :: operands) := by
  rcases settle_cases h with rfl | ⟨hlift, hbytes⟩
  · exact ⟨rfl, fun _ _ => rfl⟩
  · have hplain := isPlain_of_lift? hlift
    refine ⟨hplain, fun layout site => ?_⟩
    rw [Instruction.encodeAt_of_isPlain hplain layout Layout.empty site ⟨"", 0, offset⟩, hbytes]

theorem isFarBranch_iff {op : Opcode} : op.isFarBranch = true ↔ op.form? = some .branch32 := by
  rw [Opcode.isFarBranch, Opcode.form?_eq_map, beq_iff_eq]

/-! ### Spellings and written instructions -/

theorem legible_iff_of_isPlain [Build] {i : Instruction} (h : i.isPlain) :
    i.Legible pool ↔
      ∃ op operands, OperandsFit op operands ∧ settle pool 0 op operands = .ok i := by
  cases i with
  | jump | tableSwitch | lookupSwitch => exact absurd h (by simp [Instruction.isPlain])
  | _ => rfl

theorem settle_offset [Build] (offset offset' : Nat) (op : Opcode) (operands : Bytes) :
    settle pool offset op operands = settle pool offset' op operands := by
  rw [settle, settle]
  rcases hlift : lift? pool op operands with _ | _ | lifted
  · rfl
  · rfl
  · have hsame := Instruction.encodeAt_of_isPlain (isPlain_of_lift? hlift) Layout.empty Layout.empty
      ⟨"", 0, offset⟩ ⟨"", 0, offset'⟩
    simp only [bind, Except.bind, hsame]

theorem spelling_plain_iff [Build] {offset : Nat} {i : Instruction} {b : Bytes} (h : i.isPlain) :
    Spelling pool offset i b ↔ ∃ op operands, OperandsFit op operands ∧
      settle pool 0 op operands = .ok i ∧ b = op :: operands := by
  constructor
  · intro hspell
    cases hspell with
    | plain hfit hi =>
      rw [settle_offset offset 0] at hi
      exact ⟨_, _, hfit, hi, rfl⟩
    | near | far | tableSwitch | lookupSwitch => exact absurd h (by simp [Instruction.isPlain])
  · rintro ⟨op, operands, hfit, hi, rfl⟩
    rw [settle_offset 0 offset] at hi
    exact .plain hfit hi

/-- Displacements of four bytes are those of the offsets that instructions lie at. -/
theorem many_far_iff (hfits : layout.Fits) (hsite : site.offset ≤ 65535) {ps : List Nat}
    {items : Bytes} :
    Bytes.Many (fun p b => site.far layout p = .ok b) ps items ↔
      (∀ p ∈ ps, p < layout.count) ∧
        Bytes.Many (fun t b => ∃ v : Int32, absolute site.offset v.toInt = .ok t ∧
          b = Bytes.ofI32 v) (ps.map layout.offsetOf) items := by
  simp only [far_eq_ok_iff hfits hsite, Bytes.many_and_iff, Bytes.many_map_iff]

theorem many_pair_iff (hfits : layout.Fits) (hsite : site.offset ≤ 65535)
    {ps : List (Int32 × Nat)} {items : Bytes} :
    Bytes.Many (fun p b => ∃ d : Bytes, site.far layout p.2 = .ok d ∧ b = Bytes.ofI32 p.1 ++ d)
        ps items ↔
      (∀ p ∈ ps, p.2 < layout.count) ∧
        Bytes.Many (fun p b => ∃ v : Int32, absolute site.offset v.toInt = .ok p.2 ∧
          b = Bytes.ofI32 p.1 ++ Bytes.ofI32 v)
          (ps.map fun (key, p) => (key, layout.offsetOf p)) items := by
  rw [Bytes.many_map_iff, ← Bytes.many_and_iff]
  have hform : ∀ (p : Int32 × Nat) (b : Bytes),
      (∃ d : Bytes, site.far layout p.2 = .ok d ∧ b = Bytes.ofI32 p.1 ++ d) ↔
        p.2 < layout.count ∧ ∃ v : Int32,
          absolute site.offset v.toInt = .ok (layout.offsetOf p.2) ∧
            b = Bytes.ofI32 p.1 ++ Bytes.ofI32 v := by
    intro p b
    simp only [far_eq_ok_iff hfits hsite]
    constructor
    · rintro ⟨_, ⟨hp, v, hv, rfl⟩, rfl⟩
      exact ⟨hp, v, hv, rfl⟩
    · rintro ⟨hp, v, hv, rfl⟩
      exact ⟨_, ⟨hp, v, hv, rfl⟩, rfl⟩
  simp only [hform]

/-- The bounds of a table switch are those of the number of its cases. -/
theorem tableSwitch_bounds_iff {low high : Int32} {n : Nat} :
    (¬high < low ∧ n = (high.toInt - low.toInt + 1).toNat) ↔
      0 < n ∧ (-2147483648 ≤ low.toInt + n - 1 ∧ low.toInt + n - 1 ≤ 2147483647) ∧
        high = Int32.ofInt (low.toInt + n - 1) := by
  have h₁ := low.le_toInt
  have h₂ := high.toInt_lt
  rw [Int32.lt_iff_toInt_lt]
  constructor
  · rintro ⟨hle, rfl⟩
    have hhigh : low.toInt + ((high.toInt - low.toInt + 1).toNat : Int) - 1 = high.toInt := by
      omega
    rw [hhigh, Int32.ofInt_toInt]
    exact ⟨by omega, ⟨by omega, by omega⟩, rfl⟩
  · rintro ⟨hn, hbounds, rfl⟩
    rw [Int32.toInt_ofInt_of_le (by omega) (by omega)]
    omega

/-- The count of a lookup switch is the number of its pairs. -/
theorem lookupSwitch_count_iff {count : Int32} {n : Nat} (hn : n < 2147483648) :
    (¬count < 0 ∧ n = count.toInt.toNat) ↔ count = Int32.ofInt n := by
  rw [Int32.lt_iff_toInt_lt, Int32.toInt_zero]
  constructor
  · -- A count that is not negative is its own number.
    rintro ⟨hnonneg, rfl⟩
    have hcount : ((count.toInt.toNat : Nat) : Int) = count.toInt := by omega
    rw [hcount, Int32.ofInt_toInt]
  · rintro rfl
    rw [Int32.toInt_ofInt_of_le (by omega) (by omega)]
    omega

theorem ofI32_ofInt {n : Nat} (hn : n < 2147483648) :
    Bytes.ofI32 (Int32.ofInt n) = BigEndian.encode 4 n := by
  have htoNat : (Int32.ofInt n).toUInt32.toNat = n := by
    rw [Int32.ofInt_eq_ofNat, Int32.toUInt32_ofNat', UInt32.toNat_ofNat_of_lt']
    show n < 4294967296
    omega
  rw [Bytes.ofI32, Bytes.ofU32, htoNat]

/-! ### Constructors -/

section Constructors

variable {b : Bytes}

/-- A plain instruction is written as the bytes that it was settled on, wherever it stands. -/
theorem plain_iff_spelling [Build] {i : Instruction} (h : i.isPlain) :
    i.Legible pool ∧ i.encodeAt layout site = .ok b ↔
      Spelling pool site.offset (i.mapTargets layout.offsetOf) b ∧
        (∀ q ∈ i.targets, q < layout.count) ∧ i.ZeroPadded site.offset b := by
  rw [Instruction.mapTargets_of_isPlain h, spelling_plain_iff h, legible_iff_of_isPlain h]
  constructor
  · rintro ⟨⟨op, operands, hfit, hi⟩, hb⟩
    rw [(encodeAt_of_settle hi).2 layout site] at hb
    refine ⟨⟨op, operands, hfit, hi, (Except.ok.inj hb).symm⟩, ?_, ?_⟩
    · simp [Instruction.targets_of_isPlain h]
    · exact fun hswitch => absurd hswitch (Instruction.not_isSwitch_of_isPlain h)
  · rintro ⟨⟨op, operands, hfit, hi, rfl⟩, -, -⟩
    exact ⟨⟨op, operands, hfit, hi⟩, (encodeAt_of_settle hi).2 layout site⟩

variable (hfits : layout.Fits) (hsite : site.offset ≤ 65535)

include hfits hsite

theorem jump_iff_spelling [Build] {op : Opcode} {p : Nat} :
    (Instruction.jump op p).Legible pool ∧ (Instruction.jump op p).encodeAt layout site = .ok b ↔
      Spelling pool site.offset ((Instruction.jump op p).mapTargets layout.offsetOf) b ∧
        (∀ q ∈ (Instruction.jump op p).targets, q < layout.count) ∧
        (Instruction.jump op p).ZeroPadded site.offset b := by
  rw [encodeAt_jump_eq_ok_iff]
  simp only [Instruction.mapTargets, Instruction.targets, List.mem_singleton, forall_eq]
  constructor
  · -- The opcode says how wide the displacement is.
    rintro ⟨hop | hop, tail, htail, rfl⟩
    · rw [if_neg (by simp [isFarBranch_iff, hop]), near_eq_ok_iff] at htail
      obtain ⟨hp, v, hv, rfl⟩ := htail
      exact ⟨.near hop hv, hp, fun h => absurd h (by simp [Instruction.isSwitch])⟩
    · rw [if_pos (by simp [isFarBranch_iff, hop]), far_eq_ok_iff hfits hsite] at htail
      obtain ⟨hp, v, hv, rfl⟩ := htail
      exact ⟨.far hop hv, hp, fun h => absurd h (by simp [Instruction.isSwitch])⟩
  · rintro ⟨hspell, hp, -⟩
    cases hspell with
    | plain _ hi => exact absurd (encodeAt_of_settle hi).1 (by simp [Instruction.isPlain])
    | @near _ v _ hop hv =>
      refine ⟨.inl hop, _, ?_, rfl⟩
      rw [if_neg (by simp [isFarBranch_iff, hop]), near_eq_ok_iff]
      exact ⟨hp, v, hv, rfl⟩
    | @far _ v _ hop hv =>
      refine ⟨.inr hop, _, ?_, rfl⟩
      rw [if_pos (by simp [isFarBranch_iff, hop]), far_eq_ok_iff hfits hsite]
      exact ⟨hp, v, hv, rfl⟩

theorem tableSwitch_iff_spelling [Build] {p : Nat} {low : Int32} {ps : List Nat} :
    (Instruction.tableSwitch p low ps).Legible pool ∧
        (Instruction.tableSwitch p low ps).encodeAt layout site = .ok b ↔
      Spelling pool site.offset ((Instruction.tableSwitch p low ps).mapTargets layout.offsetOf) b ∧
        (∀ q ∈ (Instruction.tableSwitch p low ps).targets, q < layout.count) ∧
        (Instruction.tableSwitch p low ps).ZeroPadded site.offset b := by
  rw [encodeAt_tableSwitch_eq_ok_iff]
  simp only [Instruction.mapTargets, Instruction.targets, List.forall_mem_cons,
    many_far_iff hfits hsite]
  simp only [far_eq_ok_iff hfits hsite]
  constructor
  · rintro ⟨hne, _, items, ⟨hp, v, hv, rfl⟩, hbounds, ⟨hps, hitems⟩, rfl⟩
    have hlen : 0 < (ps.map layout.offsetOf).length := by
      rw [List.length_map]
      exact List.length_pos_of_ne_nil hne
    obtain ⟨hlow, hcount⟩ := tableSwitch_bounds_iff.mpr
      ⟨hlen, by rwa [List.length_map], by rw [List.length_map]⟩
    exact ⟨.tableSwitch (Instruction.length_paddingBytes _) hv hlow hcount hitems, ⟨hp, hps⟩,
      Instruction.zeroPadded_paddingBytes _ _ _ _⟩
  · rintro ⟨hspell, ⟨hp, hps⟩, hzero⟩
    cases hspell with
    | plain _ hi => exact absurd (encodeAt_of_settle hi).1 (by simp [Instruction.isPlain])
    | @tableSwitch pad v _ high _ _ items hpad hv hlow hcount hitems =>
      obtain ⟨hlen, hbounds, rfl⟩ := tableSwitch_bounds_iff.mp ⟨hlow, hcount⟩
      rw [List.length_map] at hlen hbounds
      have hpad' := hzero.eq_paddingBytes rfl hpad
      refine ⟨List.ne_nil_of_length_pos hlen, _, items, ⟨hp, v, hv, rfl⟩, hbounds,
        ⟨hps, hitems⟩, ?_⟩
      rw [hpad', List.length_map]

theorem lookupSwitch_iff_spelling [Build] {p : Nat} {ps : List (Int32 × Nat)}
    (hsize : (Instruction.lookupSwitch p ps).size site.offset ≤ 65535) :
    (Instruction.lookupSwitch p ps).Legible pool ∧
        (Instruction.lookupSwitch p ps).encodeAt layout site = .ok b ↔
      Spelling pool site.offset ((Instruction.lookupSwitch p ps).mapTargets layout.offsetOf) b ∧
        (∀ q ∈ (Instruction.lookupSwitch p ps).targets, q < layout.count) ∧
        (Instruction.lookupSwitch p ps).ZeroPadded site.offset b := by
  -- The number of pairs is bounded by the size of the switch, so its count is not negative.
  have hlt : ps.length < 2147483648 := by
    rw [Instruction.size] at hsize
    omega
  rw [encodeAt_lookupSwitch_eq_ok_iff]
  simp only [Instruction.mapTargets, Instruction.targets, List.forall_mem_cons,
    List.forall_mem_map, many_pair_iff hfits hsite]
  simp only [far_eq_ok_iff hfits hsite]
  constructor
  · rintro ⟨-, _, items, ⟨hp, v, hv, rfl⟩, ⟨hps, hitems⟩, rfl⟩
    obtain ⟨hnonneg, hcount⟩ := (lookupSwitch_count_iff hlt).mpr rfl
    rw [← ofI32_ofInt hlt]
    exact ⟨.lookupSwitch (Instruction.length_paddingBytes _) hv hnonneg
      (by rwa [List.length_map]) hitems, ⟨hp, hps⟩, Instruction.zeroPadded_paddingBytes _ _ _ _⟩
  · rintro ⟨hspell, ⟨hp, hps⟩, hzero⟩
    cases hspell with
    | plain _ hi => exact absurd (encodeAt_of_settle hi).1 (by simp [Instruction.isPlain])
    | @lookupSwitch pad v count _ _ items hpad hv hnonneg hcount hitems =>
      rw [List.length_map] at hcount
      obtain rfl := (lookupSwitch_count_iff hlt).mp ⟨hnonneg, hcount⟩
      have hpad' := hzero.eq_paddingBytes rfl hpad
      refine ⟨trivial, _, items, ⟨hp, v, hv, rfl⟩, ⟨hps, hitems⟩, ?_⟩
      rw [hpad', ofI32_ofInt hlt]

end Constructors

/-- In a layout, an instruction that reading can give is written as one of its spellings, and a
spelling with zero padding is written back. -/
theorem encodeAt_iff_spelling [Build] (hfits : layout.Fits) (hsite : site.offset ≤ 65535)
    {i : Instruction} (hsize : i.size site.offset ≤ 65535) {b : Bytes} :
    i.Legible pool ∧ i.encodeAt layout site = .ok b ↔
      Spelling pool site.offset (i.mapTargets layout.offsetOf) b ∧
        (∀ p ∈ i.targets, p < layout.count) ∧ i.ZeroPadded site.offset b := by
  cases i with
  | jump => exact jump_iff_spelling hfits hsite
  | tableSwitch => exact tableSwitch_iff_spelling hfits hsite
  | lookupSwitch => exact lookupSwitch_iff_spelling hfits hsite hsize
  | _ => exact plain_iff_spelling rfl

end Decoded

end ClassGraft
