/-
How instructions are spelled.

`Spelling pool offset i bytes` says that `bytes` are an instruction at `offset` of a code array,
whose targets stand in `i` as offsets.  Reading an instruction is taking a spelling of it
(`readInstruction_eq_ok_iff`): an opcode with the operand bytes that fit it, a displacement of two
or four bytes, or the padding and the table of a switch.
-/
import ClassGraft.Instruction.Decoding
import ClassGraft.Proofs.Positions

namespace ClassGraft

/-- The form of the bytes that follow an opcode, if it is defined. -/
def Opcode.form? (op : Opcode) : Option OperandForm := (Opcode.info? op).map OpcodeInfo.operands

theorem Opcode.form?_eq_map (op : Opcode) :
    Opcode.form? op = (Opcode.info? op).map OpcodeInfo.operands := rfl

-- Otherwise the table is evaluated wherever a form stands in a type.
attribute [irreducible] Opcode.form?

/-- What holds of all entries of the table holds of what is known about an opcode. -/
theorem Opcode.forall_info? {P : Nat → OpcodeInfo → Prop}
    (h : ∀ x ∈ table.toList.zipIdx, P x.2 x.1) {op : Opcode} {info : OpcodeInfo}
    (hinfo : info? op = some info) : P op.toNat info := by
  have hentry : table.toList[op.toNat]? = some info := by rwa [Array.getElem?_toList]
  exact h (info, op.toNat) (List.mem_zipIdx_iff_getElem?.mpr hentry)

/-- The table has no gaps. -/
theorem Opcode.exists_info? {op : Opcode} (h : op.toNat ≤ 201) : ∃ info, info? op = some info := by
  have hsize : table.size = 202 := rfl
  exact ⟨_, Array.getElem?_eq_getElem (by omega)⟩

theorem Opcode.toNat_le_of_localForm? {op : Opcode} {form : LocalForm}
    (h : localForm? op = some form) : op.toNat ≤ 78 := by
  by_contra hlt
  rw [localForm?] at h
  rw [if_neg (by omega), if_neg (by omega), if_neg (by omega), if_neg (by omega)] at h
  exact absurd h (by simp)

namespace Decoded

/-- Whether so many operand bytes may follow an opcode that neither branches nor switches. -/
def OperandsFit (op : Opcode) (operands : Bytes) : Prop :=
  match op.form? with
  | some .none => operands = []
  | some (.fixed count) => operands.length = count
  | some .wide => ∃ modified args, operands = modified :: args ∧
      wideOperands? modified = some args.length
  | _ => False

/-- The bytes of an instruction at `offset` whose targets are offsets. -/
inductive Spelling [Build] (pool : ConstantPool) (offset : Nat) : Instruction → Bytes → Prop
  | plain {op : Opcode} {operands : Bytes} {i : Instruction} (hfit : OperandsFit op operands)
      (hi : settle pool offset op operands = .ok i) : Spelling pool offset i (op :: operands)
  | near {op : Opcode} {v : Int16} {t : Nat} (hop : op.form? = some .branch16)
      (ht : absolute offset v.toInt = .ok t) :
      Spelling pool offset (.jump op t) (op :: Bytes.ofI16 v)
  | far {op : Opcode} {v : Int32} {t : Nat} (hop : op.form? = some .branch32)
      (ht : absolute offset v.toInt = .ok t) :
      Spelling pool offset (.jump op t) (op :: Bytes.ofI32 v)
  | tableSwitch {pad : Bytes} {v low high : Int32} {t : Nat} {ts : List Nat} {items : Bytes}
      (hpad : pad.length = switchPadding offset) (ht : absolute offset v.toInt = .ok t)
      (hlow : ¬high < low) (hcount : ts.length = (high.toInt - low.toInt + 1).toNat)
      (hts : Bytes.Many (fun t b => ∃ v : Int32, absolute offset v.toInt = .ok t ∧
        b = Bytes.ofI32 v) ts items) :
      Spelling pool offset (.tableSwitch t low ts)
        (Opcode.tableswitch ::
          (pad ++ (Bytes.ofI32 v ++ (Bytes.ofI32 low ++ (Bytes.ofI32 high ++ items)))))
  | lookupSwitch {pad : Bytes} {v count : Int32} {t : Nat} {ps : List (Int32 × Nat)}
      {items : Bytes} (hpad : pad.length = switchPadding offset)
      (ht : absolute offset v.toInt = .ok t) (hnonneg : ¬count < 0)
      (hcount : ps.length = count.toInt.toNat)
      (hps : Bytes.Many (fun p b => ∃ v : Int32, absolute offset v.toInt = .ok p.2 ∧
        b = Bytes.ofI32 p.1 ++ Bytes.ofI32 v) ps items) :
      Spelling pool offset (.lookupSwitch t ps)
        (Opcode.lookupswitch :: (pad ++ (Bytes.ofI32 v ++ (Bytes.ofI32 count ++ items))))

open Reader

variable {pool : ConstantPool} {offset : Nat} {c c' : Cursor}

/-! ### Reading -/

theorem takes_readFar (offset : Nat) : (readFar offset).Takes fun t b =>
    ∃ v : Int32, absolute offset v.toInt = .ok t ∧ b = Bytes.ofI32 v := by
  intro c t c'
  simp only [readFar, bind_eq_ok_iff, i32_eq_ok_iff, ofExcept_eq_ok_iff]
  constructor
  · rintro ⟨v, m, hv, ht, rfl⟩
    exact ⟨_, ⟨v, ht, rfl⟩, hv⟩
  · rintro ⟨b, ⟨v, ht, rfl⟩, hb⟩
    exact ⟨v, c', hb, ht, rfl⟩

theorem align_eq_ok_iff {n : Nat} (hn : 0 < n) {u : Unit} :
    align n hn c = .ok u c' ↔ ∃ b : Bytes, b.length = padding n c.pos ∧ c.Advances b c' := by
  simp only [align, bind_eq_ok_iff, pos_eq_ok_iff, skip_eq_ok_iff]
  constructor
  · rintro ⟨_, _, ⟨rfl, rfl⟩, b, hlen, hb⟩
    exact ⟨b, hlen, hb⟩
  · rintro ⟨b, hlen, hb⟩
    exact ⟨_, _, ⟨rfl, rfl⟩, b, hlen, hb⟩

theorem takes_readCases (offset count : Nat) : (times count (readFar offset)).Takes fun ts b =>
    ts.length = count ∧ Bytes.Many (fun t b => ∃ v : Int32,
      absolute offset v.toInt = .ok t ∧ b = Bytes.ofI32 v) ts b :=
  (takes_readFar offset).times count

theorem takes_readPair (offset : Nat) :
    Takes (do
      let key ← i32
      return (key, ← readFar offset)) fun (p : Int32 × Nat) b =>
        ∃ v : Int32, absolute offset v.toInt = .ok p.2 ∧ b = Bytes.ofI32 p.1 ++ Bytes.ofI32 v := by
  intro c p c'
  simp only [bind_eq_ok_iff, i32_eq_ok_iff, takes_readFar offset _ _ _, pure_eq_ok_iff]
  constructor
  · rintro ⟨key, m, hkey, t, m', ⟨_, ⟨v, ht, rfl⟩, hv⟩, rfl, rfl⟩
    exact ⟨_, ⟨v, ht, rfl⟩, hkey.append hv⟩
  · rintro ⟨_, ⟨v, ht, rfl⟩, hb⟩
    obtain ⟨m, hkey, hv⟩ := Cursor.advances_append.mp hb
    exact ⟨p.1, m, hkey, p.2, c', ⟨_, ⟨v, ht, rfl⟩, hv⟩, rfl, rfl⟩

/-- So many bytes lie ahead as are moved over. -/
theorem length_le_of_advances {b : Bytes} (h : c.Advances b c') : b.length ≤ c.rest.length := by
  rw [h.1, List.length_append]
  exact Nat.le_add_right _ _

theorem length_ofI32 (v : Int32) : (Bytes.ofI32 v).length = 4 :=
  BigEndian.length_encode 4 _

theorem length_of_many {α : Type} {form : α → Bytes → Prop} {n : Nat}
    (hform : ∀ x b, form x b → b.length = n) {xs : List α} {b : Bytes}
    (h : Bytes.Many form xs b) : b.length = n * xs.length := by
  induction xs generalizing b with
  | nil =>
    obtain rfl : b = [] := h
    rfl
  | cons x xs ih =>
    obtain ⟨a, b, hx, hxs, rfl⟩ := h
    rw [List.length_append, hform x a hx, ih hxs, List.length_cons]
    ring

theorem length_cases {ts : List Nat} {b : Bytes}
    (h : Bytes.Many (fun t b => ∃ v : Int32, absolute offset v.toInt = .ok t ∧
      b = Bytes.ofI32 v) ts b) : b.length = 4 * ts.length := by
  refine length_of_many (fun t b ht => ?_) h
  obtain ⟨v, -, rfl⟩ := ht
  exact length_ofI32 v

theorem length_pairs {ps : List (Int32 × Nat)} {b : Bytes}
    (h : Bytes.Many (fun p b => ∃ v : Int32, absolute offset v.toInt = .ok p.2 ∧
      b = Bytes.ofI32 p.1 ++ Bytes.ofI32 v) ps b) : b.length = 8 * ps.length := by
  refine length_of_many (fun p b hp => ?_) h
  obtain ⟨v, -, rfl⟩ := hp
  rw [List.length_append, length_ofI32, length_ofI32]

/-- Behind the opcode of a switch the reader aligns to the operands. -/
theorem padding_eq_switchPadding (offset : Nat) : padding 4 (offset + 1) = switchPadding offset :=
  rfl

theorem readTableSwitch_eq_ok_iff {i : Instruction} (hpos : c.pos = offset + 1) :
    readTableSwitch offset c = .ok i c' ↔
      ∃ (pad : Bytes) (v low high : Int32) (t : Nat) (ts : List Nat) (items : Bytes),
        pad.length = switchPadding offset ∧ absolute offset v.toInt = .ok t ∧ ¬high < low ∧
        ts.length = (high.toInt - low.toInt + 1).toNat ∧
        Bytes.Many (fun t b => ∃ v : Int32, absolute offset v.toInt = .ok t ∧
          b = Bytes.ofI32 v) ts items ∧
        i = .tableSwitch t low ts ∧
        c.Advances
          (pad ++ (Bytes.ofI32 v ++ (Bytes.ofI32 low ++ (Bytes.ofI32 high ++ items)))) c' := by
  simp only [readTableSwitch, bind_eq_ok_iff, align_eq_ok_iff, hpos, padding_eq_switchPadding,
    takes_readFar offset _ _ _, i32_eq_ok_iff]
  constructor
  · rintro ⟨_, m₁, ⟨pad, hlen, hpad⟩, t, m₂, ⟨_, ⟨v, ht, rfl⟩, hv⟩, low, m₃, hlow, high, m₄,
      hhigh, h⟩
    by_cases hlt : high < low
    · rw [if_pos hlt] at h
      exact (malformed_eq_ok_iff.mp h).elim
    · rw [if_neg hlt] at h
      simp only [bind_eq_ok_iff, ensure_eq_ok_iff, takes_readCases offset _ _ _ _,
        pure_eq_ok_iff] at h
      obtain ⟨_, _, ⟨-, rfl⟩, ts, m₅, ⟨items, ⟨hcount, hts⟩, hitems⟩, rfl, rfl⟩ := h
      exact ⟨pad, v, low, high, t, ts, items, hlen, ht, hlt, hcount, hts, rfl,
        hpad.append (hv.append (hlow.append (hhigh.append hitems)))⟩
  · rintro ⟨pad, v, low, high, t, ts, items, hlen, ht, hlt, hcount, hts, rfl, hb⟩
    obtain ⟨m₁, hpad, hb⟩ := Cursor.advances_append.mp hb
    obtain ⟨m₂, hv, hb⟩ := Cursor.advances_append.mp hb
    obtain ⟨m₃, hlow, hb⟩ := Cursor.advances_append.mp hb
    obtain ⟨m₄, hhigh, hitems⟩ := Cursor.advances_append.mp hb
    refine ⟨(), m₁, ⟨pad, hlen, hpad⟩, t, m₂, ⟨_, ⟨v, ht, rfl⟩, hv⟩, low, m₃, hlow, high, m₄,
      hhigh, ?_⟩
    rw [if_neg hlt]
    simp only [bind_eq_ok_iff, ensure_eq_ok_iff, takes_readCases offset _ _ _ _, pure_eq_ok_iff]
    refine ⟨(), m₄, ⟨?_, rfl⟩, ts, c', ⟨items, ⟨hcount, hts⟩, hitems⟩, rfl, rfl⟩
    rw [← hcount, ← length_cases hts]
    exact length_le_of_advances hitems

theorem readLookupSwitch_eq_ok_iff {i : Instruction} (hpos : c.pos = offset + 1) :
    readLookupSwitch offset c = .ok i c' ↔
      ∃ (pad : Bytes) (v count : Int32) (t : Nat) (ps : List (Int32 × Nat)) (items : Bytes),
        pad.length = switchPadding offset ∧ absolute offset v.toInt = .ok t ∧ ¬count < 0 ∧
        ps.length = count.toInt.toNat ∧
        Bytes.Many (fun p b => ∃ v : Int32, absolute offset v.toInt = .ok p.2 ∧
          b = Bytes.ofI32 p.1 ++ Bytes.ofI32 v) ps items ∧
        i = .lookupSwitch t ps ∧
        c.Advances (pad ++ (Bytes.ofI32 v ++ (Bytes.ofI32 count ++ items))) c' := by
  simp only [readLookupSwitch, bind_eq_ok_iff, align_eq_ok_iff, hpos, padding_eq_switchPadding,
    takes_readFar offset _ _ _, i32_eq_ok_iff]
  constructor
  · rintro ⟨_, m₁, ⟨pad, hlen, hpad⟩, t, m₂, ⟨_, ⟨v, ht, rfl⟩, hv⟩, count, m₃, hcount, h⟩
    by_cases hlt : count < 0
    · rw [if_pos hlt] at h
      exact (malformed_eq_ok_iff.mp h).elim
    · rw [if_neg hlt] at h
      simp only [bind_eq_ok_iff, ensure_eq_ok_iff, (takes_readPair offset).times _ _ _ _,
        pure_eq_ok_iff] at h
      obtain ⟨_, _, ⟨-, rfl⟩, ps, m₅, ⟨items, ⟨hlength, hps⟩, hitems⟩, rfl, rfl⟩ := h
      exact ⟨pad, v, count, t, ps, items, hlen, ht, hlt, hlength, hps, rfl,
        hpad.append (hv.append (hcount.append hitems))⟩
  · rintro ⟨pad, v, count, t, ps, items, hlen, ht, hlt, hlength, hps, rfl, hb⟩
    obtain ⟨m₁, hpad, hb⟩ := Cursor.advances_append.mp hb
    obtain ⟨m₂, hv, hb⟩ := Cursor.advances_append.mp hb
    obtain ⟨m₃, hcount, hitems⟩ := Cursor.advances_append.mp hb
    refine ⟨(), m₁, ⟨pad, hlen, hpad⟩, t, m₂, ⟨_, ⟨v, ht, rfl⟩, hv⟩, count, m₃, hcount, ?_⟩
    rw [if_neg hlt]
    simp only [bind_eq_ok_iff, ensure_eq_ok_iff, (takes_readPair offset).times _ _ _ _,
      pure_eq_ok_iff]
    refine ⟨(), m₃, ⟨?_, rfl⟩, ps, c', ⟨items, ⟨hlength, hps⟩, hitems⟩, rfl, rfl⟩
    rw [← hlength, ← length_pairs hps]
    exact length_le_of_advances hitems

theorem readWide_eq_ok_iff {operands : Bytes} :
    readWide offset c = .ok operands c' ↔
      ∃ modified args, operands = modified :: args ∧
        wideOperands? modified = some args.length ∧ c.Advances operands c' := by
  simp only [readWide, bind_eq_ok_iff, u8_eq_ok_iff]
  constructor
  · rintro ⟨modified, m, hmod, h⟩
    rcases hcount : wideOperands? modified with _ | count
    · rw [hcount] at h
      exact (malformed_eq_ok_iff.mp h).elim
    · rw [hcount] at h
      simp only [bind_eq_ok_iff, bytes_eq_ok_iff, pure_eq_ok_iff] at h
      obtain ⟨args, m', ⟨hlen, hargs⟩, rfl, rfl⟩ := h
      exact ⟨modified, args, rfl, by rw [hcount, hlen], hmod.append hargs⟩
  · rintro ⟨modified, args, rfl, hcount, hb⟩
    obtain ⟨m, hmod, hargs⟩ := Cursor.advances_cons.mp hb
    refine ⟨modified, m, hmod, ?_⟩
    rw [hcount]
    simp only [bind_eq_ok_iff, bytes_eq_ok_iff, pure_eq_ok_iff]
    exact ⟨args, c', ⟨rfl, hargs⟩, rfl, rfl⟩

theorem form?_tableswitch : Opcode.form? Opcode.tableswitch = some .tableSwitch := by
  rw [Opcode.form?_eq_map]
  cbv

theorem form?_lookupswitch : Opcode.form? Opcode.lookupswitch = some .lookupSwitch := by
  rw [Opcode.form?_eq_map]
  cbv

theorem form?_wide : Opcode.form? Opcode.wide = some .wide := by
  rw [Opcode.form?_eq_map]
  cbv

theorem eq_switch_of_form? {op : Opcode} {form : OperandForm} (h : op.form? = some form) :
    (form = .tableSwitch → op = Opcode.tableswitch) ∧
      (form = .lookupSwitch → op = Opcode.lookupswitch) := by
  rw [Opcode.form?_eq_map] at h
  obtain ⟨info, hinfo, rfl⟩ := Option.map_eq_some_iff.mp h
  simp only [← UInt8.toNat_inj]
  revert hinfo
  refine Opcode.forall_info? (P := fun n info =>
    (info.operands = .tableSwitch → n = Opcode.tableswitch.toNat) ∧
      (info.operands = .lookupSwitch → n = Opcode.lookupswitch.toNat)) ?_
  decide +kernel

theorem eq_tableswitch_of_form? {op : Opcode} (h : op.form? = some .tableSwitch) :
    op = Opcode.tableswitch :=
  (eq_switch_of_form? h).1 rfl

theorem eq_lookupswitch_of_form? {op : Opcode} (h : op.form? = some .lookupSwitch) :
    op = Opcode.lookupswitch :=
  (eq_switch_of_form? h).2 rfl

/-- What is read is a spelling of the instruction. -/
theorem spelling_of_readInstruction [Build] {i : Instruction}
    (h : readInstruction pool c = .ok i c') :
    ∃ b : Bytes, Spelling pool c.pos i b ∧ c.Advances b c' := by
  simp only [readInstruction, bind_eq_ok_iff, pos_eq_ok_iff, u8_eq_ok_iff] at h
  obtain ⟨_, _, ⟨rfl, rfl⟩, op, m, hop, h⟩ := h
  have hpos : m.pos = c.pos + 1 := hop.2
  rcases hinfo : Opcode.info? op with _ | info
  · rw [hinfo] at h
    exact (malformed_eq_ok_iff.mp h).elim
  · have hform : Opcode.form? op = some info.operands := by
      rw [Opcode.form?_eq_map, hinfo, Option.map_some]
    rw [hinfo] at h
    simp only at h
    cases hoperands : info.operands with
    | none =>
      rw [hoperands] at h hform
      obtain ⟨hi, rfl⟩ := ofExcept_eq_ok_iff.mp h
      exact ⟨[op], .plain (by rw [OperandsFit, hform]) hi, hop⟩
    | fixed count =>
      rw [hoperands] at h hform
      simp only [bind_eq_ok_iff, bytes_eq_ok_iff, ofExcept_eq_ok_iff] at h
      obtain ⟨operands, m', ⟨hlen, hb⟩, hi, rfl⟩ := h
      exact ⟨op :: operands, .plain (by rw [OperandsFit, hform]; exact hlen) hi, hop.append hb⟩
    | branch16 =>
      rw [hoperands] at h hform
      simp only [bind_eq_ok_iff, i16_eq_ok_iff, ofExcept_eq_ok_iff, pure_eq_ok_iff] at h
      obtain ⟨v, m', hv, t, _, ⟨ht, rfl⟩, rfl, rfl⟩ := h
      exact ⟨_, .near hform ht, hop.append hv⟩
    | branch32 =>
      rw [hoperands] at h hform
      simp only [bind_eq_ok_iff, takes_readFar c.pos _ _ _, pure_eq_ok_iff] at h
      obtain ⟨t, _, ⟨_, ⟨v, ht, rfl⟩, hv⟩, rfl, rfl⟩ := h
      exact ⟨_, .far hform ht, hop.append hv⟩
    | tableSwitch =>
      rw [hoperands] at h hform
      obtain ⟨pad, v, low, high, t, ts, items, hpad, ht, hlow, hcount, hts, rfl, hb⟩ :=
        (readTableSwitch_eq_ok_iff hpos).mp h
      obtain rfl := eq_tableswitch_of_form? hform
      exact ⟨_, .tableSwitch hpad ht hlow hcount hts, hop.append hb⟩
    | lookupSwitch =>
      rw [hoperands] at h hform
      obtain ⟨pad, v, count, t, ps, items, hpad, ht, hnonneg, hcount, hps, rfl, hb⟩ :=
        (readLookupSwitch_eq_ok_iff hpos).mp h
      obtain rfl := eq_lookupswitch_of_form? hform
      exact ⟨_, .lookupSwitch hpad ht hnonneg hcount hps, hop.append hb⟩
    | wide =>
      rw [hoperands] at h hform
      simp only [bind_eq_ok_iff, readWide_eq_ok_iff, ofExcept_eq_ok_iff] at h
      obtain ⟨operands, m', ⟨modified, args, rfl, hcount, hb⟩, hi, rfl⟩ := h
      refine ⟨op :: modified :: args, .plain ?_ hi, hop.append hb⟩
      rw [OperandsFit, hform]
      exact ⟨modified, args, rfl, hcount⟩

theorem exists_info_of_form? {op : Opcode} {form : OperandForm} (h : op.form? = some form) :
    ∃ info, Opcode.info? op = some info ∧ info.operands = form := by
  rw [Opcode.form?_eq_map] at h
  exact Option.map_eq_some_iff.mp h

/-- A spelling of an instruction is read. -/
theorem readInstruction_of_spelling [Build] {i : Instruction} {b : Bytes}
    (h : Spelling pool c.pos i b) (hb : c.Advances b c') : readInstruction pool c = .ok i c' := by
  simp only [readInstruction, bind_eq_ok_iff, pos_eq_ok_iff, u8_eq_ok_iff]
  cases h with
  | @plain op operands i hfit hi =>
    obtain ⟨m, hop, hb⟩ := Cursor.advances_cons.mp hb
    refine ⟨_, _, ⟨rfl, rfl⟩, op, m, hop, ?_⟩
    rw [OperandsFit, Opcode.form?_eq_map] at hfit
    rcases hinfo : Opcode.info? op with _ | info
    · rw [hinfo] at hfit
      exact hfit.elim
    · rw [hinfo, Option.map_some] at hfit
      simp only
      cases hoperands : info.operands with
      | none =>
        rw [hoperands] at hfit
        obtain rfl : operands = [] := hfit
        obtain rfl := Cursor.advances_nil.mp hb
        exact ofExcept_eq_ok_iff.mpr ⟨hi, rfl⟩
      | fixed count =>
        rw [hoperands] at hfit
        simp only [bind_eq_ok_iff, bytes_eq_ok_iff, ofExcept_eq_ok_iff]
        exact ⟨operands, c', ⟨hfit, hb⟩, hi, rfl⟩
      | wide =>
        rw [hoperands] at hfit
        obtain ⟨modified, args, rfl, hcount⟩ := hfit
        simp only [bind_eq_ok_iff, readWide_eq_ok_iff, ofExcept_eq_ok_iff]
        exact ⟨_, c', ⟨modified, args, rfl, hcount, hb⟩, hi, rfl⟩
      | branch16 | branch32 | tableSwitch | lookupSwitch =>
        rw [hoperands] at hfit
        exact hfit.elim
  | @near op v t hform ht =>
    obtain ⟨m, hop, hb⟩ := Cursor.advances_cons.mp hb
    obtain ⟨info, hinfo, hoperands⟩ := exists_info_of_form? hform
    refine ⟨_, _, ⟨rfl, rfl⟩, op, m, hop, ?_⟩
    rw [hinfo]
    simp only [hoperands, bind_eq_ok_iff, i16_eq_ok_iff, ofExcept_eq_ok_iff, pure_eq_ok_iff]
    exact ⟨v, c', hb, t, c', ⟨ht, rfl⟩, rfl, rfl⟩
  | @far op v t hform ht =>
    obtain ⟨m, hop, hb⟩ := Cursor.advances_cons.mp hb
    obtain ⟨info, hinfo, hoperands⟩ := exists_info_of_form? hform
    refine ⟨_, _, ⟨rfl, rfl⟩, op, m, hop, ?_⟩
    rw [hinfo]
    simp only [hoperands, bind_eq_ok_iff, takes_readFar c.pos _ _ _, pure_eq_ok_iff]
    exact ⟨t, c', ⟨_, ⟨v, ht, rfl⟩, hb⟩, rfl, rfl⟩
  | tableSwitch hpad ht hlow hcount hts =>
    obtain ⟨m, hop, hb⟩ := Cursor.advances_cons.mp hb
    obtain ⟨info, hinfo, hoperands⟩ := exists_info_of_form? form?_tableswitch
    refine ⟨_, _, ⟨rfl, rfl⟩, _, m, hop, ?_⟩
    rw [hinfo]
    simp only [hoperands]
    exact (readTableSwitch_eq_ok_iff hop.2).mpr
      ⟨_, _, _, _, _, _, _, hpad, ht, hlow, hcount, hts, rfl, hb⟩
  | lookupSwitch hpad ht hnonneg hcount hps =>
    obtain ⟨m, hop, hb⟩ := Cursor.advances_cons.mp hb
    obtain ⟨info, hinfo, hoperands⟩ := exists_info_of_form? form?_lookupswitch
    refine ⟨_, _, ⟨rfl, rfl⟩, _, m, hop, ?_⟩
    rw [hinfo]
    simp only [hoperands]
    exact (readLookupSwitch_eq_ok_iff hop.2).mpr
      ⟨_, _, _, _, _, _, hpad, ht, hnonneg, hcount, hps, rfl, hb⟩

/-- An instruction is read from exactly its spellings. -/
theorem readInstruction_eq_ok_iff [Build] {i : Instruction} :
    readInstruction pool c = .ok i c' ↔
      ∃ b : Bytes, Spelling pool c.pos i b ∧ c.Advances b c' := by
  constructor
  · exact spelling_of_readInstruction
  · rintro ⟨b, hspell, hb⟩
    exact readInstruction_of_spelling hspell hb

end Decoded

end ClassGraft
