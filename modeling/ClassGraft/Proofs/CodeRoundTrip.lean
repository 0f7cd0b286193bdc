/-
Code arrays there and back.

What is read of a code array is written in the layout that was read, unless the array is longer than
a method may be (`encode_of_decode`): every instruction has a spelling with zero padding
(`Decoded.exists_zeroPadded_spelling`), and this is the one that is written.  So the bytes are those
that were read if they pad with zeros as well.

The other way round a list of instructions need not have been read at all.  If each of them is in
canonical form (`Instruction.Canonical`), what is written of the list is read as that list again, in
the layout in which it was written (`decode_of_encode`).
-/
import ClassGraft.Proofs.Legible
import ClassGraft.Proofs.CodeArray

namespace ClassGraft

namespace Instruction

theorem zeroPadded_mapTargets (f : Nat → Nat) {offset : Nat} {i : Instruction} {bytes : Bytes} :
    (i.mapTargets f).ZeroPadded offset bytes ↔ i.ZeroPadded offset bytes := by
  cases i <;> rfl

end Instruction

/-! ### Padding with zeros -/

namespace Decoded

variable {pool : ConstantPool} {offset : Nat} {bytes : Bytes}

/-- The padding of a switch may be zero, whatever else its bytes say. -/
theorem exists_zeroPadded_spelling [Build] {i : Instruction} (h : Spelling pool offset i bytes) :
    ∃ b : Bytes, Spelling pool offset i b ∧ i.ZeroPadded offset b := by
  have hpadding := Instruction.length_paddingBytes offset
  cases h with
  | plain hfit hi =>
    have hplain := (encodeAt_of_settle hi).1
    exact ⟨_, .plain hfit hi, fun hswitch =>
      absurd hswitch (Instruction.not_isSwitch_of_isPlain hplain)⟩
  | near hop ht => exact ⟨_, .near hop ht, fun hswitch => absurd hswitch Bool.false_ne_true⟩
  | far hop ht => exact ⟨_, .far hop ht, fun hswitch => absurd hswitch Bool.false_ne_true⟩
  | tableSwitch _ ht hlow hcount hts =>
    exact ⟨_, .tableSwitch hpadding ht hlow hcount hts, Instruction.zeroPadded_paddingBytes _ _ _ _⟩
  | lookupSwitch _ ht hnonneg hcount hps =>
    exact ⟨_, .lookupSwitch hpadding ht hnonneg hcount hps,
      Instruction.zeroPadded_paddingBytes _ _ _ _⟩

theorem exists_zeroPadded_spelled [Build] {list : List Instruction}
    (h : Spelled pool offset list bytes) :
    ∃ items : Bytes, Spelled pool offset list items ∧ ZeroPaddedFrom offset list items := by
  induction list generalizing offset bytes with
  | nil => exact ⟨[], rfl, trivial⟩
  | cons i rest ih =>
    obtain ⟨a, b, hi, hrest, rfl⟩ := h
    obtain ⟨a', hi', hzero⟩ := exists_zeroPadded_spelling hi
    -- The two spellings take equally many bytes, so the rest begins where it did.
    have hlen : a'.length = i.size offset := length_of_spelling hi'
    rw [length_of_spelling hi, ← hlen] at hrest
    obtain ⟨b', hrest', hzeros⟩ := ih hrest
    have hfirst := (Instruction.zeroPadded_append (b := b') hlen).mpr hzero
    refine ⟨a' ++ b', ⟨a', b', hi', hrest', rfl⟩, hfirst, ?_⟩
    rwa [← hlen, List.drop_left]

theorem zeroPaddedFrom_map_mapTargets (f : Nat → Nat) {list : List Instruction} :
    ZeroPaddedFrom offset (list.map (Instruction.mapTargets f)) bytes ↔
      ZeroPaddedFrom offset list bytes := by
  induction list generalizing offset bytes with
  | nil => rfl
  | cons i rest ih =>
    simp only [List.map_cons, ZeroPaddedFrom, Instruction.zeroPadded_mapTargets,
      Instruction.size_mapTargets, ih]

end Decoded

open Decoded

variable {pool : ConstantPool} {layout : Layout} {list : List Instruction} {bytes : Bytes}

/-- Among the arrays that are read as the same instructions there is one that pads with zeros. -/
theorem exists_zeroPadded_decode [Build] (h : decode pool bytes = .ok ⟨list, layout⟩) :
    ∃ items : Bytes, decode pool items = .ok ⟨list, layout⟩ ∧ ZeroPaddedFrom 0 list items := by
  obtain ⟨hlayout, hspelled, htargets⟩ := decode_eq_ok_iff.mp h
  obtain ⟨items, hitems, hzero⟩ := exists_zeroPadded_spelled hspelled
  exact ⟨items, decode_eq_ok_iff.mpr ⟨hlayout, hitems, htargets⟩,
    (zeroPaddedFrom_map_mapTargets _).mp hzero⟩

/-! ### From bytes to bytes -/

theorem exists_encode_of_decode [Build] (h : decode pool bytes = .ok ⟨list, layout⟩)
    (hlen : bytes.length ≤ 65535) (method : String) :
    ∃ written : Bytes, encode method list = .ok ⟨written, layout⟩ := by
  obtain ⟨items, hitems, hzero⟩ := exists_zeroPadded_decode h
  rw [← length_of_decode h, length_of_decode hitems] at hlen
  exact ⟨items, (encode_iff_decode.mpr ⟨hitems, hlen, hzero⟩).2⟩

theorem encode_of_decode_of_lt [Build] (h : decode pool bytes = .ok ⟨list, layout⟩)
    (hlen : 65535 < bytes.length) (method : String) :
    encode method list = .error (.malformed (.codeTooLong method bytes.length 65535)) := by
  have hlayout := (decode_eq_ok_iff.mp h).1
  have hlong : ¬bytes.length ≤ maxCodeLength := Nat.not_le.mpr hlen
  rw [encode, ← hlayout, length_of_decode h, if_neg hlong]
  rfl

/-- The instructions of a code array that is read are written in its layout.  The bytes are those of
the array if these pad switches with zeros.  Only an array of more than 65535 bytes is not written,
and its length is reported. -/
theorem encode_of_decode [Build] (h : decode pool bytes = .ok ⟨list, layout⟩) (method : String) :
    (bytes.length ≤ 65535 → ∃ written : Bytes, encode method list = .ok ⟨written, layout⟩ ∧
      (ZeroPadded pool bytes → written = bytes)) ∧
    (65535 < bytes.length →
      encode method list = .error (.malformed (.codeTooLong method bytes.length 65535))) := by
  refine ⟨fun hlen => ?_, fun hlen => encode_of_decode_of_lt h hlen method⟩
  obtain ⟨written, hwritten⟩ := exists_encode_of_decode h hlen method
  refine ⟨written, hwritten, fun hzero => ?_⟩
  have hexact : encode method list = .ok ⟨bytes, layout⟩ :=
    (encode_iff_decode.mpr ⟨h, hlen, zeroPaddedFrom_of_decode h hzero⟩).2
  exact (Encoded.mk.inj (Except.ok.inj (hwritten.symm.trans hexact))).1

/-- Any number of instructions that do nothing. -/
theorem decode_replicate_nop [Build] (pool : ConstantPool) (n : Nat) :
    decode pool (List.replicate n 0) = .ok ⟨List.replicate n (.other 0 []),
      Layout.ofInstructions (List.replicate n (.other 0 []))⟩ := by
  have hfit : OperandsFit 0 [] := operandsFit_none (by cbv)
  have hspelled : ∀ offset, Spelled pool offset (List.replicate n (.other 0 []))
      (List.replicate n 0) := by
    induction n with
    | zero => exact fun _ => rfl
    | succ n ih => exact fun offset => ⟨[0], _, .plain hfit rfl, ih _, rfl⟩
  refine decode_eq_ok_iff.mpr ⟨rfl, ?_, fun i hi p hp => ?_⟩
  · rw [List.map_replicate]
    exact hspelled 0
  · obtain rfl := List.eq_of_mem_replicate hi
    exact absurd hp List.not_mem_nil

/-- A table switch at offset 1 with two bytes of padding, among other instructions. -/
def paddedArray (padding : Bytes) : Bytes :=
  [3, 170] ++ padding ++ [0, 0, 0, 19, 0, 0, 0, 0, 0, 0, 0, 0, 0, 0, 0, 20, 177, 177]

/-- The instructions of `paddedArray`. -/
def paddedList : List Instruction := [.other 3 [], .tableSwitch 2 0 [3], .exit none, .exit none]

attribute [local instance] Build.checked

theorem encode_of_decode_paddedArray :
    (decode .empty (paddedArray [0, 0]) = .ok ⟨paddedList, ⟨#[0, 1, 20, 21, 22]⟩⟩ ∧
      encode "m" paddedList = .ok ⟨paddedArray [0, 0], ⟨#[0, 1, 20, 21, 22]⟩⟩) ∧
    encode "m" (List.replicate 65536 (.other 0 [])) =
      .error (.malformed (.codeTooLong "m" 65536 65535)) := by
  have hread : decode .empty (paddedArray [0, 0]) =
      .ok ⟨paddedList, ⟨#[0, 1, 20, 21, 22]⟩⟩ := by
    cbv
  have hzero : ZeroPadded .empty (paddedArray [0, 0]) := by
    rw [zeroPadded_iff hread]
    decide +kernel
  have hnops := decode_replicate_nop .empty 65536
  have hlen : (List.replicate 65536 (0 : UInt8)).length = 65536 := List.length_replicate
  refine ⟨⟨hread, ?_⟩, ?_⟩
  · obtain ⟨written, hwritten, hexact⟩ := (encode_of_decode hread "m").1 (by decide)
    rwa [hexact hzero] at hwritten
  · have hlong := (encode_of_decode hnops "m").2 (by rw [hlen]; decide)
    rwa [hlen] at hlong

/-- Not every array that is read is written as it was: one is too long for a method, and one pads a
switch with other bytes. -/
theorem encode_decode_limits :
    (decode .empty (List.replicate 65536 0) = .ok ⟨List.replicate 65536 (.other 0 []),
        Layout.ofInstructions (List.replicate 65536 (.other 0 []))⟩ ∧
      encode "m" (List.replicate 65536 (.other 0 [])) =
        .error (.malformed (.codeTooLong "m" 65536 65535))) ∧
    decode .empty (paddedArray [1, 2]) = .ok ⟨paddedList, ⟨#[0, 1, 20, 21, 22]⟩⟩ ∧
      encode "m" paddedList = .ok ⟨paddedArray [0, 0], ⟨#[0, 1, 20, 21, 22]⟩⟩ := by
  have hnops := decode_replicate_nop .empty 65536
  have hlen : (List.replicate 65536 (0 : UInt8)).length = 65536 := List.length_replicate
  refine ⟨⟨hnops, ?_⟩, by cbv, by cbv⟩
  have hlong := encode_of_decode_of_lt hnops (by rw [hlen]; decide) "m"
  rwa [hlen] at hlong

/-! ### From instructions to instructions -/

namespace Instruction

/-- Whether an instruction is in the form that reading gives it: a member is what the pool has at
its index, a branch has the opcode of one, a table switch has cases, and an opcode that keeps its
operand bytes has as many as belong to it and is read as itself. -/
def Canonical [Build] (pool : ConstantPool) : Instruction → Prop
  | .loadField m _ | .storeField m _ | .invoke m _ => pool.memberRef m.index = .ok m
  | .jump op _ => op.form? = some .branch16 ∨ op.form? = some .branch32
  | .tableSwitch _ _ targets => targets ≠ []
  | .other op operands => Decoded.OperandsFit op operands ∧
      ∃ layout, decode pool (op :: operands) = .ok ⟨[.other op operands], layout⟩
  | _ => True

/-- Canonical instructions are legible as soon as they can be written. -/
theorem legible_of_canonical [Build] {i : Instruction} (h : i.Canonical pool) {site : Site}
    {b : Bytes} (hb : i.encodeAt layout site = .ok b) : i.Legible pool := by
  cases i with
  | loadLocal index kind => exact legible_loadLocal index kind
  | storeLocal index kind => exact legible_storeLocal index kind
  | loadField m isStatic => exact legible_loadField h isStatic
  | storeField m isStatic => exact legible_storeField h isStatic
  | invoke m dispatch => exact legible_invoke h hb
  | pop => exact legible_pop
  | pop2 => exact legible_pop2
  | exit kind => exact legible_exit kind
  | jump => exact h
  | tableSwitch => exact h
  | lookupSwitch => trivial
  | other op operands =>
    obtain ⟨-, layout, hdecode⟩ := h
    exact legible_of_decode hdecode _ List.mem_cons_self

end Instruction

/-- Where a list of instructions has been written, each of them has been. -/
theorem Emitted.exists_encodeAt [Build] {method : String} {index offset : Nat}
    (h : Emitted method layout index offset list bytes) :
    ∀ i ∈ list, ∃ (site : Site) (b : Bytes), i.encodeAt layout site = .ok b := by
  induction list generalizing index offset bytes with
  | nil => simp
  | cons i rest ih =>
    obtain ⟨a, b, ha, hb, -⟩ := h
    exact List.forall_mem_cons.mpr ⟨⟨_, a, ha⟩, ih hb⟩

/-- Canonical instructions that can be written are read again from the bytes, with the same targets
and in the same layout. -/
theorem decode_of_encode [Build] {method : String} (hcanonical : ∀ i ∈ list, i.Canonical pool)
    (h : encode method list = .ok ⟨bytes, layout⟩) :
    decode pool bytes = .ok ⟨list, layout⟩ := by
  have hlegible : ∀ i ∈ list, i.Legible pool := by
    intro i hi
    obtain ⟨-, -, hbytes⟩ := encode_eq_ok_iff.mp h
    obtain ⟨site, b, hb⟩ := hbytes.exists_encodeAt i hi
    exact Instruction.legible_of_canonical (hcanonical i hi) hb
  exact (encode_iff_decode.mp ⟨hlegible, h⟩).1

/-- A pool with one method of an interface. -/
def mixedPool : ConstantPool :=
  ⟨#[none, some (.utf8 [65]), some (.classRef 1), some (.utf8 [109]),
    some (.utf8 [40, 74, 41, 86]), some (.nameAndType 3 4), some (.interfaceMethodRef 2 5)]⟩

/-- Instructions with widened operands, with branches of both widths in both directions, with
switches and with a call through an interface. -/
def mixedList : List Instruction :=
  [.loadLocal 300 .int, .jump 153 3, .invoke ⟨6, "A", "m", "(J)V"⟩ .interface,
    .tableSwitch 5 7 [0, 4], .other Opcode.wide [132, 0, 5, 0, 1], .jump 200 0,
    .lookupSwitch 6 [(9, 2)], .exit none]

/-- The code array of `mixedList`. -/
def mixedArray : Bytes :=
  [196, 21, 1, 44, 153, 0, 8, 185, 0, 6, 3, 0, 170, 0, 0, 0, 0, 0, 0, 30, 0, 0, 0, 7, 0, 0, 0, 8,
    255, 255, 255, 244, 0, 0, 0, 24, 196, 132, 0, 5, 0, 1, 200, 255, 255, 255, 214, 171, 0, 0, 0, 0,
    0, 0, 0, 1, 0, 0, 0, 9, 255, 255, 255, 216, 177]

theorem decode_of_encode_mixedList :
    (∀ i ∈ mixedList, i.Canonical mixedPool) ∧
      encode "m" mixedList = .ok ⟨mixedArray, ⟨#[0, 4, 7, 12, 36, 42, 47, 64, 65]⟩⟩ ∧
      decode mixedPool mixedArray = .ok ⟨mixedList, ⟨#[0, 4, 7, 12, 36, 42, 47, 64, 65]⟩⟩ := by
  have hother : (Instruction.other Opcode.wide [132, 0, 5, 0, 1]).Canonical mixedPool :=
    ⟨operandsFit_wide (by decide), ⟨#[0, 6]⟩, by cbv⟩
  have hcanonical : ∀ i ∈ mixedList, i.Canonical mixedPool := by
    simp only [mixedList, List.forall_mem_cons]
    exact ⟨trivial, .inl (by decide +kernel), show _ = _ by decide +kernel, List.cons_ne_nil _ _,
      hother, .inr (by decide +kernel), trivial, trivial, List.forall_mem_nil _⟩
  have hencode : encode "m" mixedList =
      .ok ⟨mixedArray, ⟨#[0, 4, 7, 12, 36, 42, 47, 64, 65]⟩⟩ := by
    decide +kernel
  exact ⟨hcanonical, hencode, decode_of_encode hcanonical hencode⟩

end ClassGraft
