/-
Where the instructions of a code array lie.

What is read of a code array lies where running sums of sizes say, and the targets are where the
bytes say: the format has a place for every displacement of an instruction
(`Instruction.displacements`), and what stands there leads from the instruction to the target
(`displacements_of_decode`).  Both hold of every code array that is accepted, and no code array is
refused but as malformed, unless it comes to a call that stops a build that checks its sums
(`decode_places`, `decode_wideCall`).
-/
import ClassGraft.Proofs.Emission
import ClassGraft.Proofs.EncodedText
import ClassGraft.Proofs.Renumbering
import ClassGraft.Proofs.WideCalls

namespace ClassGraft

/-! ### Signed numbers in bytes -/

namespace Bytes

/-- The number in two's complement that takes `width` bytes from a place on. -/
def signedAt (bytes : Bytes) (place width : Nat) : Int :=
  (BigEndian.decode ((bytes.drop place).take width) : Int).bmod (256 ^ width)

/-- Numbers of four bytes from a place on, each `stride` bytes behind the one before. -/
def signedRun (bytes : Bytes) (stride : Nat) : Nat → Nat → List Int
  | _, 0 => []
  | place, n + 1 => signedAt bytes place 4 :: signedRun bytes stride (place + stride) n

theorem signedAt_encode {width n : Nat} (h : n < 256 ^ width) (front rest : Bytes) :
    signedAt (front ++ (BigEndian.encode width n ++ rest)) front.length width =
      (n : Int).bmod (256 ^ width) := by
  have htake : (BigEndian.encode width n ++ rest).take width = BigEndian.encode width n :=
    List.take_left' (BigEndian.length_encode width n)
  rw [signedAt, List.drop_left, htake, BigEndian.decode_encode h]

theorem signedAt_ofI16 (front : Bytes) (v : Int16) (rest : Bytes) :
    signedAt (front ++ (ofI16 v ++ rest)) front.length 2 = v.toInt := by
  rw [ofI16, ofU16, signedAt_encode v.toUInt16.toNat_lt, Int16.toInt, BitVec.toInt_eq_toNat_bmod]
  rfl

theorem signedAt_ofI32 (front : Bytes) (v : Int32) (rest : Bytes) :
    signedAt (front ++ (ofI32 v ++ rest)) front.length 4 = v.toInt := by
  rw [ofI32, ofU32, signedAt_encode v.toUInt32.toNat_lt, Int32.toInt, BitVec.toInt_eq_toNat_bmod]
  rfl

/-- Items that end with a number of four bytes, behind as many others in each, are a run of numbers
to which they are related one by one. -/
theorem forall₂_signedRun {α : Type} {form : α → Bytes → Prop} {R : α → Int → Prop} {k : Nat}
    (hform : ∀ x b, form x b → ∃ (key : Bytes) (v : Int32), key.length = k ∧
      b = key ++ ofI32 v ∧ R x v.toInt)
    {xs : List α} {items : Bytes} (h : Many form xs items) (front rest : Bytes) :
    List.Forall₂ R xs
      (signedRun (front ++ (items ++ rest)) (k + 4) (front.length + k) xs.length) := by
  -- Places count from the first byte, so the front grows by every item that is passed.
  induction xs generalizing items front with
  | nil => exact .nil
  | cons x xs ih =>
    obtain ⟨_, b, hx, hxs, rfl⟩ := h
    obtain ⟨key, v, rfl, rfl, hv⟩ := hform _ _ hx
    have hhere : front ++ (key ++ ofI32 v ++ b ++ rest) =
        (front ++ key) ++ (ofI32 v ++ (b ++ rest)) := by
      simp only [List.append_assoc]
    have hnext : front ++ (key ++ ofI32 v ++ b ++ rest) =
        (front ++ (key ++ ofI32 v)) ++ (b ++ rest) := by
      simp only [List.append_assoc]
    have hlen : (front ++ (key ++ ofI32 v)).length = front.length + (key.length + 4) := by
      rw [List.length_append, List.length_append, Decoded.length_ofI32]
    refine .cons ?_ ?_
    · rwa [hhere, ← List.length_append, signedAt_ofI32]
    · have hrest := ih hxs (front ++ (key ++ ofI32 v))
      rw [hlen, ← hnext, Nat.add_right_comm] at hrest
      exact hrest

end Bytes

/-! ### Displacements -/

namespace Instruction

/-- The displacements in the bytes of an instruction at an offset, in the order of its targets: that
of a branch behind its opcode, those of a switch behind its padding. -/
def displacements (i : Instruction) (offset : Nat) (bytes : Bytes) : List Int :=
  let operands := 1 + switchPadding offset
  match i with
  | .jump op _ => [Bytes.signedAt bytes 1 (if op.isWideJump then 4 else 2)]
  | .tableSwitch _ _ targets =>
    Bytes.signedAt bytes operands 4 :: Bytes.signedRun bytes 4 (operands + 12) targets.length
  | .lookupSwitch _ pairs =>
    Bytes.signedAt bytes operands 4 :: Bytes.signedRun bytes 8 (operands + 12) pairs.length
  | _ => []

theorem displacements_mapTargets (f : Nat → Nat) (i : Instruction) (offset : Nat)
    (bytes : Bytes) :
    (i.mapTargets f).displacements offset bytes = i.displacements offset bytes := by
  cases i with
  | tableSwitch => simp only [mapTargets, displacements, List.length_map]
  | lookupSwitch => simp only [mapTargets, displacements, List.length_map]
  | _ => rfl

theorem displacements_of_isPlain {i : Instruction} (h : i.isPlain) (offset : Nat)
    (bytes : Bytes) : i.displacements offset bytes = [] := by
  cases i with
  | jump | tableSwitch | lookupSwitch => exact absurd h (by simp [isPlain])
  | _ => rfl

end Instruction

namespace Decoded

variable {pool : ConstantPool} {offset : Nat} {list : List Instruction} {bytes : Bytes}

/-- The cases of a table switch are a run of displacements. -/
theorem forall₂_cases {ts : List Nat} {items : Bytes}
    (h : Bytes.Many (fun t b => ∃ v : Int32, absolute offset v.toInt = .ok t ∧ b = Bytes.ofI32 v)
      ts items) (front rest : Bytes) :
    List.Forall₂ (fun t delta => absolute offset delta = .ok t) ts
      (Bytes.signedRun (front ++ (items ++ rest)) 4 front.length ts.length) := by
  refine Bytes.forall₂_signedRun (k := 0) ?_ h front rest
  rintro t _ ⟨v, ht, rfl⟩
  exact ⟨[], v, rfl, rfl, ht⟩

/-- In the pairs of a lookup switch, the displacements stand behind the keys. -/
theorem forall₂_pairs {ps : List (Int32 × Nat)} {items : Bytes}
    (h : Bytes.Many (fun p b => ∃ v : Int32, absolute offset v.toInt = .ok p.2 ∧
      b = Bytes.ofI32 p.1 ++ Bytes.ofI32 v) ps items) (front rest : Bytes) :
    List.Forall₂ (fun t delta => absolute offset delta = .ok t) (ps.map Prod.snd)
      (Bytes.signedRun (front ++ (items ++ rest)) 8 (front.length + 4) ps.length) := by
  refine List.forall₂_map_left_iff.mpr (Bytes.forall₂_signedRun (k := 4) ?_ h front rest)
  rintro p _ ⟨v, ht, rfl⟩
  exact ⟨Bytes.ofI32 p.1, v, length_ofI32 p.1, rfl, ht⟩

/-- The displacements in the bytes of an instruction lead to its targets, which are offsets. -/
theorem forall₂_of_spelling [Build] {i : Instruction} {a : Bytes} (h : Spelling pool offset i a)
    (rest : Bytes) : List.Forall₂ (fun t delta => absolute offset delta = .ok t) i.targets
      (i.displacements offset (a ++ rest)) := by
  cases h with
  | plain _ hi =>
    have hplain := (encodeAt_of_settle hi).1
    rw [Instruction.targets_of_isPlain hplain, Instruction.displacements_of_isPlain hplain]
    exact .nil
  | @near op v t hop ht =>
    have hwide : ¬op.isWideJump := by
      rw [← Opcode.isFarBranch_iff_isWideJump, isFarBranch_iff, hop]
      simp
    have hv := Bytes.signedAt_ofI16 [op] v rest
    refine .cons ?_ .nil
    rw [if_neg hwide]
    exact (congrArg (absolute offset) hv).trans ht
  | @far op v t hop ht =>
    have hwide : op.isWideJump :=
      Opcode.isFarBranch_iff_isWideJump.mp (isFarBranch_iff.mpr hop)
    have hv := Bytes.signedAt_ofI32 [op] v rest
    refine .cons ?_ .nil
    rw [if_pos hwide]
    exact (congrArg (absolute offset) hv).trans ht
  | @tableSwitch pad v low high t ts items hpad ht hlow hcount hts =>
    -- The default stands behind the padding, the cases behind it and the two bounds.
    have hopen : (Opcode.tableswitch :: pad).length = 1 + switchPadding offset := by
      rw [List.length_cons, hpad, Nat.add_comm]
    have hdefault := Bytes.signedAt_ofI32 (Opcode.tableswitch :: pad) v
      (Bytes.ofI32 low ++ (Bytes.ofI32 high ++ (items ++ rest)))
    have hcases := forall₂_cases hts
      (Opcode.tableswitch :: pad ++ (Bytes.ofI32 v ++ (Bytes.ofI32 low ++ Bytes.ofI32 high))) rest
    simp only [List.length_append, hopen, length_ofI32, List.append_assoc] at hdefault hcases
    simp only [Instruction.targets, Instruction.displacements, ← List.cons_append,
      List.append_assoc]
    exact .cons (hdefault ▸ ht) hcases
  | @lookupSwitch pad v count t ps items hpad ht hnonneg hcount hps =>
    -- The default stands behind the padding, and each other one behind a key.
    have hopen : (Opcode.lookupswitch :: pad).length = 1 + switchPadding offset := by
      rw [List.length_cons, hpad, Nat.add_comm]
    have hdefault := Bytes.signedAt_ofI32 (Opcode.lookupswitch :: pad) v
      (Bytes.ofI32 count ++ (items ++ rest))
    have hpairs := forall₂_pairs hps
      (Opcode.lookupswitch :: pad ++ (Bytes.ofI32 v ++ Bytes.ofI32 count)) rest
    simp only [List.length_append, hopen, length_ofI32, List.append_assoc] at hdefault hpairs
    simp only [Instruction.targets, Instruction.displacements, ← List.cons_append,
      List.append_assoc]
    exact .cons (hdefault ▸ ht) hpairs

/-- The bytes of each instruction begin at its offset. -/
theorem Spelled.exists_spelling [Build] (h : Spelled pool offset list bytes) {p start : Nat}
    {i : Instruction} (hi : list[p]? = some i)
    (hstart : (Layout.offsetsFrom offset list)[p]? = some start) :
    ∃ a rest : Bytes, Spelling pool start i a ∧ bytes.drop (start - offset) = a ++ rest := by
  -- Offsets count from the first instruction, and so do the places in the bytes.
  induction list generalizing offset bytes p with
  | nil => exact absurd hi (by simp)
  | cons j list ih =>
    obtain ⟨a, b, ha, hb, rfl⟩ := h
    cases p with
    | zero =>
      obtain rfl := Option.some.inj hi
      obtain rfl := Option.some.inj hstart
      exact ⟨a, b, ha, by rw [Nat.sub_self, List.drop_zero]⟩
    | succ p =>
      have hstart : (Layout.offsetsFrom (offset + a.length) list)[p]? = some start := by
        rw [length_of_spelling ha]
        exact hstart
      obtain ⟨a', rest, ha', hrest⟩ := ih hb hi hstart
      have hle := Layout.le_of_mem_offsetsFrom (List.mem_of_getElem? hstart)
      have hplace : start - offset = a.length + (start - (offset + a.length)) := by omega
      refine ⟨a', rest, ha', ?_⟩
      rw [hplace, List.drop_length_add_append, hrest]

end Decoded

/-! ### Code arrays -/

open Decoded

variable {pool : ConstantPool} {list : List Instruction} {layout : Layout} {code : Bytes}

/-- Every target of an instruction is an instruction, and the displacements in the bytes lead to
them. -/
theorem displacements_of_decode [Build] (h : decode pool code = .ok ⟨list, layout⟩) {p start : Nat}
    {i : Instruction} (hi : list[p]? = some i) (hstart : layout.offset? p = some start) :
    List.Forall₂ (fun t delta => t < list.length ∧ layout.Displaces start t delta) i.targets
      (i.displacements start (code.drop start)) := by
  obtain ⟨rfl, hspelled, htargets⟩ := decode_eq_ok_iff.mp h
  have htargets := htargets i (List.mem_of_getElem? hi)
  have hraw : (list.map (Instruction.mapTargets (Layout.ofInstructions list).offsetOf))[p]? =
      some (i.mapTargets (Layout.ofInstructions list).offsetOf) := by
    rw [List.getElem?_map, hi]
    rfl
  have hget := hstart
  -- Resolving targets does not move instructions.
  rw [← ofInstructions_map_mapTargets (Layout.ofInstructions list).offsetOf list,
    Layout.offset?_ofInstructions] at hget
  obtain ⟨a, rest, hspelling, hrest⟩ := hspelled.exists_spelling hraw hget
  rw [Nat.sub_zero] at hrest
  have hforall := forall₂_of_spelling hspelling rest
  rw [← hrest, Instruction.targets_mapTargets, Instruction.displacements_mapTargets,
    List.forall₂_map_left_iff] at hforall
  refine List.Forall₂.imp ?_ ((List.forall₂_and_left _ _).mpr ⟨htargets, hforall⟩)
  rintro t delta ⟨ht, habsolute⟩
  exact ⟨Layout.count_ofInstructions list ▸ ht, Layout.displaces_of_absolute ht habsolute⟩

/-- The layout of a code array that is read has the offsets of its instructions, in ascending order,
and that of its end; they are running sums of sizes, and every displacement leads to a target.  On
any bytes each round of the loop takes at least one of them, the loop comes to one end, and what is
refused is malformed, except that a build that checks its sums is stopped where instructions are
followed by a call that takes too many slots to be counted. -/
theorem decode_places [Build] (pool : ConstantPool) (code : Bytes) :
    (∀ decoded, decode pool code = .ok decoded →
      decoded.layout.starts.size = decoded.instructions.length + 1 ∧
      decoded.layout.offset? 0 = some 0 ∧ decoded.layout.Ascending ∧
      decoded.layout.offset? decoded.instructions.length = some code.length ∧
      ∀ p i, decoded.instructions[p]? = some i → ∃ start, decoded.layout.offset? p = some start ∧
        decoded.layout.offset? (p + 1) = some (start + i.size start) ∧
        List.Forall₂ (fun t delta => t < decoded.instructions.length ∧
          decoded.layout.Displaces start t delta) i.targets
          (i.displacements start (code.drop start))) ∧
    (∀ c i c', readNext pool c = .ok i c' → ∃ b : Bytes, b ≠ [] ∧ c.Advances b c') ∧
    (∀ out, Loops pool [] (Cursor.start code) out ↔
      out = readInstructions pool code.length [] (Cursor.start code)) ∧
    (∀ fault, decode pool code = .error fault →
      (∃ cause, fault = .malformed cause) ∨ fault = .overflow) ∧
    (decode pool code = .error .overflow ↔ Build.checksSums ∧
      ∃ list front rest, code = front ++ rest ∧ Spelled pool 0 list front ∧
        pool.OpensWide rest) := by
  refine ⟨?_, fun _ _ _ => exists_advances_of_readNext, fun _ => loops_iff le_rfl, ?_,
    decode_eq_overflow_iff⟩
  · rintro ⟨list, layout⟩ h
    obtain ⟨hlayout, -, -⟩ := decode_eq_ok_iff.mp h
    obtain rfl : layout = Layout.ofInstructions list := hlayout
    have hsums := Layout.sums_ofInstructions list
    refine ⟨?_, hsums.first, Layout.ascending_ofInstructions list, ?_, fun p i hi => ?_⟩
    · rw [Layout.ofInstructions, List.size_toArray, Layout.length_offsetsFrom]
    · rw [hsums.last, length_of_decode h]
    · obtain ⟨start, hstart, hstop⟩ := hsums.next p i hi
      exact ⟨start, hstart, hstop, displacements_of_decode h hi hstart⟩
  · intro fault hfault
    rcases failsBut_decode pool code fault hfault with hkind | ⟨hover, -⟩
    · cases fault with
      | malformed cause => exact .inl ⟨cause, rfl⟩
      | _ => exact absurd hkind (by simp [Fault.kind])
    · exact .inr hover

attribute [local instance] Build.checked

/-- The table switch of `mixedArray` with the displacements in its bytes, one of them back to the
first instruction, and a loop that ends at a branch with one byte too few. -/
theorem decode_places_mixedArray :
    (decode mixedPool mixedArray = .ok ⟨mixedList, ⟨#[0, 4, 7, 12, 36, 42, 47, 64, 65]⟩⟩ ∧
      List.Forall₂ (fun t delta => t < 8 ∧
        Layout.Displaces ⟨#[0, 4, 7, 12, 36, 42, 47, 64, 65]⟩ 12 t delta) [5, 0, 4]
        [30, -12, 24]) ∧
    Loops mixedPool [] (Cursor.start [167, 0])
      (.error (.malformed (.cutInstruction 0)) (Cursor.start [167, 0])) := by
  have hread : decode mixedPool mixedArray =
      .ok ⟨mixedList, ⟨#[0, 4, 7, 12, 36, 42, 47, 64, 65]⟩⟩ := by
    cbv
  have hcut : readInstructions mixedPool 2 [] (Cursor.start [167, 0]) =
      .error (.malformed (.cutInstruction 0)) (Cursor.start [167, 0]) := by
    cbv
  obtain ⟨-, -, -, -, hplaces⟩ := (decode_places mixedPool mixedArray).1 _ hread
  obtain ⟨start, hstart, -, hswitch⟩ := hplaces 3 (.tableSwitch 5 7 [0, 4]) rfl
  obtain rfl : 12 = start := Option.some.inj hstart
  have hdisplacements : (Instruction.tableSwitch 5 7 [0, 4]).displacements 12
      (mixedArray.drop 12) = [30, -12, 24] := by
    decide
  rw [hdisplacements] at hswitch
  exact ⟨⟨hread, hswitch⟩, ((decode_places mixedPool [167, 0]).2.2.1 _).mpr hcut.symm⟩

/-- A pool with one method of an interface, whose arguments take an odd number of slots. -/
def longsPool (longs : Nat) : ConstantPool :=
  ⟨#[none, some (.utf8 [65]), some (.classRef 1), some (.utf8 [109]),
    some (.utf8 (ModifiedUtf8.encode (longsDescriptor 1 longs).text)), some (.nameAndType 3 4),
    some (.interfaceMethodRef 2 5)]⟩

theorem memberRef_longsPool (longs : Nat) :
    (longsPool longs).memberRef 6 = .ok ⟨6, "A", "m", (longsDescriptor 1 longs).text⟩ := by
  have hname : (longsPool longs).utf8 3 = .ok "m" :=
    ConstantPool.utf8_eq_ok_iff.mpr ⟨[109], rfl, by decide⟩
  have hdescriptor : (longsPool longs).utf8 4 = .ok (longsDescriptor 1 longs).text :=
    ConstantPool.utf8_eq_ok_iff.mpr ⟨_, rfl, ModifiedUtf8.decode_encode _⟩
  have howner : (longsPool longs).className 2 = .ok "A" :=
    ConstantPool.className_eq_ok_iff.mpr
      ⟨1, rfl, ConstantPool.utf8_eq_ok_iff.mpr ⟨[65], rfl, by decide⟩⟩
  have hmember : (longsPool longs).nameAndType 5 = .ok ("m", (longsDescriptor 1 longs).text) :=
    ConstantPool.nameAndType_eq_ok_iff.mpr ⟨3, 4, rfl, hname, hdescriptor⟩
  rw [ConstantPool.memberRef, Bytes.bind_eq_ok_iff]
  refine ⟨.interfaceMethodRef 2 5, rfl, ?_⟩
  simp only [hmember, howner]
  rfl

/-- A call with 65535 slots of arguments is a well-formed code array, and stops a build that checks
its sums. -/
theorem decode_wideCall :
    @decode Build.checked (longsPool 32767) [185, 0, 6, 1, 0] = .error .overflow :=
  decode_eq_overflow_iff.mpr ⟨rfl, [], [], _, rfl, rfl, 0, 6, 1, 0, [], _, _, rfl,
    memberRef_longsPool 32767, parse_longsDescriptor 1 32767,
    (slotCount_longsDescriptor 1 32767).ge⟩

end ClassGraft
