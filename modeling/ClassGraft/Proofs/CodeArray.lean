/-
Code arrays.

A code array is its instructions spelled one after the other (`Decoded.Spelled`); reading it gives
the instructions, each target as the position that lies at the offset spelled
(`decode_eq_ok_iff`), and the layout of the instructions that it gives.  Writing puts what is
written of each instruction one after the other (`Emitted`).  So legible instructions are written as
a code array of theirs, and a code array with zero padding is written back (`encode_iff_decode`).
-/
import ClassGraft.Proofs.Encoding

namespace ClassGraft

namespace Instruction

@[simp] theorem size_mapTargets (f : Nat → Nat) (offset : Nat) (i : Instruction) :
    (i.mapTargets f).size offset = i.size offset := by
  cases i <;> simp [mapTargets, size]

/-- Padding is told by the bytes that the instruction takes. -/
theorem zeroPadded_append {offset : Nat} {i : Instruction} {a b : Bytes}
    (h : a.length = i.size offset) : i.ZeroPadded offset (a ++ b) ↔ i.ZeroPadded offset a := by
  refine imp_congr_right fun hswitch => ?_
  have hlen : 1 + switchPadding offset ≤ a.length := by
    rw [h]
    cases i with
    | tableSwitch | lookupSwitch =>
      simp only [size]
      omega
    | _ => exact absurd hswitch (by simp [isSwitch])
  rw [List.drop_append_of_le_length (by omega), List.take_append_of_le_length (by
    rw [List.length_drop]
    omega)]

end Instruction

namespace Decoded

variable {pool : ConstantPool} {layout : Layout}

/-- The bytes spell the instructions one after the other from an offset on; targets are offsets. -/
def Spelled [Build] (pool : ConstantPool) : Nat → List Instruction → Bytes → Prop
  | _, [], bytes => bytes = []
  | offset, i :: rest, bytes => ∃ a b : Bytes, Spelling pool offset i a ∧
      Spelled pool (offset + a.length) rest b ∧ bytes = a ++ b

/-- In the bytes of instructions from an offset on, the padding of every switch is zero. -/
def ZeroPaddedFrom : Nat → List Instruction → Bytes → Prop
  | _, [], _ => True
  | offset, i :: rest, bytes => i.ZeroPadded offset bytes ∧
      ZeroPaddedFrom (offset + i.size offset) rest (bytes.drop (i.size offset))

/-- In a code array, the padding of every switch is zero. -/
def ZeroPadded [Build] (pool : ConstantPool) (array : Bytes) : Prop :=
  ∀ ⦃list : List Instruction⦄ ⦃layout : Layout⦄ ⦃p offset : Nat⦄ ⦃i : Instruction⦄,
    decode pool array = .ok ⟨list, layout⟩ → list[p]? = some i →
      layout.offset? p = some offset → i.ZeroPadded offset (array.drop offset)

theorem zeroPaddedFrom_of_forall {offset : Nat} {list : List Instruction} {bytes : Bytes}
    (h : ∀ (p : Nat) (i : Instruction) (o : Nat), list[p]? = some i →
      (Layout.offsetsFrom offset list)[p]? = some o →
      i.ZeroPadded o (bytes.drop (o - offset))) : ZeroPaddedFrom offset list bytes := by
  -- The rest begins at an offset of its own, so offsets count from there.
  induction list generalizing offset bytes with
  | nil => trivial
  | cons i rest ih =>
    refine ⟨?_, ih fun p j o hj ho => ?_⟩
    · have := h 0 i offset rfl rfl
      rwa [Nat.sub_self, List.drop_zero] at this
    · have hle := Layout.le_of_mem_offsetsFrom (List.mem_of_getElem? ho)
      have := h (p + 1) j o hj ho
      rwa [List.drop_drop,
        show i.size offset + (o - (offset + i.size offset)) = o - offset by omega]

/-! ### Lengths -/

theorem length_localBytes (index : UInt16) (short long : Opcode) :
    (Instruction.localBytes index short long).length =
      if index ≤ 3 then 1 else if index ≤ 255 then 2 else 4 := by
  rw [Instruction.localBytes]
  split
  · rfl
  · split
    · rfl
    · rfl

/-- A plain instruction takes as many bytes as its size says. -/
theorem length_encodeAt_of_isPlain [Build] {i : Instruction} (h : i.isPlain) {site : Site}
    {b : Bytes}
    (hb : i.encodeAt layout site = .ok b) (offset : Nat) : b.length = i.size offset := by
  cases i with
  | jump | tableSwitch | lookupSwitch => exact absurd h (by simp [Instruction.isPlain])
  | loadLocal | storeLocal =>
    rw [← Except.ok.inj hb, length_localBytes]
    rfl
  | invoke method dispatch =>
    obtain ⟨tail, htail, rfl⟩ := encodeAt_invoke_eq_ok_iff.mp hb
    rw [Instruction.size, List.length_cons, List.length_append, Bytes.ofU16,
      BigEndian.length_encode]
    by_cases hi : dispatch = .interface
    · rw [if_pos hi] at htail ⊢
      rw [length_interfaceTail htail]
    · rw [if_neg hi] at htail ⊢
      rw [← Except.ok.inj htail]
      rfl
  | other op operands =>
    rw [← Except.ok.inj hb, Instruction.size, List.length_cons, Nat.add_comm]
  | _ =>
    rw [← Except.ok.inj hb]
    rfl

theorem length_of_spelling [Build] {offset : Nat} {i : Instruction} {b : Bytes}
    (h : Spelling pool offset i b) : b.length = i.size offset := by
  cases h with
  | plain _ hi =>
    obtain ⟨hplain, hb⟩ := encodeAt_of_settle hi
    exact length_encodeAt_of_isPlain hplain (hb Layout.empty ⟨"", 0, 0⟩) offset
  | near hop _ =>
    rw [Instruction.size, if_neg (by simp [isFarBranch_iff, hop])]
    rfl
  | far hop _ =>
    rw [Instruction.size, if_pos (by simp [isFarBranch_iff, hop])]
    rfl
  | tableSwitch hpad _ _ _ hts =>
    simp only [List.length_cons, List.length_append, hpad, length_ofI32, length_cases hts,
      Instruction.size]
    omega
  | lookupSwitch hpad _ _ _ hps =>
    simp only [List.length_cons, List.length_append, hpad, length_ofI32, length_pairs hps,
      Instruction.size]
    omega

/-! ### Reading -/

open Reader

/-- Offsets stand beside their instructions, and the end of the code stays left over. -/
theorem map_fst_zip_offsetsFrom [Build] (offset : Nat) (list : List Instruction) (bytes : Bytes)
    (h : Spelled pool offset list bytes) :
    ((Layout.offsetsFrom offset list).zip list).map Prod.fst ++ [offset + bytes.length] =
      Layout.offsetsFrom offset list := by
  induction list generalizing offset bytes with
  | nil =>
    obtain rfl : bytes = [] := h
    rfl
  | cons i rest ih =>
    obtain ⟨a, b, hi, hrest, rfl⟩ := h
    rw [length_of_spelling hi] at hrest
    rw [Layout.offsetsFrom, List.zip_cons_cons, List.map_cons, List.cons_append,
      List.length_append, length_of_spelling hi, ← Nat.add_assoc, ih _ _ hrest]

theorem map_snd_zip_offsetsFrom (offset : Nat) (list : List Instruction) :
    ((Layout.offsetsFrom offset list).zip list).map Prod.snd = list :=
  List.map_snd_zip (by rw [Layout.length_offsetsFrom]; exact Nat.le_succ _)

/-- Where no bytes lie ahead, no instruction is spelled. -/
theorem spelled_nil_iff [Build] {offset : Nat} {list : List Instruction} :
    Spelled pool offset list [] ↔ list = [] := by
  cases list with
  | nil => simp [Spelled]
  | cons i rest =>
    simp only [Spelled, reduceCtorEq, iff_false]
    rintro ⟨a, b, hi, -, hab⟩
    obtain ⟨rfl, -⟩ := List.append_eq_nil_iff.mp hab.symm
    have h₁ := length_of_spelling hi
    have h₂ := i.size_pos offset
    rw [← h₁] at h₂
    exact absurd h₂ (Nat.lt_irrefl 0)

/-- At the end of the code the loop yields what has been read. -/
theorem readInstructions_end [Build] (fuel : Nat) (done : List (Nat × Instruction)) (pos : Nat) :
    readInstructions pool fuel done ⟨pos, []⟩ = .ok done.reverse ⟨pos, []⟩ := by
  cases fuel with
  | zero => rfl
  | succ fuel => rfl

/-- A round before the end reads one instruction. -/
theorem readInstructions_succ_eq_ok_iff [Build] {fuel : Nat} {done out : List (Nat × Instruction)}
    {c c' : Cursor} (hmore : c.rest ≠ []) :
    readInstructions pool (fuel + 1) done c = .ok out c' ↔ ∃ (i : Instruction) (m : Cursor),
      (∃ a : Bytes, Spelling pool c.pos i a ∧ c.Advances a m) ∧
        readInstructions pool fuel ((c.pos, i) :: done) m = .ok out c' := by
  have hmore' : (!c.rest.isEmpty) = true := by simpa using hmore
  simp only [readInstructions, bind_eq_ok_iff, more_eq_ok_iff]
  constructor
  · rintro ⟨_, _, ⟨rfl, rfl⟩, h⟩
    rw [if_pos hmore'] at h
    simp only [bind_eq_ok_iff, pos_eq_ok_iff, mapFault_eq_ok_iff, transaction_eq_ok_iff,
      readInstruction_eq_ok_iff] at h
    obtain ⟨_, _, ⟨rfl, rfl⟩, h⟩ := h
    exact h
  · intro h
    refine ⟨_, _, ⟨rfl, rfl⟩, ?_⟩
    rw [if_pos hmore']
    simp only [bind_eq_ok_iff, pos_eq_ok_iff, mapFault_eq_ok_iff, transaction_eq_ok_iff,
      readInstruction_eq_ok_iff]
    exact ⟨_, _, ⟨rfl, rfl⟩, h⟩

/-- With fuel for every byte, the instructions up to the end of the code are read. -/
theorem readInstructions_eq_ok_iff [Build] (fuel : Nat) (done out : List (Nat × Instruction))
    (c c' : Cursor) (hfuel : c.rest.length ≤ fuel) :
    readInstructions pool fuel done c = .ok out c' ↔ ∃ list : List Instruction,
      Spelled pool c.pos list c.rest ∧
        out = done.reverse ++ (Layout.offsetsFrom c.pos list).zip list ∧
        c' = ⟨c.pos + c.rest.length, []⟩ := by
  -- Each instruction takes at least one byte and one unit of fuel.
  induction fuel generalizing done c with
  | zero =>
    obtain ⟨pos, rest⟩ := c
    obtain rfl : rest = [] := List.eq_nil_of_length_eq_zero (Nat.le_zero.mp hfuel)
    simp [readInstructions_end, spelled_nil_iff, eq_comm]
  | succ fuel ih =>
    obtain ⟨pos, rest⟩ := c
    by_cases hmore : rest = []
    · rw [hmore]
      simp [readInstructions_end, spelled_nil_iff, eq_comm]
    · rw [readInstructions_succ_eq_ok_iff hmore]
      constructor
      · rintro ⟨i, m, ⟨a, hi, ha⟩, h⟩
        have hsize : a.length = i.size pos := length_of_spelling hi
        have hpos := i.size_pos pos
        have hlen := congrArg List.length ha.1
        rw [List.length_append] at hlen
        obtain ⟨list, hlist, rfl, rfl⟩ := (ih _ m (by simp only at hlen hfuel; omega)).mp h
        have hm : m.pos = pos + a.length := ha.2
        refine ⟨i :: list, ⟨a, m.rest, hi, hm ▸ hlist, ha.1⟩, ?_, ?_⟩
        · rw [Layout.offsetsFrom, List.zip_cons_cons, ← hsize, ← hm]
          simp
        · rw [hm, hlen, Nat.add_assoc]
      · rintro ⟨list, hlist, rfl, rfl⟩
        cases list with
        | nil => exact absurd hlist hmore
        | cons i list =>
          obtain ⟨a, b, hi, hlist, rfl⟩ := hlist
          have hsize : a.length = i.size pos := length_of_spelling hi
          have hpos := i.size_pos pos
          simp only [List.length_append] at hfuel
          refine ⟨i, ⟨pos + a.length, b⟩, ⟨a, hi, rfl, rfl⟩, ?_⟩
          refine (ih _ ⟨pos + a.length, b⟩ (by simp only; omega)).mpr ⟨list, hlist, ?_, ?_⟩
          · rw [Layout.offsetsFrom, List.zip_cons_cons, ← hsize]
            simp
          · rw [List.length_append, Nat.add_assoc]

/-- A target that is an offset is resolved as the position that lies there. -/
theorem resolveTarget_eq_ok_iff (h : layout.Ascending) {index offset t p : Nat} :
    resolveTarget layout index offset t = .ok p ↔ t = layout.offsetOf p ∧ p < layout.count := by
  rw [resolveTarget]
  constructor
  · intro hp
    rcases hindex : layout.indexOf? t with _ | q
    · rw [hindex] at hp
      exact absurd hp (by simp)
    · rw [hindex] at hp
      simp only at hp
      split at hp
      · next hq =>
        obtain rfl := Except.ok.inj hp
        have ht := (Layout.indexOf?_eq_some_iff h).mp hindex
        rw [Layout.offset?_eq_offsetOf hq] at ht
        exact ⟨(Option.some.inj ht).symm, hq⟩
      · exact absurd hp (by simp)
  · rintro ⟨rfl, hp⟩
    rw [(Layout.indexOf?_eq_some_iff h).mpr (Layout.offset?_eq_offsetOf hp)]
    simp only [if_pos hp]

/-- The targets of a lookup table, each of which `f` turns and `g` turns back. -/
theorem mapM_pairs_eq_ok_iff {ε : Type} {f : Nat → Except ε Nat} {g : Nat → Nat} {P : Nat → Prop}
    (hf : ∀ t p, f t = .ok p ↔ t = g p ∧ P p) {ts ps : List (Int32 × Nat)} :
    (ts.mapM fun (key, t) => do return (key, ← f t)) = .ok ps ↔
      ts = ps.map (fun (key, p) => (key, g p)) ∧ ∀ p ∈ ps, P p.2 := by
  have hpair : ∀ x y : Int32 × Nat, (do return (x.1, ← f x.2) : Except ε _) = .ok y ↔
      x = (y.1, g y.2) ∧ P y.2 := by
    rintro ⟨key, t⟩ ⟨key', p⟩
    simp only [Bytes.bind_eq_ok_iff, hf, Prod.mk.injEq]
    constructor
    · rintro ⟨q, ⟨rfl, hq⟩, h⟩
      obtain ⟨rfl, rfl⟩ := Prod.mk.inj (Except.ok.inj h)
      exact ⟨⟨rfl, rfl⟩, hq⟩
    · rintro ⟨⟨rfl, rfl⟩, hp⟩
      exact ⟨p, ⟨rfl, hp⟩, rfl⟩
  refine (Bytes.mapM_eq_ok_iff (g := id) hpair).trans ?_
  rw [List.map_id]

/-- Turning targets by a partial function that `g` undoes. -/
theorem mapTargetsM_eq_ok_iff {ε : Type} {f : Nat → Except ε Nat} {g : Nat → Nat} {P : Nat → Prop}
    (hf : ∀ t p, f t = .ok p ↔ t = g p ∧ P p) {i i' : Instruction} :
    i.mapTargetsM f = .ok i' ↔ i = i'.mapTargets g ∧ ∀ p ∈ i'.targets, P p := by
  have hlist : ∀ ts ps : List Nat, ts.mapM f = .ok ps ↔ ts = ps.map g ∧ ∀ p ∈ ps, P p := by
    intro ts ps
    have h : ts.mapM f = .ok ps ↔ ts.map id = ps.map g ∧ ∀ p ∈ ps, P p := Bytes.mapM_eq_ok_iff hf
    rwa [List.map_id] at h
  cases i with
  | jump op t =>
    simp only [Instruction.mapTargetsM, Bytes.bind_eq_ok_iff, hf]
    constructor
    · rintro ⟨p, ⟨rfl, hp⟩, h⟩
      obtain rfl := Except.ok.inj h
      exact ⟨rfl, by simpa [Instruction.targets] using hp⟩
    · rintro ⟨hi, hP⟩
      cases i' with
      | jump op' p =>
        obtain ⟨rfl, rfl⟩ := Instruction.jump.inj hi
        exact ⟨p, ⟨rfl, hP p (by simp [Instruction.targets])⟩, rfl⟩
      | _ => exact absurd hi (by simp [Instruction.mapTargets])
  | tableSwitch t low ts =>
    simp only [Instruction.mapTargetsM, Bytes.bind_eq_ok_iff, hf, hlist]
    constructor
    · rintro ⟨p, ⟨rfl, hp⟩, ps, ⟨rfl, hps⟩, h⟩
      obtain rfl := Except.ok.inj h
      exact ⟨rfl, List.forall_mem_cons.mpr ⟨hp, hps⟩⟩
    · rintro ⟨hi, hP⟩
      cases i' with
      | tableSwitch p low' ps =>
        obtain ⟨rfl, rfl, rfl⟩ := Instruction.tableSwitch.inj hi
        obtain ⟨hp, hps⟩ := List.forall_mem_cons.mp hP
        exact ⟨p, ⟨rfl, hp⟩, ps, ⟨rfl, hps⟩, rfl⟩
      | _ => exact absurd hi (by simp [Instruction.mapTargets])
  | lookupSwitch t ts =>
    simp only [Instruction.mapTargetsM, Bytes.bind_eq_ok_iff, hf, mapM_pairs_eq_ok_iff hf]
    constructor
    · rintro ⟨p, ⟨rfl, hp⟩, ps, ⟨rfl, hps⟩, h⟩
      obtain rfl := Except.ok.inj h
      exact ⟨rfl, List.forall_mem_cons.mpr ⟨hp, List.forall_mem_map.mpr hps⟩⟩
    · rintro ⟨hi, hP⟩
      cases i' with
      | lookupSwitch p ps =>
        obtain ⟨rfl, rfl⟩ := Instruction.lookupSwitch.inj hi
        obtain ⟨hp, hps⟩ := List.forall_mem_cons.mp hP
        exact ⟨p, ⟨rfl, hp⟩, ps, ⟨rfl, List.forall_mem_map.mp hps⟩, rfl⟩
      | _ => exact absurd hi (by simp [Instruction.mapTargets])
  | loadLocal | storeLocal | loadField | storeField | invoke | pop | pop2 | exit | other =>
    rw [Instruction.mapTargetsM_of_isPlain rfl]
    constructor
    · intro h
      obtain rfl := Except.ok.inj h
      exact ⟨rfl, by simp [Instruction.targets]⟩
    · rintro ⟨hi, -⟩
      cases i' with
      | jump | tableSwitch | lookupSwitch => exact absurd hi (by simp [Instruction.mapTargets])
      | _ => rw [hi, Instruction.mapTargets_of_isPlain rfl]

theorem mapTargetsM_resolveTarget_eq_ok_iff (h : layout.Ascending) {index offset : Nat}
    {i i' : Instruction} :
    i.mapTargetsM (resolveTarget layout index offset) = .ok i' ↔
      i = i'.mapTargets layout.offsetOf ∧ ∀ p ∈ i'.targets, p < layout.count :=
  mapTargetsM_eq_ok_iff fun _ _ => resolveTarget_eq_ok_iff h

theorem resolveTargets_eq_ok_iff (h : layout.Ascending) {raw : List (Nat × Instruction)}
    {list : List Instruction} :
    resolveTargets layout raw = .ok list ↔
      raw.map Prod.snd = list.map (Instruction.mapTargets layout.offsetOf) ∧
        ∀ i ∈ list, ∀ p ∈ i.targets, p < layout.count := by
  have hmap : raw.map Prod.snd = raw.zipIdx.map fun x => x.1.2 := by
    rw [← Function.comp_def, ← List.map_map, List.zipIdx_map_fst]
  rw [hmap, resolveTargets]
  exact Bytes.mapM_eq_ok_iff fun _ _ => mapTargetsM_resolveTarget_eq_ok_iff h

theorem ofInstructions_map_mapTargets (f : Nat → Nat) (list : List Instruction) :
    Layout.ofInstructions (list.map (Instruction.mapTargets f)) = Layout.ofInstructions list := by
  rw [Layout.ofInstructions, Layout.ofInstructions]
  congr 2
  refine Layout.offsetsFrom_congr ?_
  rw [List.forall₂_map_left_iff]
  exact List.forall₂_same.mpr fun i _ o => Instruction.size_mapTargets f o i

end Decoded

open Decoded

variable {pool : ConstantPool} {layout : Layout} {list : List Instruction} {bytes : Bytes}

/-- A code array is read as instructions exactly if it spells them in their layout. -/
theorem decode_eq_ok_iff [Build] :
    decode pool bytes = .ok ⟨list, layout⟩ ↔ layout = Layout.ofInstructions list ∧
      Spelled pool 0 (list.map (Instruction.mapTargets layout.offsetOf)) bytes ∧
        ∀ i ∈ list, ∀ p ∈ i.targets, p < layout.count := by
  have hread : ∀ raw : List (Nat × Instruction),
      (readInstructions pool bytes.length []).eval bytes = .ok raw ↔ ∃ list : List Instruction,
        Spelled pool 0 list bytes ∧ raw = (Layout.offsetsFrom 0 list).zip list := by
    intro raw
    rw [Reader.eval_eq_ok_iff]
    constructor
    · rintro ⟨c', h⟩
      obtain ⟨list, hlist, hraw, -⟩ :=
        (readInstructions_eq_ok_iff _ _ _ (Cursor.start bytes) c' le_rfl).mp h
      exact ⟨list, hlist, hraw⟩
    · rintro ⟨list, hlist, hraw⟩
      exact ⟨_, (readInstructions_eq_ok_iff _ _ _ (Cursor.start bytes) _ le_rfl).mpr
        ⟨list, hlist, hraw, rfl⟩⟩
  -- The layout that reading puts together is that of what it has read.
  have hlayout : ∀ raw : List Instruction, Spelled pool 0 raw bytes →
      (⟨(((Layout.offsetsFrom 0 raw).zip raw).map Prod.fst ++ [bytes.length]).toArray⟩ : Layout) =
        Layout.ofInstructions raw := by
    intro raw hraw
    have h := map_fst_zip_offsetsFrom 0 raw bytes hraw
    rw [Nat.zero_add] at h
    rw [h, Layout.ofInstructions]
  simp only [decode, Bytes.bind_eq_ok_iff, hread]
  constructor
  · rintro ⟨_, ⟨raw, hraw, rfl⟩, resolved, hresolve, h⟩
    obtain ⟨rfl, rfl⟩ := Decoded.mk.inj (Except.ok.inj h)
    rw [hlayout raw hraw] at hresolve ⊢
    rw [resolveTargets_eq_ok_iff (Layout.ascending_ofInstructions raw),
      map_snd_zip_offsetsFrom] at hresolve
    obtain ⟨hmap, htargets⟩ := hresolve
    -- Sizes do not depend on targets, so resolving these does not change the layout.
    refine ⟨?_, hmap ▸ hraw, htargets⟩
    rw [hmap, ofInstructions_map_mapTargets]
  · rintro ⟨rfl, hspelled, htargets⟩
    refine ⟨_, ⟨_, hspelled, rfl⟩, list, ?_, ?_⟩
    · rw [hlayout _ hspelled, ofInstructions_map_mapTargets,
        resolveTargets_eq_ok_iff (Layout.ascending_ofInstructions list), map_snd_zip_offsetsFrom]
      exact ⟨rfl, htargets⟩
    · rw [hlayout _ hspelled, ofInstructions_map_mapTargets]
      rfl

/-! ### Writing -/

theorem legible_mapTargets [Build] (f : Nat → Nat) (i : Instruction) :
    (i.mapTargets f).Legible pool ↔ i.Legible pool := by
  cases i with
  | tableSwitch =>
    simp only [Instruction.mapTargets, Instruction.Legible, ne_eq, List.map_eq_nil_iff]
  | _ => rfl

theorem legible_of_spelling [Build] {offset : Nat} {i : Instruction}
    (h : Spelling pool offset i bytes) :
    i.Legible pool := by
  cases h with
  | plain hfit hi =>
    rw [legible_iff_of_isPlain (encodeAt_of_settle hi).1]
    exact ⟨_, _, hfit, settle_offset offset 0 _ _ ▸ hi⟩
  | near hop _ => exact .inl hop
  | far hop _ => exact .inr hop
  | tableSwitch _ _ hlow hcount _ =>
    exact List.ne_nil_of_length_pos (tableSwitch_bounds_iff.mp ⟨hlow, hcount⟩).1
  | lookupSwitch => trivial

theorem legible_of_spelled [Build] {offset : Nat} (h : Spelled pool offset list bytes) :
    ∀ i ∈ list, i.Legible pool := by
  induction list generalizing offset bytes with
  | nil => simp
  | cons i rest ih =>
    obtain ⟨a, b, hi, hrest, rfl⟩ := h
    exact List.forall_mem_cons.mpr ⟨legible_of_spelling hi, ih hrest⟩

/-- Reading gives legible instructions only. -/
theorem legible_of_decode [Build] (h : decode pool bytes = .ok ⟨list, layout⟩) :
    ∀ i ∈ list, i.Legible pool := by
  intro i hi
  have := legible_of_spelled (decode_eq_ok_iff.mp h).2.1 _ (List.mem_map_of_mem hi)
  rwa [legible_mapTargets] at this

/-- What is written of instructions one after the other, the first of which has the given index and
offset. -/
def Emitted [Build] (method : String) (layout : Layout) :
    Nat → Nat → List Instruction → Bytes → Prop
  | _, _, [], bytes => bytes = []
  | index, offset, i :: rest, bytes => ∃ a b : Bytes,
      i.encodeAt layout ⟨method, index, offset⟩ = .ok a ∧
        Emitted method layout (index + 1) (offset + i.size offset) rest b ∧ bytes = a ++ b

theorem encodeFrom_eq_ok_iff [Build] {method : String} {index offset : Nat} {done : List Bytes} :
    encodeFrom method layout index offset list done = .ok bytes ↔
      ∃ items, Emitted method layout index offset list items ∧
        bytes = done.reverse.flatten ++ items := by
  -- What has been written stands in `done`, last first.
  induction list generalizing index offset done bytes with
  | nil => simp [encodeFrom, Emitted, eq_comm]
  | cons i rest ih =>
    have hdone : ∀ a b : Bytes, (a :: done).reverse.flatten ++ b =
        done.reverse.flatten ++ (a ++ b) := by
      intro a b
      rw [List.reverse_cons, List.flatten_append, List.flatten_singleton, List.append_assoc]
    simp only [encodeFrom, Bytes.bind_eq_ok_iff, ih, hdone, Emitted]
    constructor
    · rintro ⟨a, ha, b, hb, rfl⟩
      exact ⟨a ++ b, ⟨a, b, ha, hb, rfl⟩, rfl⟩
    · rintro ⟨_, ⟨a, b, ha, hb, rfl⟩, rfl⟩
      exact ⟨a, ha, b, hb, rfl⟩

theorem encode_eq_ok_iff [Build] {method : String} {encoded : Encoded} :
    encode method list = .ok encoded ↔ encoded.layout = Layout.ofInstructions list ∧
      (Layout.ofInstructions list).length ≤ 65535 ∧
      Emitted method (Layout.ofInstructions list) 0 0 list encoded.bytes := by
  obtain ⟨bytes, layout⟩ := encoded
  simp only [encode, Bytes.ite_throw_eq_ok_iff, Bytes.bind_pure_eq_ok_iff, encodeFrom_eq_ok_iff,
    Encoded.mk.injEq]
  constructor
  · rintro ⟨hlen, _, ⟨items, hitems, rfl⟩, rfl, rfl⟩
    exact ⟨rfl, hlen, hitems⟩
  · rintro ⟨rfl, hlen, hitems⟩
    exact ⟨hlen, bytes, ⟨bytes, hitems, rfl⟩, rfl, rfl⟩

/-- Legible instructions are written as they are spelled with zero padding. -/
theorem emitted_iff_spelled [Build] (hfits : layout.Fits) {method : String} {index offset : Nat}
    (hend : ∀ o ∈ Layout.offsetsFrom offset list, o ≤ 65535) :
    (∀ i ∈ list, i.Legible pool) ∧ Emitted method layout index offset list bytes ↔
      Spelled pool offset (list.map (Instruction.mapTargets layout.offsetOf)) bytes ∧
        (∀ i ∈ list, ∀ p ∈ i.targets, p < layout.count) ∧ ZeroPaddedFrom offset list bytes := by
  induction list generalizing index offset bytes with
  | nil => simp [Emitted, Spelled, ZeroPaddedFrom]
  | cons i rest ih =>
    rw [Layout.offsetsFrom, List.forall_mem_cons] at hend
    obtain ⟨hoffset, hend⟩ := hend
    have hsize : offset + i.size offset ≤ 65535 := by
      refine hend _ ?_
      cases rest with
      | nil => exact List.mem_singleton_self _
      | cons => exact List.mem_cons_self
    have hone : ∀ b : Bytes,
        i.Legible pool ∧ i.encodeAt layout ⟨method, index, offset⟩ = .ok b ↔
          Spelling pool offset (i.mapTargets layout.offsetOf) b ∧
            (∀ p ∈ i.targets, p < layout.count) ∧ i.ZeroPadded offset b :=
      fun b => encodeAt_iff_spelling hfits hoffset (by simp only; omega)
    simp only [List.forall_mem_cons, List.map_cons, Emitted, Spelled, ZeroPaddedFrom]
    constructor
    · rintro ⟨⟨hi, hrest⟩, a, b, ha, hb, rfl⟩
      obtain ⟨hspell, htargets, hzero⟩ := (hone a).mp ⟨hi, ha⟩
      have hlen : a.length = i.size offset := by
        rw [length_of_spelling hspell, Instruction.size_mapTargets]
      obtain ⟨hspelled, hrests, hzeros⟩ := (ih hend).mp ⟨hrest, hb⟩
      refine ⟨⟨a, b, hspell, hlen ▸ hspelled, rfl⟩, ⟨htargets, hrests⟩, ?_, ?_⟩
      · exact (Instruction.zeroPadded_append hlen).mpr hzero
      · rwa [← hlen, List.drop_left, hlen]
    · rintro ⟨⟨a, b, hspell, hspelled, rfl⟩, ⟨htargets, hrests⟩, hzero, hzeros⟩
      have hlen : a.length = i.size offset := by
        rw [length_of_spelling hspell, Instruction.size_mapTargets]
      rw [hlen] at hspelled
      rw [Instruction.zeroPadded_append hlen] at hzero
      rw [← hlen, List.drop_left, hlen] at hzeros
      obtain ⟨hi, ha⟩ := (hone a).mpr ⟨hspell, htargets, hzero⟩
      obtain ⟨hrest, hb⟩ := (ih hend).mpr ⟨hspelled, hrests, hzeros⟩
      exact ⟨⟨hi, hrest⟩, a, b, ha, hb, rfl⟩

theorem length_of_spelled [Build] {offset : Nat} (h : Spelled pool offset list bytes) :
    (Layout.offsetsFrom offset list).getLast? = some (offset + bytes.length) := by
  rw [← map_fst_zip_offsetsFrom offset list bytes h, List.getLast?_append_of_ne_nil _ (by simp)]
  rfl

/-- The length of what is read is that of the layout. -/
theorem length_of_decode [Build] (h : decode pool bytes = .ok ⟨list, layout⟩) :
    layout.length = bytes.length := by
  obtain ⟨rfl, hspelled, -⟩ := decode_eq_ok_iff.mp h
  rw [← ofInstructions_map_mapTargets (Layout.ofInstructions list).offsetOf list, Layout.length,
    Layout.ofInstructions, List.back?_toArray, length_of_spelled hspelled]
  simp

theorem offsets_le_of_fits (h : (Layout.ofInstructions list).Fits) :
    ∀ o ∈ Layout.offsetsFrom 0 list, o ≤ 65535 := by
  intro o ho
  obtain ⟨p, hp⟩ := List.mem_iff_getElem?.mp ho
  rw [← Layout.offset?_ofInstructions] at hp
  exact h hp

/-- Legible instructions and their code array determine each other, up to the padding of
switches. -/
theorem encode_iff_decode [Build] {method : String} :
    (∀ i ∈ list, i.Legible pool) ∧ encode method list = .ok ⟨bytes, layout⟩ ↔
      decode pool bytes = .ok ⟨list, layout⟩ ∧ bytes.length ≤ 65535 ∧
        ZeroPaddedFrom 0 list bytes := by
  rw [encode_eq_ok_iff]
  constructor
  · rintro ⟨hlegible, rfl, hlen, hbytes⟩
    have hfits := Layout.fits_ofInstructions hlen
    obtain ⟨hspelled, htargets, hzero⟩ :=
      (emitted_iff_spelled hfits (offsets_le_of_fits hfits)).mp ⟨hlegible, hbytes⟩
    have hdecode := decode_eq_ok_iff.mpr ⟨rfl, hspelled, htargets⟩
    exact ⟨hdecode, length_of_decode hdecode ▸ hlen, hzero⟩
  · rintro ⟨h, hlen, hzero⟩
    rw [← length_of_decode h] at hlen
    obtain ⟨rfl, hspelled, htargets⟩ := decode_eq_ok_iff.mp h
    have hfits := Layout.fits_ofInstructions hlen
    obtain ⟨hlegible, hbytes⟩ := (emitted_iff_spelled hfits (offsets_le_of_fits hfits)).mpr
      ⟨hspelled, htargets, hzero⟩
    exact ⟨hlegible, rfl, hlen, hbytes⟩

/-- The padding in a code array that is read stands at the offsets of its instructions. -/
theorem zeroPaddedFrom_of_decode [Build] (h : decode pool bytes = .ok ⟨list, layout⟩)
    (hzero : ZeroPadded pool bytes) : ZeroPaddedFrom 0 list bytes := by
  have hlayout := (decode_eq_ok_iff.mp h).1
  refine zeroPaddedFrom_of_forall fun p i o hi ho => ?_
  rw [← Layout.offset?_ofInstructions, ← hlayout] at ho
  exact hzero h hi ho

instance (offset : Nat) (i : Instruction) (bytes : Bytes) :
    Decidable (i.ZeroPadded offset bytes) :=
  inferInstanceAs (Decidable (_ → _))

/-- The padding in a code array that is read is that of the instructions read. -/
theorem zeroPadded_iff [Build] (h : decode pool bytes = .ok ⟨list, layout⟩) :
    ZeroPadded pool bytes ↔
      ∀ x ∈ list.zip layout.starts.toList, x.1.ZeroPadded x.2 (bytes.drop x.2) := by
  have hstart : ∀ p, layout.starts.toList[p]? = layout.offset? p := fun _ => Array.getElem?_toList
  constructor
  · rintro hzero ⟨i, offset⟩ hx
    obtain ⟨p, hp⟩ := List.mem_iff_getElem?.mp hx
    rw [List.getElem?_zip_eq_some, hstart] at hp
    exact hzero h hp.1 hp.2
  · intro hall list' layout' p offset i h' hi hoffset
    obtain ⟨rfl, rfl⟩ := Decoded.mk.inj (Except.ok.inj (h.symm.trans h'))
    refine hall (i, offset) (List.mem_iff_getElem?.mpr ⟨p, ?_⟩)
    rw [List.getElem?_zip_eq_some, hstart]
    exact ⟨hi, hoffset⟩

end ClassGraft
