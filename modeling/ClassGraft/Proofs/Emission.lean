/-
Instructions at their places.

The layout of instructions is made up of running sums of their sizes (`Layout.sums_ofInstructions`),
and an instruction at its offset takes as many bytes as its size says
(`Instruction.length_encodeAt`).  So what is written instruction by instruction stands where the
layout has it (`Emitted.encodeAt_extract`), and a displacement leads from the instruction to its
target (`Instruction.placed_of_encodeAt`).

An instruction can be written if its targets are there, if a displacement of two bytes fits, if the
arguments of a call through an interface can be counted in one byte, and if the last key of a table
switch fits four (`Instruction.exists_encodeAt_iff`).  Instructions can be written if each of them
can and the code is not too long (`encode_places`).

The build decides what is counted: a call whose slots go beyond sixteen bits stops a build that
checks its sums, and any other counts the remainder (`encode_wideCall`).
-/
import ClassGraft.Proofs.CodeRoundTrip
import ClassGraft.Proofs.Failing

namespace ClassGraft

/-! ### Running sums -/

namespace Layout

/-- Whether the offsets of a layout are the running sums of the sizes of instructions. -/
structure Sums (layout : Layout) (list : List Instruction) : Prop where
  count : layout.count = list.length
  first : layout.offset? 0 = some 0
  next : ∀ p i, list[p]? = some i → ∃ start, layout.offset? p = some start ∧
    layout.offset? (p + 1) = some (start + i.size start)
  last : layout.offset? list.length = some layout.length

theorem getElem?_offsetsFrom_zero (offset : Nat) (list : List Instruction) :
    (offsetsFrom offset list)[0]? = some offset := by
  cases list with
  | nil => rfl
  | cons i rest => rfl

theorem getElem?_offsetsFrom_succ {offset p : Nat} {list : List Instruction} {i : Instruction}
    (hi : list[p]? = some i) : ∃ start, (offsetsFrom offset list)[p]? = some start ∧
      (offsetsFrom offset list)[p + 1]? = some (start + i.size start) := by
  induction list generalizing offset p with
  | nil => exact absurd hi (by simp)
  | cons j rest ih =>
    cases p with
    | zero =>
      obtain rfl := Option.some.inj hi
      exact ⟨offset, rfl, getElem?_offsetsFrom_zero _ rest⟩
    | succ p => exact ih hi

theorem sums_ofInstructions (list : List Instruction) : (ofInstructions list).Sums list where
  count := count_ofInstructions list
  first := by rw [offset?_ofInstructions, getElem?_offsetsFrom_zero]
  next := by
    intro p i hi
    rw [offset?_ofInstructions, offset?_ofInstructions]
    exact getElem?_offsetsFrom_succ hi
  last := offset?_end list

/-- Whether the instruction at a position lies `delta` bytes behind an offset. -/
def Displaces (layout : Layout) (offset position : Nat) (delta : Int) : Prop :=
  ∃ o, layout.offset? position = some o ∧ (offset : Int) + delta = o

variable {layout : Layout} {offset position : Nat} {delta : Int}

theorem displaces_of_absolute (hp : position < layout.count)
    (h : Decoded.absolute offset delta = .ok (layout.offsetOf position)) :
    layout.Displaces offset position delta :=
  ⟨_, offset?_eq_offsetOf hp, (Decoded.absolute_eq_ok_iff.mp h).symm⟩

end Layout

/-! ### One instruction -/

/-- Whether an opcode is that of `goto_w` or `jsr_w`. -/
def Opcode.isWideJump (op : Opcode) : Prop := op = 0xC8 ∨ op = 0xC9

instance (op : Opcode) : Decidable op.isWideJump := inferInstanceAs (Decidable (_ ∨ _))

theorem Opcode.isFarBranch_iff_isWideJump {op : Opcode} : op.isFarBranch ↔ op.isWideJump := by
  constructor
  · intro h
    rw [Decoded.isFarBranch_iff, form?_eq_map] at h
    obtain ⟨info, hinfo, hform⟩ := Option.map_eq_some_iff.mp h
    have hwide := forall_info? (P := fun n info => info.operands = .branch32 →
      n = 200 ∨ n = 201) (by decide +kernel) hinfo hform
    rw [isWideJump, ← UInt8.toNat_inj, ← UInt8.toNat_inj]
    exact hwide
  · rintro (rfl | rfl)
    all_goals cbv

namespace MethodDescriptor

/-- Whether the arguments of a call through an interface, with the receiver, are so few that one
byte can count them. -/
def FitsByte (d : MethodDescriptor) : Prop := d.slotCount false ≤ 254

/-- Whether the program counts them in one byte. -/
def CountsInByte [Build] (d : MethodDescriptor) : Prop :=
  ∃ slots, d.callSlots true = .ok slots ∧ slots ≤ 255

theorem countsInByte_iff [Build] {d : MethodDescriptor} : d.CountsInByte ↔
    d.slotCount true % 65536 ≤ 255 ∧ (Build.checksSums → d.slotCount true < 65536) := by
  simp only [CountsInByte, callSlots_eq_ok_iff]
  constructor
  · rintro ⟨_, ⟨rfl, hchecks⟩, hle⟩
    exact ⟨hle, hchecks⟩
  · rintro ⟨hle, hchecks⟩
    exact ⟨_, ⟨rfl, hchecks⟩, hle⟩

/-- One byte can count the arguments if it does, unless some that do not fit have been dropped. -/
theorem fitsByte_iff [Build] {d : MethodDescriptor} :
    d.FitsByte ↔ d.CountsInByte ∧ d.slotCount true < 65536 := by
  have hreceiver : d.slotCount true = d.slotCount false + 1 := rfl
  rw [FitsByte, countsInByte_iff]
  constructor
  · intro hle
    rw [Nat.mod_eq_of_lt (by omega)]
    exact ⟨⟨by omega, fun _ => by omega⟩, by omega⟩
  · rintro ⟨⟨hle, -⟩, hlt⟩
    rw [Nat.mod_eq_of_lt hlt] at hle
    omega

end MethodDescriptor

open MethodDescriptor (FitsByte CountsInByte)

namespace Instruction

/-- Whether an instruction can be written at an offset of a layout, if the descriptors whose
arguments can be counted in one byte are these. -/
structure Encodable (counts : MethodDescriptor → Prop) (layout : Layout) (offset : Nat)
    (i : Instruction) : Prop where
  target_lt : ∀ t ∈ i.targets, t < layout.count
  near : ∀ op t, i = .jump op t → ¬op.isWideJump → ∀ o, layout.offset? t = some o →
    -32768 ≤ (o : Int) - offset ∧ (o : Int) - offset ≤ 32767
  arguments : ∀ m, i = .invoke m .interface →
    ∃ d, MethodDescriptor.parse m.descriptor = .ok d ∧ counts d
  high : ∀ default low targets, i = .tableSwitch default low targets →
    -2147483648 ≤ low.toInt + targets.length - 1 ∧ low.toInt + targets.length - 1 ≤ 2147483647

/-- How an instruction at an offset refers to its targets in its bytes: every displacement leads
from the instruction to the target, and the operands of a switch begin at a multiple of four. -/
inductive Placed (layout : Layout) (offset : Nat) : Instruction → Bytes → Prop
  | plain {i : Instruction} (h : i.isPlain) (bytes : Bytes) : Placed layout offset i bytes
  | near {op : Opcode} {t : Nat} {v : Int16} (hop : ¬op.isWideJump)
      (ht : layout.Displaces offset t v.toInt) :
      Placed layout offset (.jump op t) (op :: Bytes.ofI16 v)
  | far {op : Opcode} {t : Nat} {v : Int32} (hop : op.isWideJump)
      (ht : layout.Displaces offset t v.toInt) :
      Placed layout offset (.jump op t) (op :: Bytes.ofI32 v)
  | tableSwitch {pad : Nat} {v low high : Int32} {t : Nat} {ts : List Nat} {items : Bytes}
      (hpad : pad ≤ 3) (haligned : (offset + 1 + pad) % 4 = 0)
      (ht : layout.Displaces offset t v.toInt) (hhigh : high.toInt = low.toInt + ts.length - 1)
      (hts : Bytes.Many (fun t b => ∃ v : Int32, layout.Displaces offset t v.toInt ∧
        b = Bytes.ofI32 v) ts items) :
      Placed layout offset (.tableSwitch t low ts)
        (Opcode.tableswitch :: (List.replicate pad 0 ++ (Bytes.ofI32 v ++
          (Bytes.ofI32 low ++ (Bytes.ofI32 high ++ items)))))
  | lookupSwitch {pad : Nat} {v : Int32} {t : Nat} {ps : List (Int32 × Nat)} {items : Bytes}
      (hpad : pad ≤ 3) (haligned : (offset + 1 + pad) % 4 = 0)
      (ht : layout.Displaces offset t v.toInt)
      (hps : Bytes.Many (fun p b => ∃ v : Int32, layout.Displaces offset p.2 v.toInt ∧
        b = Bytes.ofI32 p.1 ++ Bytes.ofI32 v) ps items) :
      Placed layout offset (.lookupSwitch t ps)
        (Opcode.lookupswitch :: (List.replicate pad 0 ++ (Bytes.ofI32 v ++
          (BigEndian.encode 4 ps.length ++ items))))

end Instruction

section Site

variable {layout : Layout} {site : Site} {t : Nat} {b : Bytes}

theorem exists_displacement_iff :
    (∃ delta, site.displacement layout t = .ok delta) ↔ t < layout.count := by
  simp only [Decoded.displacement_eq_ok_iff]
  constructor
  · rintro ⟨-, ht, -⟩
    exact ht
  · intro ht
    exact ⟨layout.offsetOf t - site.offset, ht, by omega⟩

theorem exists_near_iff : (∃ b, site.near layout t = .ok b) ↔ t < layout.count ∧
    ∀ o, layout.offset? t = some o →
      -32768 ≤ (o : Int) - site.offset ∧ (o : Int) - site.offset ≤ 32767 := by
  simp only [Site.near, Bytes.bind_eq_ok_iff, Bytes.ite_throw_eq_ok_iff,
    Decoded.displacement_eq_ok_iff]
  constructor
  · rintro ⟨-, delta, ⟨ht, hdelta⟩, hbounds, -⟩
    refine ⟨ht, fun o ho => ?_⟩
    obtain rfl := Option.some.inj (ho.symm.trans (Layout.offset?_eq_offsetOf ht))
    omega
  · rintro ⟨ht, hbounds⟩
    have hbounds := hbounds _ (Layout.offset?_eq_offsetOf ht)
    exact ⟨_, layout.offsetOf t - site.offset, ⟨ht, by omega⟩, hbounds, rfl⟩

theorem exists_far_iff : (∃ b, site.far layout t = .ok b) ↔ t < layout.count := by
  rw [← exists_displacement_iff, Site.far]
  exact Bytes.exists_bind_pure_iff

theorem length_near (h : site.near layout t = .ok b) : b.length = 2 := by
  obtain ⟨delta, -, h⟩ := Bytes.bind_eq_ok_iff.mp h
  obtain ⟨-, h⟩ := Bytes.ite_throw_eq_ok_iff.mp h
  rw [← Except.ok.inj h]
  rfl

theorem length_far (h : site.far layout t = .ok b) : b.length = 4 := by
  obtain ⟨delta, -, rfl⟩ := Bytes.bind_pure_eq_ok_iff.mp h
  rfl

end Site

namespace Instruction

open Decoded

variable {layout : Layout} {site : Site} {i : Instruction} {b : Bytes}

/-- An instruction takes as many bytes as its size says, wherever its targets are. -/
theorem length_encodeAt [Build] (h : i.encodeAt layout site = .ok b) :
    b.length = i.size site.offset := by
  cases i with
  | jump op t =>
    obtain ⟨tail, htail, rfl⟩ := encodeAt_jump_eq_ok_iff.mp h
    rw [size, List.length_cons]
    by_cases hop : op.isFarBranch
    · rw [if_pos hop] at htail ⊢
      rw [length_far htail]
    · rw [if_neg hop] at htail ⊢
      rw [length_near htail]
  | tableSwitch t low ts =>
    obtain ⟨otherwise, items, ht, -, hts, rfl⟩ := encodeAt_tableSwitch_eq_ok_iff.mp h
    have hitems : items.length = 4 * ts.length := length_of_many (fun _ _ => length_far) hts
    simp only [List.length_cons, List.length_append, length_paddingBytes, length_ofI32,
      length_far ht, hitems, size]
    omega
  | lookupSwitch t ps =>
    obtain ⟨otherwise, items, ht, hps, rfl⟩ := encodeAt_lookupSwitch_eq_ok_iff.mp h
    have hitems : items.length = 8 * ps.length := by
      refine length_of_many (fun p b hp => ?_) hps
      obtain ⟨d, hd, rfl⟩ := hp
      rw [List.length_append, length_ofI32, length_far hd]
    simp only [List.length_cons, List.length_append, length_paddingBytes, BigEndian.length_encode,
      length_far ht, hitems, size]
    omega
  | _ => exact length_encodeAt_of_isPlain rfl h site.offset

theorem exists_interfaceTail_iff [Build] {descriptor : String} :
    (∃ tail, interfaceTail descriptor = .ok tail) ↔
      ∃ d, MethodDescriptor.parse descriptor = .ok d ∧ d.CountsInByte := by
  simp only [interfaceTail, Bytes.bind_eq_ok_iff, Bytes.ite_throw_eq_ok_iff]
  constructor
  · rintro ⟨-, d, hd, slots, hslots, hle, -⟩
    exact ⟨d, hd, slots, hslots, hle⟩
  · rintro ⟨d, hd, slots, hslots, hle⟩
    exact ⟨_, d, hd, slots, hslots, hle, rfl⟩

section Encodable

variable {counts : MethodDescriptor → Prop} {offset : Nat}

/-- An instruction without targets that is no call can be written everywhere. -/
theorem encodable_of_isPlain (h : i.isPlain) (hcall : ∀ m, i ≠ .invoke m .interface) :
    i.Encodable counts layout offset where
  target_lt := by simp [targets_of_isPlain h]
  near := by
    rintro op t rfl
    exact absurd h Bool.false_ne_true
  arguments := fun m hm => absurd hm (hcall m)
  high := by
    rintro default low targets rfl
    exact absurd h Bool.false_ne_true

theorem encodable_jump_iff {op : Opcode} {t : Nat} :
    (jump op t).Encodable counts layout offset ↔ t < layout.count ∧
      (¬op.isWideJump → ∀ o, layout.offset? t = some o →
        -32768 ≤ (o : Int) - offset ∧ (o : Int) - offset ≤ 32767) := by
  constructor
  · intro h
    exact ⟨h.target_lt t List.mem_cons_self, h.near op t rfl⟩
  · rintro ⟨ht, hnear⟩
    refine ⟨by simpa [targets] using ht, ?_, by simp, by simp⟩
    rintro _ _ ⟨⟩
    exact hnear

theorem encodable_interface_iff {m : MemberRef} :
    (invoke m .interface).Encodable counts layout offset ↔
      ∃ d, MethodDescriptor.parse m.descriptor = .ok d ∧ counts d := by
  constructor
  · intro h
    exact h.arguments m rfl
  · intro hd
    refine ⟨by simp [targets], by simp, ?_, by simp⟩
    rintro _ ⟨⟩
    exact hd

theorem encodable_tableSwitch_iff {t : Nat} {low : Int32} {ts : List Nat} :
    (tableSwitch t low ts).Encodable counts layout offset ↔
      (t < layout.count ∧ ∀ q ∈ ts, q < layout.count) ∧
        -2147483648 ≤ low.toInt + ts.length - 1 ∧ low.toInt + ts.length - 1 ≤ 2147483647 := by
  constructor
  · intro h
    exact ⟨List.forall_mem_cons.mp h.target_lt, h.high t low ts rfl⟩
  · rintro ⟨htargets, hhigh⟩
    refine ⟨List.forall_mem_cons.mpr htargets, by simp, by simp, ?_⟩
    rintro _ _ _ ⟨⟩
    exact hhigh

theorem encodable_lookupSwitch_iff {t : Nat} {ps : List (Int32 × Nat)} :
    (lookupSwitch t ps).Encodable counts layout offset ↔
      t < layout.count ∧ ∀ q ∈ ps, q.2 < layout.count := by
  constructor
  · intro h
    obtain ⟨ht, hps⟩ := List.forall_mem_cons.mp h.target_lt
    exact ⟨ht, List.forall_mem_map.mp hps⟩
  · rintro ⟨ht, hps⟩
    refine ⟨List.forall_mem_cons.mpr ⟨ht, List.forall_mem_map.mpr hps⟩, ?_, ?_, ?_⟩
    all_goals simp

/-- One byte can count the arguments of a call if it does, unless they are too many for sixteen
bits. -/
theorem encodable_fitsByte_iff [Build] : i.Encodable FitsByte layout offset ↔
    i.Encodable CountsInByte layout offset ∧ ¬i.Overcounts := by
  constructor
  · rintro ⟨htargets, hnear, harguments, hhigh⟩
    refine ⟨⟨htargets, hnear, fun m hm => ?_, hhigh⟩, ?_⟩
    · obtain ⟨d, hd, hfits⟩ := harguments m hm
      exact ⟨d, hd, (MethodDescriptor.fitsByte_iff.mp hfits).1⟩
    · rintro ⟨m, d, hm, hd, hmany⟩
      obtain ⟨d', hd', hfits⟩ := harguments m hm
      obtain rfl := Except.ok.inj (hd.symm.trans hd')
      exact absurd (MethodDescriptor.fitsByte_iff.mp hfits).2 (Nat.not_lt.mpr hmany)
  · rintro ⟨⟨htargets, hnear, harguments, hhigh⟩, hfew⟩
    refine ⟨htargets, hnear, fun m hm => ?_, hhigh⟩
    obtain ⟨d, hd, hcounts⟩ := harguments m hm
    refine ⟨d, hd, MethodDescriptor.fitsByte_iff.mpr ⟨hcounts, Nat.lt_of_not_le fun hmany => ?_⟩⟩
    exact hfew ⟨m, d, hm, hd, hmany⟩

end Encodable

/-- An instruction is written exactly if nothing stands against it. -/
theorem exists_encodeAt_iff [Build] :
    (∃ b, i.encodeAt layout site = .ok b) ↔ i.Encodable CountsInByte layout site.offset := by
  cases i with
  | jump op t =>
    rw [encodable_jump_iff, ← Opcode.isFarBranch_iff_isWideJump, encodeAt]
    by_cases hop : op.isFarBranch
    · rw [if_pos hop, Bytes.exists_bind_pure_iff, exists_far_iff]
      exact (and_iff_left (absurd hop)).symm
    · rw [if_neg hop, Bytes.exists_bind_pure_iff, exists_near_iff]
      exact and_congr_right fun _ => ⟨fun h _ => h, fun h => h hop⟩
  | invoke m dispatch =>
    cases dispatch with
    | interface =>
      rw [encodable_interface_iff, ← exists_interfaceTail_iff]
      exact Bytes.exists_bind_pure_iff
    | _ => exact iff_of_true ⟨_, rfl⟩ (encodable_of_isPlain rfl (by simp))
  | tableSwitch t low ts =>
    rw [encodable_tableSwitch_iff]
    simp only [encodeAt_tableSwitch_eq_ok_iff]
    constructor
    · rintro ⟨-, otherwise, items, ht, hhigh, hts, -⟩
      have hcases := Bytes.exists_many_iff.mp ⟨items, hts⟩
      exact ⟨⟨exists_far_iff.mp ⟨_, ht⟩, fun q hq => exists_far_iff.mp (hcases q hq)⟩, hhigh⟩
    · rintro ⟨⟨ht, hts⟩, hhigh⟩
      obtain ⟨otherwise, ht⟩ := exists_far_iff.mpr ht
      obtain ⟨items, hitems⟩ := Bytes.exists_many_iff.mpr fun q hq => exists_far_iff.mpr (hts q hq)
      exact ⟨_, otherwise, items, ht, hhigh, hitems, rfl⟩
  | lookupSwitch t ps =>
    rw [encodable_lookupSwitch_iff]
    simp only [encodeAt_lookupSwitch_eq_ok_iff]
    constructor
    · rintro ⟨-, otherwise, items, ht, hps, -⟩
      refine ⟨exists_far_iff.mp ⟨_, ht⟩, fun q hq => ?_⟩
      obtain ⟨b, d, hd, -⟩ := Bytes.exists_many_iff.mp ⟨items, hps⟩ q hq
      exact exists_far_iff.mp ⟨d, hd⟩
    · rintro ⟨ht, hps⟩
      obtain ⟨otherwise, ht⟩ := exists_far_iff.mpr ht
      have hpairs : ∀ q ∈ ps, ∃ b, ∃ d : Bytes, site.far layout q.2 = .ok d ∧
          b = Bytes.ofI32 q.1 ++ d := by
        intro q hq
        obtain ⟨d, hd⟩ := exists_far_iff.mpr (hps q hq)
        exact ⟨_, d, hd, rfl⟩
      obtain ⟨items, hitems⟩ := Bytes.exists_many_iff.mpr hpairs
      exact ⟨_, otherwise, items, ht, hitems, rfl⟩
  | _ => exact iff_of_true ⟨_, rfl⟩ (encodable_of_isPlain rfl (by simp))

section Placed

variable (hfits : layout.Fits) (hsite : site.offset ≤ 65535)

include hfits hsite

theorem displaces_of_far {t : Nat} (h : site.far layout t = .ok b) :
    ∃ v : Int32, layout.Displaces site.offset t v.toInt ∧ b = Bytes.ofI32 v := by
  obtain ⟨ht, v, hv, rfl⟩ := (far_eq_ok_iff hfits hsite).mp h
  exact ⟨v, Layout.displaces_of_absolute ht hv, rfl⟩

/-- The displacements that are written lead to the targets. -/
theorem placed_of_encodeAt [Build] (h : i.encodeAt layout site = .ok b) :
    i.Placed layout site.offset b := by
  have hpad : switchPadding site.offset ≤ 3 := Nat.le_of_lt_succ (switchPadding_lt site.offset)
  have haligned := switchPadding_aligned site.offset
  cases i with
  | jump op t =>
    obtain ⟨tail, htail, rfl⟩ := encodeAt_jump_eq_ok_iff.mp h
    by_cases hop : op.isFarBranch
    · rw [if_pos hop] at htail
      obtain ⟨v, hv, rfl⟩ := displaces_of_far hfits hsite htail
      exact .far (Opcode.isFarBranch_iff_isWideJump.mp hop) hv
    · rw [if_neg hop] at htail
      obtain ⟨ht, v, hv, rfl⟩ := near_eq_ok_iff.mp htail
      exact .near (mt Opcode.isFarBranch_iff_isWideJump.mpr hop)
        (Layout.displaces_of_absolute ht hv)
  | tableSwitch t low ts =>
    obtain ⟨_, items, ht, hhigh, hts, rfl⟩ := encodeAt_tableSwitch_eq_ok_iff.mp h
    obtain ⟨v, hv, rfl⟩ := displaces_of_far hfits hsite ht
    refine .tableSwitch hpad haligned hv ?_ (hts.mono fun q _ d hd => ?_)
    · exact Int32.toInt_ofInt_of_le (by omega) (by omega)
    · exact displaces_of_far hfits hsite hd
  | lookupSwitch t ps =>
    obtain ⟨_, items, ht, hps, rfl⟩ := encodeAt_lookupSwitch_eq_ok_iff.mp h
    obtain ⟨v, hv, rfl⟩ := displaces_of_far hfits hsite ht
    refine .lookupSwitch hpad haligned hv (hps.mono ?_)
    rintro q - _ ⟨d, hd, rfl⟩
    obtain ⟨w, hw, rfl⟩ := displaces_of_far hfits hsite hd
    exact ⟨w, hw, rfl⟩
  | _ => exact .plain rfl b

end Placed

end Instruction

/-! ### All instructions -/

section Emitted

variable {method : String} {layout : Layout} {index offset : Nat} {list : List Instruction}
  {bytes : Bytes}

/-- Instructions can be written exactly if each of them can at its offset. -/
theorem exists_emitted_iff [Build] : (∃ bytes, Emitted method layout index offset list bytes) ↔
    ∀ (p : Nat) (i : Instruction) (start : Nat), list[p]? = some i →
      (Layout.offsetsFrom offset list)[p]? = some start →
        i.Encodable CountsInByte layout start := by
  induction list generalizing index offset with
  | nil => simp [Emitted]
  | cons i rest ih =>
    constructor
    · rintro ⟨_, a, b, ha, hb, -⟩ p j start hj hstart
      cases p with
      | zero =>
        obtain rfl := Option.some.inj hj
        obtain rfl := Option.some.inj hstart
        exact Instruction.exists_encodeAt_iff.mp ⟨a, ha⟩
      | succ p => exact ih.mp ⟨b, hb⟩ p j start hj hstart
    · intro h
      have hi : ∃ a, i.encodeAt layout ⟨method, index, offset⟩ = .ok a :=
        Instruction.exists_encodeAt_iff.mpr (h 0 i offset rfl rfl)
      obtain ⟨a, ha⟩ := hi
      obtain ⟨b, hb⟩ := ih.mpr fun p j start hj hstart => h (p + 1) j start hj hstart
      exact ⟨a ++ b, a, b, ha, hb, rfl⟩

/-- Writing stops at the first call whose arguments cannot be counted, if what stands before it can
be written. -/
theorem encodeFrom_eq_overflow_iff [Build] {done : List Bytes} :
    encodeFrom method layout index offset list done = .error .overflow ↔
      Build.checksSums ∧ ∃ before i after, list = before ++ i :: after ∧ i.Overcounts ∧
        ∃ b, Emitted method layout index offset before b := by
  induction list generalizing index offset done with
  | nil => simp [encodeFrom]
  | cons j rest ih =>
    rw [encodeFrom, Bytes.bind_eq_error_iff, Instruction.encodeAt_eq_overflow_iff]
    constructor
    · rintro (⟨hchecks, hover⟩ | ⟨a, ha, hrest⟩)
      · exact ⟨hchecks, [], j, rest, rfl, hover, [], rfl⟩
      · obtain ⟨hchecks, before, i, after, rfl, hover, b, hb⟩ := ih.mp hrest
        exact ⟨hchecks, j :: before, i, after, rfl, hover, a ++ b, a, b, ha, hb, rfl⟩
    · rintro ⟨hchecks, before, i, after, hlist, hover, b, hb⟩
      cases before with
      | nil =>
        obtain ⟨rfl, -⟩ := List.cons.inj hlist
        exact .inl ⟨hchecks, hover⟩
      | cons k before =>
        obtain ⟨rfl, rfl⟩ := List.cons.inj hlist
        obtain ⟨a, b, ha, hb, -⟩ := hb
        exact .inr ⟨a, ha, ih.mpr ⟨hchecks, before, i, after, rfl, hover, b, hb⟩⟩

/-- What is written of all instructions ends where the layout does. -/
theorem Emitted.getElem?_offsetsFrom [Build] (h : Emitted method layout index offset list bytes) :
    (Layout.offsetsFrom offset list)[list.length]? = some (offset + bytes.length) := by
  induction list generalizing index offset bytes with
  | nil =>
    obtain rfl : bytes = [] := h
    rfl
  | cons i rest ih =>
    obtain ⟨a, b, ha, hb, rfl⟩ := h
    have hlen := Instruction.length_encodeAt ha
    simp only at hlen
    rw [List.length_append, hlen, ← Nat.add_assoc]
    exact ih hb

/-- What is written of one instruction stands between its offset and the next. -/
theorem Emitted.encodeAt_extract [Build] (h : Emitted method layout index offset list bytes)
    {p : Nat} {i : Instruction} {start : Nat} (hi : list[p]? = some i)
    (hstart : (Layout.offsetsFrom offset list)[p]? = some start) :
    i.encodeAt layout ⟨method, index + p, start⟩ =
      .ok (bytes.extract (start - offset) (start - offset + i.size start)) := by
  -- Offsets count from the first instruction, and so do the places in the bytes.
  induction list generalizing index offset bytes p with
  | nil => exact absurd hi (by simp)
  | cons j rest ih =>
    obtain ⟨a, b, ha, hb, rfl⟩ := h
    have hlen := Instruction.length_encodeAt ha
    simp only at hlen
    cases p with
    | zero =>
      obtain rfl := Option.some.inj hi
      obtain rfl := Option.some.inj hstart
      rw [List.extract_eq_take_drop, Nat.sub_self, List.drop_zero, Nat.sub_zero, Nat.zero_add,
        ← hlen, List.take_left]
      exact ha
    | succ p =>
      have hstart : (Layout.offsetsFrom (offset + j.size offset) rest)[p]? = some start := hstart
      have hle := Layout.le_of_mem_offsetsFrom (List.mem_of_getElem? hstart)
      have hplace : start - offset = a.length + (start - (offset + j.size offset)) := by omega
      have hrest := ih hb hi hstart
      rw [List.extract_eq_take_drop, Nat.add_sub_cancel_left] at hrest ⊢
      rw [hplace, List.drop_length_add_append, Nat.add_comm p 1, ← Nat.add_assoc]
      exact hrest

end Emitted

namespace Instructions

/-- Whether instructions can be written as a code array, if the descriptors whose arguments can be
counted in one byte are these. -/
structure Encodable (counts : MethodDescriptor → Prop) (list : Instructions) : Prop where
  length_le : (Layout.ofInstructions list).length ≤ 65535
  instruction : ∀ p i start, list[p]? = some i →
    (Layout.ofInstructions list).offset? p = some start →
      i.Encodable counts (Layout.ofInstructions list) start

/-- Whether writing instructions comes to a call whose arguments go beyond sixteen bits: the code is
not too long, and what stands before the call can be written at its offset. -/
def Overcounts [Build] (list : Instructions) : Prop :=
  (Layout.ofInstructions list).length ≤ 65535 ∧
    ∃ before i after, list = before ++ i :: after ∧ i.Overcounts ∧
      ∀ p j start, before[p]? = some j → (Layout.ofInstructions before).offset? p = some start →
        j.Encodable CountsInByte (Layout.ofInstructions list) start

theorem encodable_fitsByte_iff [Build] {list : Instructions} : list.Encodable FitsByte ↔
    list.Encodable CountsInByte ∧ ∀ i ∈ list, ¬i.Overcounts := by
  constructor
  · intro h
    refine ⟨⟨h.length_le, fun p i start hi hstart => ?_⟩, fun i hi => ?_⟩
    · exact (Instruction.encodable_fitsByte_iff.mp (h.instruction p i start hi hstart)).1
    · obtain ⟨p, hp⟩ := List.mem_iff_getElem?.mp hi
      obtain ⟨start, hstart, -⟩ := (Layout.sums_ofInstructions list).next p i hp
      exact (Instruction.encodable_fitsByte_iff.mp (h.instruction p i start hp hstart)).2
  · rintro ⟨h, hfew⟩
    refine ⟨h.length_le, fun p i start hi hstart => ?_⟩
    exact Instruction.encodable_fitsByte_iff.mpr
      ⟨h.instruction p i start hi hstart, hfew i (List.mem_of_getElem? hi)⟩

end Instructions

theorem exists_encode_iff [Build] {method : String} {list : List Instruction} :
    (∃ encoded, encode method list = .ok encoded) ↔
      Instructions.Encodable CountsInByte list := by
  simp only [encode_eq_ok_iff]
  constructor
  · rintro ⟨encoded, -, hlen, hbytes⟩
    refine ⟨hlen, fun p i start hi hstart => ?_⟩
    rw [Layout.offset?_ofInstructions] at hstart
    exact exists_emitted_iff.mp ⟨_, hbytes⟩ p i start hi hstart
  · rintro ⟨hlen, hlist⟩
    simp only [Layout.offset?_ofInstructions] at hlist
    obtain ⟨bytes, hbytes⟩ := exists_emitted_iff.mpr hlist
    exact ⟨⟨bytes, Layout.ofInstructions list⟩, rfl, hlen, hbytes⟩

/-- The program is stopped exactly at a call whose arguments it cannot count. -/
theorem encode_eq_overflow_iff [Build] {method : String} {list : List Instruction} :
    encode method list = .error .overflow ↔ Build.checksSums ∧ Instructions.Overcounts list := by
  rw [encode]
  by_cases hlen : (Layout.ofInstructions list).length ≤ maxCodeLength
  · simp only [if_pos hlen, Bytes.bind_eq_error_iff, encodeFrom_eq_overflow_iff,
      exists_emitted_iff, Instructions.Overcounts, Layout.offset?_ofInstructions]
    constructor
    · rintro (⟨hchecks, hover⟩ | ⟨_, -, h⟩)
      · exact ⟨hchecks, hlen, hover⟩
      · cases h
    · rintro ⟨hchecks, -, hover⟩
      exact .inl ⟨hchecks, hover⟩
  · simp only [if_neg hlen]
    constructor
    · intro h
      cases h
    · rintro ⟨-, hle, -⟩
      exact absurd hle hlen

/-- Instructions are written exactly if the code is not too long and each of them can be written at
its offset, as far as the program counts, and there is a fault otherwise.  That is so exactly if one
byte can count the arguments of every call through an interface, as long as no call goes beyond
sixteen bits; at one that does a build that checks its sums is stopped.  What is written comes with
the layout of running sums, and between the offset of an instruction and the next stand the bytes of
that instruction, from which its displacements lead to its targets. -/
theorem encode_places [Build] (method : String) (list : Instructions) :
    ((∃ encoded, encode method list = .ok encoded) ↔ list.Encodable CountsInByte) ∧
    ((∃ fault, encode method list = .error fault) ↔ ¬list.Encodable CountsInByte) ∧
    (list.Encodable FitsByte ↔ list.Encodable CountsInByte ∧ ∀ i ∈ list, ¬i.Overcounts) ∧
    (encode method list = .error .overflow ↔ Build.checksSums ∧ list.Overcounts) ∧
    ∀ encoded, encode method list = .ok encoded →
      encoded.layout = Layout.ofInstructions list ∧ encoded.layout.Sums list ∧
      encoded.bytes.length = encoded.layout.length ∧
      ∀ p i, list[p]? = some i → ∃ start stop, encoded.layout.offset? p = some start ∧
        encoded.layout.offset? (p + 1) = some stop ∧
        i.encodeAt encoded.layout ⟨method, p, start⟩ = .ok (encoded.bytes.extract start stop) ∧
        i.Placed encoded.layout start (encoded.bytes.extract start stop) := by
  refine ⟨exists_encode_iff, ?_, Instructions.encodable_fitsByte_iff, encode_eq_overflow_iff, ?_⟩
  · have hiff : (∃ encoded, encode method list = .ok encoded) ↔ _ := exists_encode_iff
    rw [← hiff]
    rcases encode method list with fault | encoded
    · simp
    · simp
  · rintro ⟨bytes, layout⟩ h
    obtain ⟨hlayout, hlen, hbytes⟩ := encode_eq_ok_iff.mp h
    obtain rfl : layout = Layout.ofInstructions list := hlayout
    have hsums := Layout.sums_ofInstructions list
    refine ⟨rfl, hsums, ?_, fun p i hi => ?_⟩
    · have hend := hbytes.getElem?_offsetsFrom
      rw [← Layout.offset?_ofInstructions, hsums.last, Nat.zero_add] at hend
      exact (Option.some.inj hend).symm
    · obtain ⟨start, hstart, hstop⟩ := hsums.next p i hi
      have hfits := Layout.fits_ofInstructions hlen
      have hget := hstart
      rw [Layout.offset?_ofInstructions] at hget
      have hencode := hbytes.encodeAt_extract hi hget
      rw [Nat.sub_zero, Nat.zero_add] at hencode
      exact ⟨start, _, hstart, hstop, hencode,
        Instruction.placed_of_encodeAt hfits (hfits hstart) hencode⟩

attribute [local instance] Build.checked

/-- A branch in `mixedList` with its three bytes, and a list that is left by a branch. -/
theorem encode_places_mixedList :
    (Instructions.Encodable FitsByte mixedList ∧
      (Instruction.jump 153 3).Placed ⟨#[0, 4, 7, 12, 36, 42, 47, 64, 65]⟩ 4
        (mixedArray.extract 4 7)) ∧
    ¬Instructions.Encodable CountsInByte [.jump 167 1] ∧
      ∃ fault, encode "m" [.jump 167 1] = .error fault := by
  have hencode : encode "m" mixedList =
      .ok ⟨mixedArray, ⟨#[0, 4, 7, 12, 36, 42, 47, 64, 65]⟩⟩ := by
    decide +kernel
  have houtside : ¬Instructions.Encodable CountsInByte [.jump 167 1] := by
    intro h
    exact absurd ((h.instruction 0 _ 0 rfl rfl).target_lt 1 List.mem_cons_self) (by decide)
  obtain ⟨hiff, -, hfits, -, hplaces⟩ := encode_places "m" mixedList
  obtain ⟨-, -, -, hplaces⟩ := hplaces _ hencode
  obtain ⟨start, stop, hstart, hstop, -, hplaced⟩ := hplaces 1 (.jump 153 3) rfl
  obtain rfl : 4 = start := Option.some.inj hstart
  obtain rfl : 7 = stop := Option.some.inj hstop
  refine ⟨⟨hfits.mpr ⟨hiff.mp ⟨_, hencode⟩, ?_⟩, hplaced⟩, houtside,
    (encode_places "m" _).2.1.mpr houtside⟩
  -- The one call through an interface takes a `long`.
  rintro i hi ⟨m, d, rfl, hd, hmany⟩
  obtain rfl : m = ⟨6, "A", "m", "(J)V"⟩ := by simpa [mixedList] using hi
  have hparse : MethodDescriptor.parse "(J)V" = .ok ⟨[.long], none⟩ := by decide +kernel
  obtain rfl := Except.ok.inj (hparse.symm.trans hd)
  exact absurd hmany (by decide)

/-- A call with 65535 slots of arguments cannot be counted in one byte, but no fault says so: one
build is stopped by it, and another writes it with a count of zero. -/
theorem encode_wideCall :
    let call : Instruction := .invoke ⟨1, "A", "m", (longsDescriptor 1 32767).text⟩ .interface
    ¬Instructions.Encodable FitsByte [call] ∧
      @encode Build.checked "m" [call] = .error .overflow ∧
      ∃ encoded, @encode Build.wrapping "m" [call] = .ok encoded := by
  intro call
  have hover : call.Overcounts :=
    ⟨_, _, rfl, parse_longsDescriptor 1 32767, (slotCount_longsDescriptor 1 32767).ge⟩
  refine ⟨fun h => ?_, ?_, ?_⟩
  · exact (Instructions.encodable_fitsByte_iff.mp h).2 call List.mem_cons_self hover
  · refine encode_eq_overflow_iff.mpr ⟨rfl, by decide, [], call, [], rfl, hover, ?_⟩
    simp
  · let _ : Build := Build.wrapping
    refine exists_encode_iff.mpr ⟨by decide, fun p i start hi _ => ?_⟩
    obtain rfl : i = call := by simpa using List.mem_of_getElem? hi
    refine Instruction.encodable_interface_iff.mpr ⟨_, parse_longsDescriptor 1 32767, ?_⟩
    rw [MethodDescriptor.countsInByte_iff, slotCount_longsDescriptor]
    decide

end ClassGraft
