/-
Counts of slots and what sixteen bits hold of them.

`MethodDescriptor.slotCount` is how many slots the arguments of a call take, as a number of any
size.  The program holds it up to 65535 in any build; beyond, a build that checks its sums stops
and any other is left with the remainder (`MethodDescriptor.callSlots_eq_ok_iff`,
`MethodDescriptor.callSlots_eq_error_iff`).  The order of the additions does not matter
(`MethodDescriptor.callSlots_eq`).
-/
import ClassGraft.ClassFile.Basic
import ClassGraft.Proofs.Descriptors

namespace ClassGraft

/-- How many slots the arguments of a call take, with the receiver if there is one. -/
def MethodDescriptor.slotCount (d : MethodDescriptor) (hasReceiver : Bool) : Nat :=
  (d.params.map FieldType.slots).sum + hasReceiver.toNat

/-- The descriptor of a method that takes a number of `int`s and a number of `long`s. -/
def longsDescriptor (ints longs : Nat) : MethodDescriptor :=
  ⟨List.replicate ints .int ++ List.replicate longs .long, none⟩

theorem parse_longsDescriptor (ints longs : Nat) :
    MethodDescriptor.parse (longsDescriptor ints longs).text =
      .ok (longsDescriptor ints longs) := by
  refine MethodDescriptor.parse_eq_ok_iff.mpr
    ⟨⟨fun t ht => ?_, fun _ h => absurd h (by simp [longsDescriptor])⟩, String.toList_ofList⟩
  rcases List.mem_append.mp ht with ht | ht
  · rw [List.eq_of_mem_replicate ht]
    trivial
  · rw [List.eq_of_mem_replicate ht]
    trivial

theorem slotCount_longsDescriptor (ints longs : Nat) :
    (longsDescriptor ints longs).slotCount true = ints + 2 * longs + 1 := by
  have hint : FieldType.int.slots = 1 := rfl
  have hlong : FieldType.long.slots = 2 := rfl
  simp only [MethodDescriptor.slotCount, longsDescriptor, List.map_append, List.map_replicate,
    List.sum_append, List.sum_replicate, hint, hlong, Bool.toNat_true, smul_eq_mul]
  omega

theorem chars_longsDescriptor (ints longs : Nat) : (longsDescriptor ints longs).chars =
    '(' :: (List.replicate ints 'I' ++ (List.replicate longs 'J' ++ [')', 'V'])) := by
  have hint : FieldType.int.chars = ['I'] := rfl
  have hlong : FieldType.long.chars = ['J'] := rfl
  simp [MethodDescriptor.chars, longsDescriptor, List.flatMap_replicate, hint, hlong,
    MethodDescriptor.resultChars]

/-- The bytes of the descriptor. -/
def longsBytes (ints longs : Nat) : Bytes :=
  40 :: (List.replicate ints 73 ++ (List.replicate longs 74 ++ [41, 86]))

theorem decode_longsBytes (ints longs : Nat) :
    ModifiedUtf8.decode (longsBytes ints longs) = .ok (longsDescriptor ints longs).text := by
  have hplain : ModifiedUtf8.isPlain (longsBytes ints longs) := by
    simp [ModifiedUtf8.isPlain, longsBytes]
  have hchars : (longsBytes ints longs).map (fun b => Char.ofNat b.toNat) =
      (longsDescriptor ints longs).chars := by
    simp only [chars_longsDescriptor, longsBytes, List.map_cons, List.map_append,
      List.map_replicate, List.map_nil]
    rfl
  rw [ModifiedUtf8.decode, if_pos hplain, ModifiedUtf8.decodePlain, hchars]
  rfl

variable [Build]

namespace Slots

variable {sum held : Nat} {fault : Fault}

theorem hold_of_lt (h : sum < 65536) : hold sum = .ok sum := if_pos h

theorem hold_eq_ok_iff :
    hold sum = .ok held ↔ held = sum % 65536 ∧ (Build.checksSums → sum < 65536) := by
  by_cases hlt : sum < 65536
  · rw [hold_of_lt hlt, Except.ok.injEq, Nat.mod_eq_of_lt hlt, eq_comm]
    exact (and_iff_left fun _ => hlt).symm
  · rw [hold, if_neg hlt]
    cases Build.checksSums <;> simp [hlt, eq_comm]

theorem hold_eq_error_iff :
    hold sum = .error fault ↔ fault = .overflow ∧ Build.checksSums ∧ 65536 ≤ sum := by
  by_cases hlt : sum < 65536
  · simp [hold_of_lt hlt, hlt]
  · rw [hold, if_neg hlt]
    cases Build.checksSums <;> simp [Nat.not_lt.mp hlt, eq_comm]

theorem lt_of_hold (h : hold sum = .ok held) : held < 65536 := by
  rw [(hold_eq_ok_iff.mp h).1]
  exact Nat.mod_lt _ (by decide)

/-- A sum that is held on the way is as good as one that is held at the end. -/
theorem hold_bind_hold (sum more : Nat) :
    (do let held ← hold sum; hold (held + more)) = hold (sum + more) := by
  cases h : hold sum with
  | error fault =>
    obtain ⟨rfl, hchecks, hle⟩ := hold_eq_error_iff.mp h
    exact (hold_eq_error_iff.mpr ⟨rfl, hchecks, Nat.le_add_right_of_le hle⟩).symm
  | ok held =>
    obtain ⟨rfl, hfits⟩ := hold_eq_ok_iff.mp h
    show hold (sum % 65536 + more) = hold (sum + more)
    by_cases hlt : sum < 65536
    · rw [Nat.mod_eq_of_lt hlt]
    · have hdrops (n : Nat) : hold n = .ok (n % 65536) :=
        hold_eq_ok_iff.mpr ⟨rfl, fun hchecks => absurd (hfits hchecks) hlt⟩
      rw [hdrops, hdrops, Nat.mod_add_mod]

end Slots

namespace MethodDescriptor

/-- The slots of parameters, counted on from those that are held already. -/
theorem foldlM_hold (params : List FieldType) {held : Nat} (h : held < 65536) :
    params.foldlM (fun slots t => Slots.hold (slots + t.slots)) held =
      Slots.hold (held + (params.map FieldType.slots).sum) := by
  induction params generalizing held with
  | nil => exact (Slots.hold_of_lt h).symm
  | cons t params ih =>
    rw [List.foldlM_cons, List.map_cons, List.sum_cons, ← Nat.add_assoc,
      ← Slots.hold_bind_hold (held + t.slots)]
    cases hheld : Slots.hold (held + t.slots) with
    | error fault => rfl
    | ok held => exact ih (Slots.lt_of_hold hheld)

theorem callSlots_eq (d : MethodDescriptor) (hasReceiver : Bool) :
    d.callSlots hasReceiver = Slots.hold (d.slotCount hasReceiver) := by
  rw [callSlots, argSlots, foldlM_hold d.params (by decide), Nat.zero_add]
  cases hasReceiver with
  | true => exact Slots.hold_bind_hold _ 1
  | false => exact bind_pure _

variable {d : MethodDescriptor} {hasReceiver : Bool} {held : Nat} {fault : Fault}

theorem callSlots_eq_ok_iff : d.callSlots hasReceiver = .ok held ↔
    held = d.slotCount hasReceiver % 65536 ∧
      (Build.checksSums → d.slotCount hasReceiver < 65536) := by
  rw [callSlots_eq, Slots.hold_eq_ok_iff]

theorem callSlots_eq_error_iff : d.callSlots hasReceiver = .error fault ↔
    fault = .overflow ∧ Build.checksSums ∧ 65536 ≤ d.slotCount hasReceiver := by
  rw [callSlots_eq, Slots.hold_eq_error_iff]

/-- What is held of the slots of a call is as many as there are, up to 65535. -/
theorem slotCount_le_iff {n : Nat} (h : d.callSlots hasReceiver = .ok held) (hle : held ≤ n)
    (hn : n ≤ 65535) : d.slotCount hasReceiver ≤ n ↔ d.slotCount hasReceiver ≤ 65535 := by
  obtain ⟨rfl, -⟩ := callSlots_eq_ok_iff.mp h
  constructor
  · exact fun hcount => Nat.le_trans hcount hn
  · intro hcount
    rwa [Nat.mod_eq_of_lt (Nat.lt_succ_of_le hcount)] at hle

end MethodDescriptor

namespace Method

variable {method : Method} {slots : Nat}

theorem parameterSlots_eq_ok_iff {d : MethodDescriptor}
    (hd : MethodDescriptor.parse method.descriptor = .ok d) :
    method.parameterSlots = .ok slots ↔ d.callSlots (!method.isStatic) = .ok slots := by
  rw [parameterSlots, hd]
  rfl

theorem parameterSlots_le (h : method.parameterSlots = .ok slots) : slots ≤ 65535 := by
  obtain ⟨d, -, hslots⟩ := Bytes.bind_eq_ok_iff.mp h
  obtain ⟨rfl, -⟩ := MethodDescriptor.callSlots_eq_ok_iff.mp hslots
  exact Nat.le_of_lt_succ (Nat.mod_lt _ (by decide))

end Method

end ClassGraft
