/-
The local that holds the captured result.

A splice takes the watermark of the body as the local for the captured result, if one more local can
be counted.  Below that limit no access ends behind the watermark
(`Code.endsWithin_of_localWatermark`), so no instruction uses the local, and with the handler call
put in every access ends with it or with the coordinates (`IsSplice.endsWithin`).  So it becomes the
last local of the patched body (`IsSplice.localWatermark_eq`, `Transformer.slot_fresh`).

It lies behind the receiver and the parameters exactly if sixteen bits can count them.  A build that
does not check its sums goes on with the remainder, and the local may then hold a parameter
(`Transformer.patch_manyLongs`).
-/
import ClassGraft.Proofs.ExactSplice
import ClassGraft.Proofs.Measuring

namespace ClassGraft

/-! ### Bodies whose accesses end within a number of slots -/

/-- Whether an access to a local, if the instruction is one, ends within `n` slots. -/
def Instruction.EndsWithin (i : Instruction) (n : Nat) : Prop :=
  ∀ index width, i.localAccess = some (index, width) → index.toNat + width ≤ n

theorem Instruction.endsWithin_mapTargets {f : Nat → Nat} {i : Instruction} {n : Nat} :
    (i.mapTargets f).EndsWithin n ↔ i.EndsWithin n := by
  rw [EndsWithin, EndsWithin, localAccess_mapTargets]

/-- An instruction touches no slot behind the one at which its access ends. -/
theorem Instruction.EndsWithin.lt {i : Instruction} {n slot : Nat} (h : i.EndsWithin n)
    (hslot : i.Touches slot) : slot < n := by
  obtain ⟨index, width, haccess, -, hlt⟩ := hslot
  obtain ⟨v, rfl, hv⟩ := haccess.exists_localAccess
  exact hlt.trans_le (h v width hv)

namespace Code

variable {code code' : Code} {slots n : Nat}

/-- A watermark below the limit of two bytes is behind every access. -/
theorem endsWithin_of_localWatermark (h : code.localWatermark slots < 65535) :
    ∀ i ∈ code.instructions, i.EndsWithin (code.localWatermark slots) :=
  fun _ hi _ _ haccess => end_le_of_localWatermark_lt h hi haccess

theorem endsWithin_insert {sequence : Instructions} {place : Nat}
    (h : ∀ i ∈ code.instructions, i.EndsWithin n) (hsequence : ∀ i ∈ sequence, i.EndsWithin n) :
    ∀ i ∈ (code.insert place sequence).instructions, i.EndsWithin n := by
  intro i hi
  rcases Instructions.mem_insert hi with hi | ⟨j, hj, rfl⟩
  · exact hsequence i hi
  · exact Instruction.endsWithin_mapTargets.mpr (h j hj)

theorem endsWithin_remove {method : String} {place : Nat} {removed : Instruction}
    (hremove : code.remove method place = .ok (removed, code'))
    (h : ∀ i ∈ code.instructions, i.EndsWithin n) : ∀ i ∈ code'.instructions, i.EndsWithin n := by
  obtain ⟨-, -, rfl⟩ := remove_eq_ok_iff.mp hremove
  refine List.forall_mem_map.mpr fun i hi => Instruction.endsWithin_mapTargets.mpr ?_
  exact h i (List.mem_of_mem_eraseIdx hi)

end Code

/-- The handler call loads the first four locals, and stores and loads the one for the result. -/
theorem HandlerMembers.endsWithin_call (m : HandlerMembers) (slot : UInt16) :
    ∀ i ∈ m.call slot .int, i.EndsWithin (max (slot.toNat + 1) 4) := by
  have hfirst : ∀ (index : UInt16) (kind : ValueKind), kind.width = 1 → index.toNat ≤ 3 →
      (Instruction.loadLocal index kind).EndsWithin (max (slot.toNat + 1) 4) := by
    rintro index kind hwidth hindex _ _ ⟨rfl, rfl⟩
    omega
  have hslot : ∀ i : Instruction, i.localAccess = some (slot, 1) →
      i.EndsWithin (max (slot.toNat + 1) 4) := by
    intro i hi index width haccess
    obtain ⟨rfl, rfl⟩ := Prod.mk.inj (Option.some.inj (haccess.symm.trans hi))
    exact le_max_left _ _
  have hnone : ∀ i : Instruction, i.localAccess = none →
      i.EndsWithin (max (slot.toNat + 1) 4) := by
    intro i hi index width haccess
    exact absurd (hi.symm.trans haccess) (by simp)
  intro i hi
  simp only [call, handlerCall, List.mem_cons, List.not_mem_nil, or_false] at hi
  rcases hi with rfl | rfl | rfl | rfl | rfl | rfl | rfl | rfl | rfl | rfl | rfl
  · exact hslot _ rfl
  · exact hnone _ rfl
  · exact hfirst 0 _ rfl (by decide)
  · exact hnone _ rfl
  · exact hfirst 0 _ rfl (by decide)
  · exact hnone _ rfl
  · exact hfirst 1 _ rfl (by decide)
  · exact hfirst 2 _ rfl (by decide)
  · exact hfirst 3 _ rfl (by decide)
  · exact hslot _ rfl
  · exact hnone _ rfl

/-- A receiver and three coordinates take four slots. -/
theorem MethodDescriptor.four_le_slotCount {d : MethodDescriptor}
    (h : (d.params.take 3).map FieldType.kind = [.int, .int, .int]) : 4 ≤ d.slotCount true := by
  obtain ⟨params, result⟩ := d
  rcases params with _ | ⟨x, _ | ⟨y, _ | ⟨z, rest⟩⟩⟩
  · exact absurd h (by simp)
  · exact absurd h (by simp)
  · exact absurd h (by simp)
  · obtain ⟨hx, hy, hz⟩ : x.kind = .int ∧ y.kind = .int ∧ z.kind = .int := by simpa using h
    have hslots : ∀ t : FieldType, t.kind = .int → t.slots = 1 := by
      intro t ht
      rw [FieldType.slots, ht]
      rfl
    simp only [slotCount, List.map_cons, List.sum_cons, hslots x hx, hslots y hy, hslots z hz,
      Bool.toNat_true]
    omega

/-! ### The splice -/

namespace IsSplice

variable {method : Method} {anchor : Nat} {injection : Injection} {spliced : Spliced}
  {draft draft' : Draft} {m : HandlerMembers}

/-- The local for the result is the watermark of the body, and is not the last one that there can
be. -/
theorem slot_eq [Build] (h : IsSplice method anchor injection spliced draft draft' m) :
    ∃ slots, method.parameterSlots = .ok slots ∧
      spliced.slot.toNat = draft.code.localWatermark slots ∧ spliced.slot.toNat ≤ 65534 := by
  obtain ⟨slots, hslots, hfree, hslot⟩ := freeSlot_eq_ok_iff.mp h.slot
  have htoNat : spliced.slot.toNat = draft.code.localWatermark slots := by
    rw [hslot, UInt16.toNat_ofNat_of_lt' (by show _ < 65536; omega)]
  exact ⟨slots, hslots, htoNat, htoNat.trans_le hfree⟩

/-- The method has a receiver and three coordinates, and the local for the result lies behind all
parameters exactly if sixteen bits can count them. -/
theorem exists_parameters [Build] (h : IsSplice method anchor injection spliced draft draft' m) :
    ∃ d, MethodDescriptor.parse method.descriptor = .ok d ∧ method.isStatic = false ∧
      4 ≤ d.slotCount true ∧ (Build.checksSums → d.slotCount true ≤ 65535) ∧
      (d.slotCount true ≤ spliced.slot.toNat ↔ d.slotCount true ≤ 65535) := by
  obtain ⟨hstatic, d, hd, hkinds⟩ := checkCoordinates_eq_ok_iff.mp h.coordinates
  obtain ⟨slots, hslots, hslot, hle⟩ := h.slot_eq
  rw [Method.parameterSlots_eq_ok_iff hd, hstatic] at hslots
  have hheld : slots ≤ spliced.slot.toNat := hslot ▸ draft.code.slots_le_localWatermark slots
  refine ⟨d, hd, hstatic, MethodDescriptor.four_le_slotCount hkinds, fun hchecks => ?_,
    MethodDescriptor.slotCount_le_iff hslots hheld (hle.trans (by decide))⟩
  exact Nat.le_of_lt_succ ((MethodDescriptor.callSlots_eq_ok_iff.mp hslots).2 hchecks)

/-- With the handler call put in, every access ends with the local for the result at the latest, or
with the coordinates. -/
theorem endsWithin [Build] (h : IsSplice method anchor injection spliced draft draft' m) :
    ∀ i ∈ draft'.code.instructions, i.EndsWithin (max (spliced.slot.toNat + 1) 4) := by
  obtain ⟨slots, -, hslot, hle⟩ := h.slot_eq
  obtain ⟨_, hremove⟩ := h.code
  refine Code.endsWithin_remove hremove (Code.endsWithin_insert ?_ ?_)
  · intro i hi index width haccess
    have hlt : draft.code.localWatermark slots < 65535 := by omega
    have := Code.endsWithin_of_localWatermark hlt i hi index width haccess
    omega
  · exact m.endsWithin_call spliced.slot

/-- The local for the result is the last one of the spliced body, unless it is one of the
coordinates. -/
theorem localWatermark_eq [Build] (h : IsSplice method anchor injection spliced draft draft' m)
    {slots : Nat} (hslots : method.parameterSlots = .ok slots) :
    draft'.code.localWatermark slots = max (spliced.slot.toNat + 1) 4 := by
  obtain ⟨slots', hslots', hslot, hle⟩ := h.slot_eq
  obtain rfl := Except.ok.inj (hslots.symm.trans hslots')
  obtain ⟨discard, -, hspliced⟩ := h.isSpliced
  obtain ⟨_, hremove⟩ := h.code
  have hmaxLocals : draft'.code.maxLocals = draft.code.maxLocals := by
    obtain ⟨-, -, hcode⟩ := Code.remove_eq_ok_iff.mp hremove
    rw [hcode]
    rfl
  apply Nat.le_antisymm
  · have hold := draft.code.maxLocals_le_localWatermark slots
    have hparameters := draft.code.slots_le_localWatermark slots
    refine Code.localWatermark_le_iff.mpr ⟨by rw [hmaxLocals]; omega, by omega, ?_⟩
    intro i hi index width haccess
    exact (Nat.min_le_left _ _).trans (h.endsWithin i hi index width haccess)
  · -- The call begins with the store of the result, and its ninth instruction loads a coordinate.
    have hstore : Instruction.storeLocal spliced.slot .int ∈ draft'.code.instructions :=
      List.mem_of_getElem? (hspliced.put 0 (by rw [HandlerMembers.length_call]; omega))
    have hload : Instruction.loadLocal 3 .int ∈ draft'.code.instructions :=
      List.mem_of_getElem? (hspliced.put 8 (by rw [HandlerMembers.length_call]; omega))
    have hend := Code.end_le_localWatermark slots hstore rfl
    have hend' := Code.end_le_localWatermark slots hload rfl
    have hwidth : ValueKind.int.width = 1 := rfl
    have hthree : (3 : UInt16).toNat = 3 := rfl
    omega

end IsSplice

/-! ### The patch -/

namespace Transformer

/-- A patch declares the local for the result as the last one, unless it is one of the
coordinates. -/
theorem IsPatch.toNat_maxLocals [Build] {t : Transformer} {mode : NamingMode} {report : GraftReport}
    {c c' : ClassFile} {place : Nat} {method : Method} {code : Code} {injection : Injection}
    {spliced : Spliced} {maxima : Maxima} {draft : Draft}
    (h : t.IsPatch mode report c c' place method code injection spliced maxima draft) :
    maxima.maxLocals.toNat = max (spliced.slot.toNat + 1) 4 := by
  obtain ⟨_, _, hgraft⟩ := h.grafted
  obtain ⟨s, hsplice, hmeasure⟩ := graft_eq_ok_iff.mp hgraft
  obtain ⟨m, hspliced⟩ := splice_spec hsplice
  obtain ⟨slots, hslots, -⟩ := hspliced.slot_eq
  rw [toNat_maxLocals_of_remeasure hmeasure hslots, hspliced.localWatermark_eq hslots]

/-- The local that holds the captured result is not below the declared size and touched by no
instruction of the original body, and every access of the patched body ends within the declared
size.  It lies behind the receiver and the parameters exactly if sixteen bits can count them, which
a build that checks its sums makes sure of; it is then the last local of the patched body. -/
theorem slot_fresh [Build] {t : Transformer} {mode : NamingMode} {report : GraftReport}
    {c c' : ClassFile} {log log' : List LogLine}
    (h : t.patch mode ⟨c, log⟩ = .ok report ⟨c', log'⟩) : ∃ place method code slots d code',
      (∃ s s' : Traced ClassFile,
        findMethod c mode t.remapper t.config.targetMethod s = .ok place s') ∧
      c.methods[place]? = some method ∧ method.code? = some code ∧
      method.parameterSlots = .ok slots ∧ MethodDescriptor.parse method.descriptor = .ok d ∧
      method.isStatic = false ∧ c'.methods[place]?.bind Method.code? = some code' ∧
      slots ≤ report.slot.toNat ∧
      (d.slotCount true ≤ report.slot.toNat ↔ d.slotCount true ≤ 65535) ∧
      (Build.checksSums → d.slotCount true ≤ 65535) ∧ code.maxLocals ≤ report.slot ∧
      (∀ i ∈ code.instructions, ¬i.Touches report.slot.toNat) ∧
      code'.maxLocals = report.maxLocals ∧
      code'.maxLocals.toNat = max (report.slot.toNat + 1) 4 ∧
      (d.slotCount true ≤ 65535 → code'.maxLocals.toNat = report.slot.toNat + 1) ∧
      report.slot.toNat + 1 ≤ 65535 ∧
      ∀ i ∈ code'.instructions, ∀ slot, i.Touches slot → slot < code'.maxLocals.toNat := by
  obtain ⟨place, method, code, injection, spliced, maxima, draft, hpatch⟩ := patch_spec h
  obtain ⟨body, m, hspliced, hbody⟩ := hpatch.exists_splice
  obtain ⟨slots, hslots, hslot, hle⟩ := hspliced.slot_eq
  obtain ⟨d, hd, hstatic, hfour, hchecks, hbehind⟩ := hspliced.exists_parameters
  have hreported : report.slot = spliced.slot ∧ report.maxLocals = maxima.maxLocals := by
    rw [hpatch.reported]
    exact ⟨rfl, rfl⟩
  have hmaxLocals : draft.code.maxLocals = maxima.maxLocals := by
    rw [hbody]
  have hinstructions : draft.code.instructions = body.instructions := by
    rw [hbody]
  have hsize : draft.code.maxLocals.toNat = max (spliced.slot.toNat + 1) 4 := by
    rw [hmaxLocals, hpatch.toNat_maxLocals]
  rw [hreported.1, hreported.2]
  refine ⟨place, method, code, slots, d, draft.code, hpatch.located, hpatch.atPlace, hpatch.body,
    hslots, hd, hstatic, ?_, ?_, hbehind, hchecks, ?_, ?_, hmaxLocals, hsize, fun hcount => ?_,
    Nat.succ_le_succ hle, ?_⟩
  · rw [hpatch.getElem?_methods, Option.bind_some, Method.code?_withCode hpatch.body]
  · rw [hslot]
    exact code.slots_le_localWatermark slots
  · rw [UInt16.le_iff_toNat_le, hslot]
    exact code.maxLocals_le_localWatermark slots
  · intro i hi htouches
    have hlt : code.localWatermark slots < 65535 := hslot ▸ Nat.lt_succ_of_le hle
    have := (Code.endsWithin_of_localWatermark hlt i hi).lt htouches
    exact absurd hslot (Nat.ne_of_lt this)
  · have := hbehind.mpr hcount
    omega
  · intro i hi slot htouches
    rw [hsize]
    exact (hspliced.endsWithin i (hinstructions ▸ hi)).lt htouches

/-- A body that returns before the instructions with the last locals: a widened load of a `long` at
300, which is kept as bytes, and a load of an `int` at 200. -/
def farBody : Code where
  maxStack := 2
  maxLocals := 4
  instructions := [.invoke ⟨14, "A", "tryHarvestBlock", "()Z"⟩ .static, .pop, .exit none,
    .other 196 [22, 1, 44], .loadLocal 200 .int, .exit none]
  handlers := []
  attributes := []

attribute [local instance] Build.checked

/-- The result goes behind both slots of the `long`, although no run ever loads it. -/
theorem slot_fresh_farBody : ∃ log code',
    patch {} .canonical ⟨harvestClass farBody, []⟩ =
      .ok ⟨"A", "uncheckedTryHarvestBlock", "(III)V", 0, 302, 11, 12, 7, 303⟩
        ⟨patchedClass farBody, log⟩ ∧
    (∃ i ∈ farBody.instructions, i.Touches 301) ∧
    (∀ i ∈ farBody.instructions, ¬i.Touches 302) ∧
    (patchedClass farBody).methods[0]?.bind Method.code? = some code' ∧
    ∀ i ∈ code'.instructions, ∀ slot, i.Touches slot → slot < 303 := by
  obtain ⟨log, h⟩ := Step.eq_ok_of_outcome (show (Step.outcome (patch {} .canonical)
    (harvestClass farBody)).1 = .ok ⟨"A", "uncheckedTryHarvestBlock", "(III)V", 0, 302, 11, 12, 7,
      303⟩ by decide +kernel)
  have haccess : Instruction.Accesses (.other 196 [Opcode.load .long, 1, 44]) 300 2 :=
    .wideLong (.inl rfl) 1 44 []
  have hlong : Instruction.Touches (.other 196 [22, 1, 44]) 301 :=
    ⟨300, 2, haccess, by decide, by decide⟩
  obtain ⟨place, method, code, slots, d, code', -, hmethod, hcode, -, -, -, hcode', -, -, -, -,
    hfree, -, hsize, -, -, hwithin⟩ := slot_fresh h
  -- The class has one method.
  obtain rfl : place = 0 := Nat.lt_one_iff.mp (List.getElem?_eq_some_iff.mp hmethod).1
  obtain rfl := Option.some.inj hmethod
  obtain rfl : farBody = code := Option.some.inj hcode
  rw [hsize] at hwithin
  refine ⟨_, code', h, ⟨_, ?_, hlong⟩, hfree, hcode', hwithin⟩
  decide

/-! ### More parameters than can be counted -/

/-- A method that takes `long`s after the coordinates. -/
def longsMethod (longs : Nat) : Method :=
  ⟨1, 8, 9, "uncheckedTryHarvestBlock", (longsDescriptor 3 longs).text, [.code 10 plainBody]⟩

/-- A class with such a method. -/
def longsClass (longs : Nat) : ClassFile :=
  { harvestClass plainBody with
    pool := ⟨(harvestClass plainBody).pool.slots.set! 9 (some (.utf8 (longsBytes 3 longs)))⟩
    methods := [longsMethod longs] }

theorem isStatic_longsMethod (longs : Nat) : (longsMethod longs).isStatic = false :=
  show Access.isStatic 1 = false by decide

theorem parse_longsMethod (longs : Nat) :
    MethodDescriptor.parse (longsMethod longs).descriptor = .ok (longsDescriptor 3 longs) :=
  parse_longsDescriptor 3 longs

theorem checkCoordinates_longsMethod (longs : Nat) :
    checkCoordinates (longsMethod longs) 0 = .ok () :=
  checkCoordinates_eq_ok_iff.mpr ⟨isStatic_longsMethod longs, _, parse_longsMethod longs, rfl⟩

theorem parameterSlots_longsMethod [Build] (longs : Nat) {slots : Nat} :
    (longsMethod longs).parameterSlots = .ok slots ↔
      slots = (4 + 2 * longs) % 65536 ∧ (Build.checksSums → 4 + 2 * longs < 65536) := by
  have hcount : (longsDescriptor 3 longs).slotCount true = 4 + 2 * longs := by
    rw [slotCount_longsDescriptor]
    omega
  rw [Method.parameterSlots_eq_ok_iff (parse_longsMethod longs), isStatic_longsMethod,
    Bool.not_false, MethodDescriptor.callSlots_eq_ok_iff, hcount]

/-- What a patch of the class asks of the splice. -/
def longsInjection : Injection where
  config := {}
  mode := .canonical
  owner := "A"
  fields := [("theWorld", ⟨"theWorld", "LW;"⟩), ("thisPlayerMP", ⟨"thisPlayerMP", "LW;"⟩)]

/-- Coordinates and 32768 `long`s take 65540 slots with the receiver.  A build that does not check
its sums takes the fifth local for the result, which the first `long` is in. -/
theorem patch_manyLongs : let d := longsDescriptor 3 32768
    (longsClass 32768).pool.utf8 9 = .ok d.text ∧ MethodDescriptor.parse d.text = .ok d ∧
      d.slotCount true = 65540 ∧
      ∃ c' log, @patch Build.wrapping {} .canonical ⟨longsClass 32768, []⟩ =
        .ok ⟨"A", "uncheckedTryHarvestBlock", d.text, 0, 4, 11, 12, 7, 5⟩ ⟨c', log⟩ := by
  intro d
  let method := longsMethod 32768
  let short : Method := ⟨1, 8, 9, "uncheckedTryHarvestBlock", "(III)V", [.code 10 plainBody]⟩
  refine ⟨ConstantPool.utf8_eq_ok_iff.mpr ⟨_, rfl, decode_longsBytes 3 32768⟩,
    parse_longsDescriptor 3 32768, slotCount_longsDescriptor 3 32768, ?_⟩
  let _ : Build := Build.wrapping
  have hcoordinates : checkCoordinates method 0 = checkCoordinates short 0 :=
    (checkCoordinates_longsMethod 32768).trans (by decide +kernel)
  have hslots : method.parameterSlots = short.parameterSlots := by
    rw [(parameterSlots_longsMethod 32768).mpr ⟨rfl, by decide⟩]
    decide +kernel
  obtain ⟨_, hscan⟩ := Step.eq_ok_of_outcome (show (Step.outcome (FieldRecords.scan
    (longsClass 32768) .identity ["theWorld", "thisPlayerMP"]) (longsClass 32768)).1 =
      .ok longsInjection.fields by decide +kernel)
  obtain ⟨_, hplace⟩ := Step.eq_ok_of_outcome (show (Step.outcome (findMethod (longsClass 32768)
    .canonical .identity "uncheckedTryHarvestBlock") (longsClass 32768)).1 = .ok 0 by
      decide +kernel)
  obtain ⟨_, hanchor⟩ := Step.eq_ok_of_outcome (show (Step.outcome (findAnchor method
    .canonical .identity "tryHarvestBlock") (longsClass 32768)).1 = .ok 0 by decide +kernel)
  obtain ⟨_, hgraft⟩ := Step.eq_ok_of_outcome (show (Step.outcome (graft short 0 longsInjection)
    ⟨plainBody, (longsClass 32768).pool⟩).1 = .ok (⟨4, .int, 1, 12, 12⟩, ⟨7, 5, 25⟩) by
      decide +kernel)
  have hname : method.name = short.name := rfl
  have hsame : graft method 0 longsInjection = graft short 0 longsInjection :=
    graft_congr hname hcoordinates hslots longsInjection
  rw [← hsame] at hgraft
  exact ⟨_, exists_patch_iff.mpr ⟨0, method, plainBody, longsInjection, _, _, _,
    ⟨⟨rfl, rfl, by decide +kernel⟩, ⟨_, _, hscan⟩, ⟨_, _, hplace⟩, rfl, ⟨_, _, hanchor⟩, rfl,
    ⟨_, _, hgraft⟩, rfl, rfl⟩⟩⟩

end Transformer

end ClassGraft
