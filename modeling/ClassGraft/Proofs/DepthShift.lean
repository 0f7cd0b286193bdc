/-
Depths in a spliced body.

The handler call takes the captured result from the stack where the `pop` took it before, but it
does so at the anchor.  Between the anchor and the `pop` stand only instructions that do nothing.
Compared with the original body

* the stack is one slot lower between the anchor and the `pop` if control comes there only from the
  anchor, and nothing else changes;
* if control enters between the two in another way as well (`Code.EntersBetween`), the stack is as
  deep there as it was, and one slot higher wherever control goes from behind the `pop`.

`Code.Disturbed` says so of a position; `SplicedDepths.depth_eq_iff` proves that it is exact.
-/
import ClassGraft.Proofs.HandlerCall
import ClassGraft.Proofs.Relocation
import ClassGraft.Proofs.Survey

namespace ClassGraft

namespace Code

/-- Control goes on from `p` to `q`. -/
def GoesOn (code : Code) (p q : Nat) : Prop :=
  ∃ i before after d, code.instructions[p]? = some i ∧ i.Leads p before after q d

/-- Control enters the instructions between `anchor` and `discard` in another way than from the
anchor: by a handler, or from outside. -/
def EntersBetween (code : Code) (anchor discard : Nat) : Prop :=
  ∃ p, anchor < p ∧ p < discard ∧ ((∃ handler ∈ code.handlers, handler.entry = p) ∨
    ∃ q, code.Reaches q ∧ (q < anchor ∨ discard < q) ∧ code.GoesOn q p)

/-- The stack is of another depth at a position once a splice has moved the consumption of the
anchor's result from `discard` to the anchor. -/
def Disturbed (code : Code) (anchor discard p : Nat) : Prop :=
  ¬code.EntersBetween anchor discard ∧ anchor < p ∧ p < discard ∧ code.Reaches p ∨
    code.EntersBetween anchor discard ∧ ¬(anchor < p ∧ p < discard) ∧
      Relation.ReflTransGen code.GoesOn (discard + 1) p

theorem Reaches.goesOn {code : Code} {p q : Nat} (hp : code.Reaches p) (h : code.GoesOn p q) :
    code.Reaches q := by
  obtain ⟨i, before, after, d, hi, hleads⟩ := h
  exact .step hp hi hleads

end Code

/-! ### Single instructions -/

namespace Instruction

variable {i : Instruction} {p q d before after before' after' : Nat}

/-- Behind a sequential instruction comes the next one. -/
theorem Leads.of_sequential (hflow : i.flow = .sequential) (h : i.Leads p before after q d) :
    q = p + 1 ∧ d = after := by
  cases h with
  | behind => exact ⟨rfl, rfl⟩
  | target h => exact absurd h (by simp [hflow])
  | resumed h => exact absurd h (by simp [hflow])

theorem flow_of_isNop (h : i.isNop) : i.flow = .sequential := by
  cases i with
  | other op operands =>
    obtain rfl : op = Opcode.nop := beq_iff_eq.mp h
    exact (by cbv :
      ((Opcode.info? Opcode.nop).map OpcodeInfo.flow).getD .sequential = .sequential)
  | _ => exact absurd h (by simp [isNop])

theorem flow_pop : Instruction.pop.flow = .sequential := by cbv

/-- Entered with another depth, an instruction leaves a depth behind that differs by as much. -/
theorem Passes.shift [Build] {pool : ConstantPool} (h : i.Passes pool before after)
    (h' : i.Passes pool before' after') : after' + before = after + before' := by
  obtain ⟨effect, heffect, hpops, rfl, -⟩ := h
  obtain ⟨effect', heffect', hpops', rfl, -⟩ := h'
  obtain rfl := Except.ok.inj (heffect.symm.trans heffect')
  omega

/-- A moved instruction leads where the original led, with depths that differ by as much. -/
theorem Leads.moved {f : Nat → Nat} (hsucc : f (p + 1) = f p + 1) (h : i.Leads p before after q d)
    (hshift : after' + before = after + before') :
    ∃ d', (i.mapTargets f).Leads (f p) before' after' (f q) d' ∧ d' + before = d + before' := by
  have hflow := flow_mapTargets f i
  cases h with
  | behind h =>
    rw [hsucc]
    rw [← hflow] at h
    exact ⟨after', .behind h, hshift⟩
  | target h ht =>
    rw [← hflow] at h
    have hf : f q ∈ (i.mapTargets f).targets := by
      rw [targets_mapTargets]
      exact List.mem_map_of_mem ht
    exact ⟨after', .target h hf, hshift⟩
  | resumed h =>
    rw [hsucc]
    rw [← hflow] at h
    exact ⟨before', .resumed h, Nat.add_comm _ _⟩

/-- A moved instruction leads nowhere else. -/
theorem Leads.of_moved {f : Nat → Nat} (hsucc : f (p + 1) = f p + 1)
    (h : (i.mapTargets f).Leads (f p) before' after' q d)
    (hshift : after' + before = after + before') :
    ∃ r, f r = q ∧ ∃ d', i.Leads p before after r d' ∧ d + before = d' + before' := by
  have hflow := flow_mapTargets f i
  cases h with
  | behind h =>
    rw [hflow] at h
    exact ⟨p + 1, hsucc, after, .behind h, hshift⟩
  | target h ht =>
    rw [hflow] at h
    rw [targets_mapTargets] at ht
    obtain ⟨r, hr, rfl⟩ := List.mem_map.mp ht
    exact ⟨r, rfl, after, .target h hr, hshift⟩
  | resumed h =>
    rw [hflow] at h
    exact ⟨p + 1, hsucc, before, .resumed h, Nat.add_comm _ _⟩

end Instruction

/-! ### Where control goes -/

namespace Code.IsSpliced

variable {code code' : Code} {anchor discard p q : Nat} {call : Instructions}

/-- The instructions from the anchor to the `pop` are passed one after the other. -/
theorem goesOn_iff (h : code.IsSpliced code' anchor discard call) (hp : anchor ≤ p)
    (hle : p ≤ discard) : code.GoesOn p q ↔ q = p + 1 := by
  -- The anchor is a call, what discards its result is the `pop`, and `nop`s stand in between.
  have hsequential : ∃ i, code.instructions[p]? = some i ∧ i.flow = .sequential := by
    rcases Nat.eq_or_lt_of_le hp with rfl | hp
    · obtain ⟨callee, dispatch, hi⟩ := h.anchored
      exact ⟨_, hi, Instruction.flow_invoke callee dispatch⟩
    · rcases Nat.eq_or_lt_of_le hle with rfl | hle
      · exact ⟨_, h.pop, Instruction.flow_pop⟩
      · obtain ⟨i, hi, hnop⟩ := h.nops p hp hle
        exact ⟨i, hi, Instruction.flow_of_isNop hnop⟩
  obtain ⟨i, hi, hflow⟩ := hsequential
  constructor
  · rintro ⟨j, before, after, d, hj, hleads⟩
    obtain rfl := Option.some.inj (hi.symm.trans hj)
    exact (hleads.of_sequential hflow).1
  · rintro rfl
    exact ⟨i, 0, 0, 0, hi, .behind (.inl hflow)⟩

end Code.IsSpliced

/-- A body with its depths and the spliced one, where positions are renumbered by `f`. -/
structure SplicedBody [Build] (pool pool' : ConstantPool) (code code' : Code) (anchor discard : Nat)
    (call : Instructions) (f depth : Nat → Nat) : Prop where
  spliced : code.IsSpliced code' anchor discard call
  number : f = Renumber.spliced anchor call.length discard
  extension : pool.Extends pool'
  flow : ∀ i ∈ call, i.flow = .sequential
  original : code.IsAssignment pool depth

namespace SplicedBody

variable {pool pool' : ConstantPool} {code code' : Code} {anchor discard p q : Nat}
  {call : Instructions} {f depth : Nat → Nat}

theorem getElem?_moved [Build] (h : SplicedBody pool pool' code code' anchor discard call f depth)
    (hp : p ≠ discard) {i : Instruction} (hi : code.instructions[p]? = some i) :
    code'.instructions[f p]? = some (i.mapTargets f) := by
  rw [h.number, h.spliced.moved p hp, hi, Option.map_some]

/-- What stands at a new number is what stood at the old one. -/
theorem of_getElem?_moved [Build]
    (h : SplicedBody pool pool' code code' anchor discard call f depth)
    (hp : p ≠ discard) {i : Instruction} (hi : code'.instructions[f p]? = some i) :
    ∃ j, code.instructions[p]? = some j ∧ j.mapTargets f = i := by
  rwa [h.number, h.spliced.moved p hp, ← h.number, Option.map_eq_some_iff] at hi

theorem handler_moved [Build] (h : SplicedBody pool pool' code code' anchor discard call f depth)
    {handler : Handler} (hh : handler ∈ code.handlers) :
    handler.mapPositions f ∈ code'.handlers := by
  rw [h.spliced.handlers, h.number]
  exact List.mem_map_of_mem hh

theorem of_handler_moved [Build] (h : SplicedBody pool pool' code code' anchor discard call f depth)
    {handler' : Handler} (hh : handler' ∈ code'.handlers) :
    ∃ handler ∈ code.handlers, handler.mapPositions f = handler' := by
  rw [h.spliced.handlers, ← h.number] at hh
  exact List.mem_map.mp hh

theorem number_succ [Build] (h : SplicedBody pool pool' code code' anchor discard call f depth)
    (hanchor : p ≠ anchor) (hdiscard : p ≠ discard) : f (p + 1) = f p + 1 := by
  rw [h.number]
  exact Renumber.spliced_succ h.spliced.lt hanchor hdiscard

theorem number_of_le [Build] (h : SplicedBody pool pool' code code' anchor discard call f depth)
    (hp : p ≤ anchor) : f p = p := by
  rw [h.number]
  exact Renumber.spliced_of_le h.spliced.lt hp

/-- What stood behind the anchor stands behind the handler call. -/
theorem number_anchor_succ [Build]
    (h : SplicedBody pool pool' code code' anchor discard call f depth) :
    f (anchor + 1) = anchor + 1 + call.length := by
  rw [h.number]
  exact Renumber.spliced_of_lt (Nat.lt_succ_self _) h.spliced.lt

theorem number_inj [Build] (h : SplicedBody pool pool' code code' anchor discard call f depth)
    (hp : p ≠ discard) (hq : q ≠ discard) (heq : f p = f q) : p = q := by
  rw [h.number] at heq
  exact Renumber.spliced_inj h.spliced.lt hp hq heq

/-- What is passed in the original body and in the spliced one leaves depths that differ by as much
as those it is entered with. -/
theorem after_add_before [Build] (h : SplicedBody pool pool' code code' anchor discard call f depth)
    {i : Instruction} {before after before' after' : Nat} (hpass : i.Passes pool before after)
    (hpass' : (i.mapTargets f).Passes pool' before' after') :
    after' + before = after + before' := by
  obtain ⟨effect, heffect, hpass'⟩ := hpass'
  rw [Instruction.stackEffect_mapTargets] at heffect
  exact (hpass.of_extends h.extension).shift ⟨effect, heffect, hpass'⟩

/-- What stood behind the `pop` stands in its place, and was one slot deeper there. -/
theorem step_discard [Build] (h : SplicedBody pool pool' code code' anchor discard call f depth)
    (hp : code.Reaches discard) :
    f (discard + 1) = f discard ∧ depth (discard + 1) + 1 = depth discard := by
  obtain ⟨after, hpass, hdepth⟩ := h.original.passes discard _ hp h.spliced.pop
  have hbehind := hdepth _ _ (.behind (.inl Instruction.flow_pop))
  have hpop : 1 ≤ depth discard ∧ after = depth discard - 1 + 0 := hpass.eq rfl
  refine ⟨?_, by omega⟩
  rw [h.number]
  exact Renumber.spliced_discard_succ h.spliced.lt

/-- Only what stands before it leads to the `pop`. -/
theorem succ_eq_discard [Build] (h : SplicedBody pool pool' code code' anchor discard call f depth)
    (hp : code.GoesOn p discard) : p + 1 = discard := by
  obtain ⟨i, before, after, d, hi, hleads⟩ := hp
  generalize hq : discard = q at hleads
  cases hleads with
  | behind => rfl
  | target _ ht => exact absurd (hq ▸ ht) (h.spliced.notTarget i (List.mem_of_getElem? hi))
  | resumed => rfl

/-- Where an instruction that has moved leads is where it led. -/
theorem goesOn_of_moved [Build] (h : SplicedBody pool pool' code code' anchor discard call f depth)
    (hanchor : p ≠ anchor) (hdiscard : p ≠ discard) {r : Nat} (hr : code'.GoesOn (f p) r) :
    ∃ q, f q = r ∧ code.GoesOn p q := by
  obtain ⟨i, before, after, d, hi, hleads⟩ := hr
  obtain ⟨j, hj, rfl⟩ := h.of_getElem?_moved hdiscard hi
  obtain ⟨q, rfl, d', hleads, -⟩ := hleads.of_moved (h.number_succ hanchor hdiscard) rfl
  exact ⟨q, rfl, j, before, after, d', hj, hleads⟩

/-- From the anchor on, the handler call is passed instruction by instruction. -/
theorem eq_succ_of_goesOn [Build]
    (h : SplicedBody pool pool' code code' anchor discard call f depth)
    {r : Nat} (hle : anchor ≤ r) (hr : r ≤ anchor + call.length) (hrq : code'.GoesOn r q) :
    q = r + 1 := by
  obtain ⟨i, before, after, d, hi, hleads⟩ := hrq
  refine (hleads.of_sequential ?_).1
  rcases Nat.eq_or_lt_of_le hle with rfl | hlt
  · obtain ⟨callee, dispatch, hanchor⟩ := h.spliced.anchored
    have hanchor' := h.getElem?_moved (Nat.ne_of_lt h.spliced.lt) hanchor
    rw [h.number_of_le le_rfl] at hanchor'
    obtain rfl := Option.some.inj (hi.symm.trans hanchor')
    exact Instruction.flow_invoke callee dispatch
  · obtain ⟨k, rfl⟩ := Nat.exists_eq_add_of_lt hlt
    rw [show anchor + k + 1 = anchor + 1 + k by omega, h.spliced.put k (by omega)] at hi
    exact h.flow i (List.mem_of_getElem? hi)

end SplicedBody

/-- Depths in a body and in the spliced one, where positions are renumbered by `f`. -/
structure SplicedDepths [Build] (pool pool' : ConstantPool) (code code' : Code)
    (anchor discard : Nat) (call : Instructions) (f depth depth' : Nat → Nat) : Prop where
  spliced : code.IsSpliced code' anchor discard call
  number : f = Renumber.spliced anchor call.length discard
  extension : pool.Extends pool'
  flow : ∀ i ∈ call, i.flow = .sequential
  /-- The instructions put in take one slot from the stack. -/
  takes : ∀ before after, Instructions.Pass pool' call before after → after + 1 = before
  original : code.IsAssignment pool depth
  patched : code'.IsAssignment pool' depth'

namespace SplicedDepths

variable {pool pool' : ConstantPool} {code code' : Code} {anchor discard p q : Nat}
  {call : Instructions} {f depth depth' : Nat → Nat}

theorem body [Build] (h : SplicedDepths pool pool' code code' anchor discard call f depth depth') :
    SplicedBody pool pool' code code' anchor discard call f depth :=
  ⟨h.spliced, h.number, h.extension, h.flow, h.original⟩

/-- A step elsewhere than at the anchor and the `pop` is still taken, and keeps the difference in
depth. -/
theorem step [Build] (h : SplicedDepths pool pool' code code' anchor discard call f depth depth')
    (hanchor : p ≠ anchor) (hdiscard : p ≠ discard) (hp : code.Reaches p)
    (hp' : code'.Reaches (f p))
    (hpq : code.GoesOn p q) :
    code'.Reaches (f q) ∧ depth' (f q) + depth p = depth q + depth' (f p) := by
  obtain ⟨i, before, after, d, hi, hleads⟩ := hpq
  have hi' := h.body.getElem?_moved hdiscard hi
  obtain ⟨after, hpass, hdepth⟩ := h.original.passes p i hp hi
  obtain ⟨after', hpass', hdepth'⟩ := h.patched.passes (f p) _ hp' hi'
  obtain ⟨d, hleads⟩ := hleads.exists_depth (depth p) after
  obtain ⟨d', hleads', hshift⟩ := hleads.moved (h.body.number_succ hanchor hdiscard)
    (h.body.after_add_before hpass hpass')
  rw [hdepth q d hleads, hdepth' (f q) d' hleads']
  exact ⟨.step hp' hi' hleads', hshift⟩

/-- Behind the anchor the handler call is passed, which takes the result of the anchor. -/
theorem step_anchor [Build]
    (h : SplicedDepths pool pool' code code' anchor discard call f depth depth')
    (hp : code.Reaches anchor) (hp' : code'.Reaches (f anchor)) :
    code'.Reaches (f (anchor + 1)) ∧
      depth' (f (anchor + 1)) + depth anchor + 1 = depth (anchor + 1) + depth' (f anchor) := by
  have hlt := h.spliced.lt
  obtain ⟨callee, dispatch, hi⟩ := h.spliced.anchored
  have hflow := Instruction.flow_invoke callee dispatch
  have hi' := h.body.getElem?_moved (by omega) hi
  obtain ⟨after, hpass, hdepth⟩ := h.original.passes anchor _ hp hi
  obtain ⟨after', hpass', hdepth'⟩ := h.patched.passes (f anchor) _ hp' hi'
  have hafter := h.body.after_add_before hpass hpass'
  have hbehind := hdepth _ _ (.behind (.inl hflow))
  have hleads' : (Instruction.invoke callee dispatch).Leads (f anchor) (depth' (f anchor)) after'
      (f anchor + 1) after' := .behind (.inl hflow)
  have hanchor : f anchor = anchor := h.body.number_of_le le_rfl
  have hbehind' : depth' (anchor + 1) = after' := by
    rw [← hanchor]
    exact hdepth' _ _ hleads'
  have hreach : code'.Reaches (anchor + 1) := by
    have := Code.Reaches.step hp' hi' hleads'
    rwa [hanchor] at this
  obtain ⟨hreach, hcall⟩ := h.patched.pass hreach h.spliced.put h.flow
  have htakes := h.takes _ _ hcall
  rw [h.body.number_anchor_succ]
  exact ⟨hreach, by omega⟩

/-! ### Where control goes -/

/-- Whatever control reaches it reaches in the spliced body. -/
theorem reaches_moved [Build]
    (h : SplicedDepths pool pool' code code' anchor discard call f depth depth')
    (hp : code.Reaches p) : code'.Reaches (f p) := by
  have hlt := h.spliced.lt
  -- Only the steps from the anchor and from the `pop` are not taken as they were.
  induction hp with
  | start =>
    rw [h.body.number_of_le (Nat.zero_le _)]
    exact .start
  | @handler handler hh => exact .handler (h.body.handler_moved hh)
  | @step p q before after d i hp hi hq ih =>
    have hpq : code.GoesOn p q := ⟨i, before, after, d, hi, hq⟩
    by_cases hanchor : p = anchor
    · subst hanchor
      rw [(h.spliced.goesOn_iff le_rfl hlt.le).mp hpq]
      exact (h.step_anchor hp ih).1
    · by_cases hdiscard : p = discard
      · subst hdiscard
        rw [(h.spliced.goesOn_iff hlt.le le_rfl).mp hpq, (h.body.step_discard hp).1]
        exact ih
      · exact (h.step hanchor hdiscard hp ih hpq).1

/-- In the spliced body control reaches the handler call only from the anchor, and nothing else that
it did not reach before. -/
theorem reaches_of_moved [Build]
    (h : SplicedDepths pool pool' code code' anchor discard call f depth depth') {r : Nat}
    (hr : code'.Reaches r) : (∀ p ≠ discard, f p = r → code.Reaches p) ∧
      (anchor < r → r ≤ anchor + call.length → code.Reaches anchor) := by
  have hlt := h.spliced.lt
  have hcases : ∀ p, _ := Renumber.spliced_cases hlt call.length
  rw [← h.number] at hcases
  -- The call is entered from the anchor only, so both statements carry each other.
  induction hr with
  | start =>
    refine ⟨fun p hp hf => ?_, fun hanchor => absurd hanchor (Nat.not_lt_zero _)⟩
    rw [← h.body.number_of_le (Nat.zero_le anchor)] at hf
    rw [h.body.number_inj hp (by omega) hf]
    exact .start
  | @handler handler' hh' =>
    obtain ⟨handler, hh, rfl⟩ := h.body.of_handler_moved hh'
    have hentry := h.spliced.notEntered handler hh
    refine ⟨fun p hp hf => ?_, fun hanchor hle => ?_⟩
    · rw [h.body.number_inj hp hentry hf]
      exact .handler hh
    · have hentry : (handler.mapPositions f).entry = f handler.entry := rfl
      have := hcases handler.entry
      omega
  | @step r r' before after d i hr hi hq ih =>
    obtain ⟨ih, ihcall⟩ := ih
    have hrr : code'.GoesOn r r' := ⟨i, before, after, d, hi, hq⟩
    by_cases hmid : anchor ≤ r ∧ r ≤ anchor + call.length
    · -- The step is one from the anchor or within the call.
      have hreach : code.Reaches anchor := by
        rcases Nat.eq_or_lt_of_le hmid.1 with rfl | hanchor
        · exact ih _ (by omega) (h.body.number_of_le le_rfl)
        · exact ihcall hanchor hmid.2
      obtain rfl := h.body.eq_succ_of_goesOn hmid.1 hmid.2 hrr
      have hnext := hreach.goesOn ((h.spliced.goesOn_iff le_rfl hlt.le).mpr rfl)
      refine ⟨fun p hp hf => ?_, fun _ _ => hreach⟩
      -- What stands behind the call stood behind the anchor, or behind the `pop` that stood there.
      have hp' : p = anchor + 1 ∨ discard = anchor + 1 ∧ p = discard + 1 := by
        have := hcases p
        omega
      rcases hp' with rfl | ⟨hdiscard, rfl⟩
      · exact hnext
      · rw [← hdiscard] at hnext
        exact hnext.goesOn ((h.spliced.goesOn_iff hlt.le le_rfl).mpr rfl)
    · -- The step is one of an instruction that has moved.
      obtain ⟨p, hp, rfl⟩ : ∃ p ≠ discard, f p = r := by
        rcases Renumber.exists_spliced hlt call.length r with hcall | hmoved
        · omega
        · rwa [h.number]
      have hanchor : p ≠ anchor := by
        rintro rfl
        rw [h.body.number_of_le le_rfl] at hmid
        omega
      obtain ⟨q, rfl, hpq⟩ := h.body.goesOn_of_moved hanchor hp hrr
      have hq' := (ih p hp rfl).goesOn hpq
      refine ⟨fun p' hp' hf => ?_, fun _ _ => ?_⟩
      · by_cases hdiscard : q = discard
        · subst hdiscard
          rw [← (h.body.step_discard hq').1] at hf
          rw [h.body.number_inj hp' (by omega) hf]
          exact hq'.goesOn ((h.spliced.goesOn_iff hlt.le le_rfl).mpr rfl)
        · rw [h.body.number_inj hp' hdiscard hf]
          exact hq'
      · have := hcases q
        omega

/-! ### How depths differ -/

/-- A handler is entered with the depth of before. -/
theorem depth_entry [Build]
    (h : SplicedDepths pool pool' code code' anchor discard call f depth depth')
    {handler : Handler} (hh : handler ∈ code.handlers) :
    depth' (f handler.entry) = depth handler.entry :=
  (h.patched.handlers _ (h.body.handler_moved hh)).trans (h.original.handlers handler hh).symm

/-- Where control comes between the anchor and the `pop` from the anchor only, the stack is one slot
lower there and as deep as before elsewhere. -/
theorem depth_of_not_entersBetween [Build]
    (h : SplicedDepths pool pool' code code' anchor discard call f depth depth')
    (hside : ¬code.EntersBetween anchor discard) (hp : code.Reaches p) :
    anchor < p ∧ p ≤ discard ∧ depth' (f p) + 1 = depth p ∨
      ¬(anchor < p ∧ p ≤ discard) ∧ depth' (f p) = depth p := by
  have hlt := h.spliced.lt
  -- The slot that is missing from the anchor on is given back where the `pop` was.
  induction hp with
  | start =>
    rw [h.body.number_of_le (Nat.zero_le _), h.original.start, h.patched.start]
    exact .inr ⟨by omega, rfl⟩
  | @handler handler hh =>
    have hentry := h.spliced.notEntered handler hh
    have hout : ¬(anchor < handler.entry ∧ handler.entry < discard) :=
      fun hin => hside ⟨handler.entry, hin.1, hin.2, .inl ⟨handler, hh, rfl⟩⟩
    exact .inr ⟨by omega, h.depth_entry hh⟩
  | @step p q before after d i hp hi hq ih =>
    have hpq : code.GoesOn p q := ⟨i, before, after, d, hi, hq⟩
    have hp' := h.reaches_moved hp
    by_cases hin : anchor ≤ p ∧ p ≤ discard
    · obtain rfl := (h.spliced.goesOn_iff hin.1 hin.2).mp hpq
      by_cases hanchor : p = anchor
      · subst hanchor
        have := (h.step_anchor hp hp').2
        omega
      · by_cases hdiscard : p = discard
        · subst hdiscard
          obtain ⟨hnumber, hdepth⟩ := h.body.step_discard hp
          rw [hnumber]
          omega
        · have := (h.step hanchor hdiscard hp hp' hpq).2
          omega
    · -- From outside control does not lead between the two, nor to the `pop`.
      have hshift := (h.step (by omega) (by omega) hp hp' hpq).2
      have hout : ¬(anchor < q ∧ q < discard) :=
        fun hq => hside ⟨q, hq.1, hq.2, .inr ⟨p, hp, by omega, hpq⟩⟩
      have hdiscard : q ≠ discard := by
        rintro rfl
        have := h.body.succ_eq_discard hpq
        omega
      omega

/-- From an instruction between the anchor and the `pop` to the `pop`, the difference in depth stays
the same. -/
theorem depth_between [Build]
    (h : SplicedDepths pool pool' code code' anchor discard call f depth depth')
    (hp : code.Reaches p) (hlt : anchor < p) (hle : p ≤ discard) : code.Reaches discard ∧
      depth' (f p) + depth discard = depth p + depth' (f discard) := by
  -- The induction is on how far the `pop` is away.
  obtain ⟨k, hk⟩ := Nat.exists_eq_add_of_le hle
  induction k generalizing p with
  | zero =>
    obtain rfl : discard = p := hk
    exact ⟨hp, Nat.add_comm _ _⟩
  | succ k ih =>
    have hpq : code.GoesOn p (p + 1) := (h.spliced.goesOn_iff hlt.le hle).mpr rfl
    have hshift := (h.step (by omega) (by omega) hp (h.reaches_moved hp) hpq).2
    obtain ⟨hdiscard, hbetween⟩ := ih (hp.goesOn hpq) (by omega) (by omega) (by omega)
    exact ⟨hdiscard, by omega⟩

/-- Elsewhere the stack is as deep as before, or as much deeper as it is behind the `pop`. -/
theorem depth_outside [Build]
    (h : SplicedDepths pool pool' code code' anchor discard call f depth depth')
    (hp : code.Reaches p) (hout : ¬(anchor < p ∧ p ≤ discard)) :
    depth' (f p) = depth p ∨ Relation.ReflTransGen code.GoesOn (discard + 1) p ∧
      depth' (f p) + depth discard = depth p + depth' (f discard) + 1 := by
  have hlt := h.spliced.lt
  induction hp with
  | start =>
    rw [h.body.number_of_le (Nat.zero_le _), h.original.start, h.patched.start]
    exact .inl rfl
  | handler hh => exact .inl (h.depth_entry hh)
  | @step p q before after d i hp hi hq ih =>
    have hpq : code.GoesOn p q := ⟨i, before, after, d, hi, hq⟩
    by_cases hin : anchor ≤ p ∧ p ≤ discard
    · obtain rfl := (h.spliced.goesOn_iff hin.1 hin.2).mp hpq
      -- From in between control comes out behind the `pop` only.
      obtain rfl : p = discard := by omega
      obtain ⟨hnumber, hdepth⟩ := h.body.step_discard hp
      rw [hnumber]
      exact .inr ⟨.refl, by omega⟩
    · have hshift := (h.step (by omega) (by omega) hp (h.reaches_moved hp) hpq).2
      rcases ih (by omega) with hsame | ⟨hbehind, hdeeper⟩
      · exact .inl (by omega)
      · exact .inr ⟨hbehind.tail hpq, by omega⟩

/-- Where control enters between the anchor and the `pop` in another way, the stack is as deep there
as before. -/
theorem depth_discard [Build]
    (h : SplicedDepths pool pool' code code' anchor discard call f depth depth')
    (hside : code.EntersBetween anchor discard) :
    code.Reaches discard ∧ depth' (f discard) = depth discard := by
  obtain ⟨p, hlt, hlt', ⟨handler, hh, rfl⟩ | ⟨q, hq, hout, hqp⟩⟩ := hside
  · have hsame := h.depth_entry hh
    obtain ⟨hdiscard, hbetween⟩ := h.depth_between (.handler hh) hlt hlt'.le
    exact ⟨hdiscard, by omega⟩
  · have hshift := (h.step (by omega) (by omega) hq (h.reaches_moved hq) hqp).2
    obtain ⟨hdiscard, hbetween⟩ := h.depth_between (hq.goesOn hqp) hlt hlt'.le
    -- The two ways in would contradict each other if the stack were deeper at the entry.
    rcases h.depth_outside hq (by omega) with hsame | ⟨-, hdeeper⟩
    · exact ⟨hdiscard, by omega⟩
    · exact absurd hdeeper (by omega)

/-- Then it is one slot deeper wherever control goes from behind the `pop`. -/
theorem depth_behind [Build]
    (h : SplicedDepths pool pool' code code' anchor discard call f depth depth')
    (hside : code.EntersBetween anchor discard)
    (hp : Relation.ReflTransGen code.GoesOn (discard + 1) p) :
    code.Reaches p ∧ (¬(anchor < p ∧ p ≤ discard) → depth' (f p) = depth p + 1) := by
  have hlt := h.spliced.lt
  obtain ⟨hreach, hdiscard⟩ := h.depth_discard hside
  obtain ⟨hnumber, hdepth⟩ := h.body.step_discard hreach
  have hnext : code.GoesOn discard (discard + 1) := (h.spliced.goesOn_iff hlt.le le_rfl).mpr rfl
  induction hp with
  | refl =>
    rw [hnumber]
    exact ⟨hreach.goesOn hnext, fun _ => by omega⟩
  | @tail p q _ hpq ih =>
    obtain ⟨hp, ih⟩ := ih
    refine ⟨hp.goesOn hpq, fun hout => ?_⟩
    by_cases hin : anchor ≤ p ∧ p ≤ discard
    · obtain rfl := (h.spliced.goesOn_iff hin.1 hin.2).mp hpq
      obtain rfl : p = discard := by omega
      rw [hnumber]
      omega
    · have hshift := (h.step (by omega) (by omega) hp (h.reaches_moved hp) hpq).2
      have := ih (by omega)
      omega

/-! ### The exact condition -/

/-- The stack is as deep as before exactly where nothing is disturbed. -/
theorem depth_eq_iff [Build]
    (h : SplicedDepths pool pool' code code' anchor discard call f depth depth')
    (hp : code.Reaches p) (hdiscard : p ≠ discard) :
    depth' (f p) = depth p ↔ ¬code.Disturbed anchor discard p := by
  by_cases hside : code.EntersBetween anchor discard
  · have hdisturbed : code.Disturbed anchor discard p ↔ ¬(anchor < p ∧ p < discard) ∧
        Relation.ReflTransGen code.GoesOn (discard + 1) p := by
      simp [Code.Disturbed, hside]
    rw [hdisturbed]
    by_cases hin : anchor < p ∧ p < discard
    · have := (h.depth_between hp hin.1 hin.2.le).2
      have := (h.depth_discard hside).2
      exact iff_of_true (by omega) fun hout => hout.1 hin
    · by_cases hbehind : Relation.ReflTransGen code.GoesOn (discard + 1) p
      · have := (h.depth_behind hside hbehind).2 (by omega)
        exact iff_of_false (by omega) fun hnot => hnot ⟨hin, hbehind⟩
      · rcases h.depth_outside hp (by omega) with hsame | ⟨hbehind', -⟩
        · exact iff_of_true hsame fun hout => hbehind hout.2
        · exact absurd hbehind' hbehind
  · have hdisturbed : code.Disturbed anchor discard p ↔ anchor < p ∧ p < discard := by
      simp [Code.Disturbed, hside, hp]
    rw [hdisturbed]
    rcases h.depth_of_not_entersBetween hside hp with ⟨hlt, hle, hdepth⟩ | ⟨hout, hdepth⟩
    · exact iff_of_false (by omega) fun hnot => hnot ⟨hlt, by omega⟩
    · exact iff_of_true hdepth (by omega)

/-- What is disturbed is reached. -/
theorem reaches_of_disturbed [Build]
    (h : SplicedDepths pool pool' code code' anchor discard call f depth depth')
    (hp : code.Disturbed anchor discard p) : code.Reaches p := by
  rcases hp with ⟨-, -, -, hp⟩ | ⟨hside, -, hp⟩
  · exact hp
  · exact (h.depth_behind hside hp).1

/-! ### The two surveys -/

/-- Where an instruction stays, both surveys find its depth, or neither finds that control reaches
it. -/
theorem survey_moved [Build]
    (h : SplicedDepths pool pool' code code' anchor discard call f depth depth')
    {label label' : String}
    {o o' : StackDepths} (ho : StackDepth.survey code pool label = .ok o)
    (ho' : StackDepth.survey code' pool' label' = .ok o') (hp : p < code.instructions.length)
    (hne : p ≠ discard) :
    (code.Reaches p → o.depths[p]? = some (some (depth p)) ∧
      o'.depths[f p]? = some (some (depth' (f p)))) ∧
    (¬code.Reaches p → o.depths[p]? = some none ∧ o'.depths[f p]? = some none) := by
  have hp' := (List.getElem?_eq_some_iff.mp
    (h.body.getElem?_moved hne (List.getElem?_eq_getElem hp))).1
  have hsurvey := StackDepth.survey_depths (List.ne_nil_of_length_pos (Nat.zero_lt_of_lt hp)) ho
    h.original hp
  have hsurvey' := StackDepth.survey_depths (List.ne_nil_of_length_pos (Nat.zero_lt_of_lt hp')) ho'
    h.patched hp'
  refine ⟨fun hreach => ⟨hsurvey.1 hreach, hsurvey'.1 (h.reaches_moved hreach)⟩, fun hnot => ?_⟩
  exact ⟨hsurvey.2 hnot, hsurvey'.2 fun hr => hnot ((h.reaches_of_moved hr).1 p hne rfl)⟩

/-- Two surveys agree on an instruction that stays exactly if it is not disturbed. -/
theorem survey_eq_iff [Build]
    (h : SplicedDepths pool pool' code code' anchor discard call f depth depth')
    {label label' : String} {r r' : StackDepths} (hr : StackDepth.survey code pool label = .ok r)
    (hr' : StackDepth.survey code' pool' label' = .ok r') {i : Instruction}
    (hi : code.instructions[p]? = some i) (hdiscard : p ≠ discard) :
    r'.depths[f p]? = r.depths[p]? ↔ ¬code.Disturbed anchor discard p := by
  have hlt := (List.getElem?_eq_some_iff.mp hi).1
  obtain ⟨hreached, hnot⟩ := h.survey_moved hr hr' hlt hdiscard
  by_cases hp : code.Reaches p
  · rw [(hreached hp).1, (hreached hp).2, ← h.depth_eq_iff hp hdiscard, Option.some.injEq,
      Option.some.injEq]
  · rw [(hnot hp).1, (hnot hp).2]
    exact iff_of_true rfl fun hdisturbed => hp (h.reaches_of_disturbed hdisturbed)

end SplicedDepths

end ClassGraft
