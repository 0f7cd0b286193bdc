/-
Arrivals in a spliced body.

Wherever control arrives in a spliced body, it stands at an instruction that has moved or within the
handler call (`SplicedBody.Stands`), and the original body tells how deep the stack is there.  It is
one slot lower between the anchor and the `pop`, and as much deeper everywhere as control has come
between the two from elsewhere.  This holds however many of the depths contradict each other.

So no instruction of the spliced body finds the stack too short (`SplicedBody.pops_le`), and where
control comes between the anchor and the `pop` from the anchor only, there is one depth for each
position (`SplicedBody.exists_isAssignment`).
-/
import ClassGraft.Proofs.DepthShift

namespace ClassGraft

/-- Whether a straight run of instructions uses up the topmost slot of the stack and nothing below
it, where `height k` is the number of slots from that one on before the instruction `k`. -/
structure Instructions.Consumes [Build] (pool : ConstantPool) (run : Instructions)
    (height : Nat → Nat) :
    Prop where
  start : height 0 = 1
  step : ∀ k i effect, run[k]? = some i → i.stackEffect pool = .ok effect →
    effect.pops ≤ height k ∧ height (k + 1) + effect.pops = height k + effect.pushes
  finish : height run.length = 0

theorem HandlerMembers.consumes_call [Build] {m : HandlerMembers} {injection : Injection}
    (hm : m.AreOf injection) (pool : ConstantPool) (slot : UInt16) :
    Instructions.Consumes pool (m.call slot .int) height where
  start := rfl
  step := fun _ _ _ hi heffect => height_call hm hi heffect
  finish := by
    rw [length_call]
    rfl

theorem Instruction.stackEffect_of_isNop [Build] {i : Instruction} (h : i.isNop)
    (pool : ConstantPool) :
    i.stackEffect pool = .ok ⟨0, 0⟩ := by
  cases i with
  | other op operands =>
    obtain rfl : op = Opcode.nop := beq_iff_eq.mp h
    have htable : StackEffect.ofTable Opcode.nop = .ok ⟨0, 0⟩ := by decide +kernel
    show StackEffect.ofBytes pool Opcode.nop operands = _
    simp +decide only [StackEffect.ofBytes, if_false, htable]
  | _ => exact absurd h (by simp [isNop])

namespace SplicedBody

/-- By how many slots the stack is lower at a position. -/
def lower (anchor discard p : Nat) : Nat := if anchor < p ∧ p < discard then 1 else 0

/-- Where control stands in a spliced body with a depth: at what has moved, or in the call.  The
stack is deeper than the original body says by `extra` slots. -/
inductive Stands (code : Code) (anchor discard : Nat) (call : Instructions)
    (f depth height : Nat → Nat) (extra : Nat) : Nat → Nat → Prop
  | moved {p e : Nat} (hp : p ≠ discard) (hreach : code.Reaches p)
      (he : e + lower anchor discard p = depth p + extra) :
      Stands code anchor discard call f depth height extra (f p) e
  | called {k e : Nat} (hk : k < call.length) (hreach : code.Reaches anchor)
      (he : e + 1 = depth (anchor + 1) + extra + height k) :
      Stands code anchor discard call f depth height extra (anchor + 1 + k) e

variable {pool pool' : ConstantPool} {code code' : Code} {anchor discard p q r e : Nat}
  {call : Instructions} {f depth height : Nat → Nat} {extra : Nat}

/-- Control stands behind the anchor or between it and the `pop` where it comes from the anchor. -/
theorem stands_behind [Build] (h : SplicedBody pool pool' code code' anchor discard call f depth)
    (hp : code.Reaches p) (hlt : anchor < p) (hle : p ≤ discard)
    (he : e + 1 = depth p + extra) :
    Stands code anchor discard call f depth height extra (f p) e := by
  rcases Nat.eq_or_lt_of_le hle with rfl | hlt'
  · -- What stood behind the `pop` stands in its place.
    obtain ⟨hnumber, hdepth⟩ := h.step_discard hp
    have hnext := hp.goesOn ((h.spliced.goesOn_iff hlt.le le_rfl).mpr rfl)
    rw [← hnumber]
    refine .moved (by omega) hnext ?_
    rw [lower, if_neg (by omega)]
    omega
  · refine .moved hlt'.ne hp ?_
    rw [lower, if_pos ⟨hlt, hlt'⟩]
    exact he

theorem stands_anchor_succ [Build]
    (h : SplicedBody pool pool' code code' anchor discard call f depth)
    (hp : code.Reaches anchor) (he : e + 1 = depth (anchor + 1) + extra) :
    Stands code anchor discard call f depth height extra (anchor + 1 + call.length) e := by
  have hlt := h.spliced.lt
  have hnext := hp.goesOn ((h.spliced.goesOn_iff le_rfl hlt.le).mpr rfl)
  rw [← h.number_anchor_succ]
  exact h.stands_behind hnext (Nat.lt_succ_self _) hlt he

/-- From the anchor control goes on to the handler call. -/
theorem stands_step_anchor [Build]
    (h : SplicedBody pool pool' code code' anchor discard call f depth)
    (hcall : Instructions.Consumes pool' call height) (hp : code.Reaches anchor)
    (he : e = depth anchor + extra) {i : Instruction} {after d : Nat}
    (hi : code'.instructions[anchor]? = some i) (hpass : i.Passes pool' e after)
    (hq : i.Leads anchor e after q d) :
    Stands code anchor discard call f depth height extra q d := by
  have hlt := h.spliced.lt
  obtain ⟨callee, dispatch, hinvoke⟩ := h.spliced.anchored
  have hflow := Instruction.flow_invoke callee dispatch
  have hinvoke' := h.getElem?_moved (Nat.ne_of_lt hlt) hinvoke
  rw [h.number_of_le le_rfl] at hinvoke'
  obtain rfl := Option.some.inj (hi.symm.trans hinvoke')
  -- The anchor pushes as much as in the original body, and the call starts on its result.
  obtain ⟨after₀, hpass₀, hdepth⟩ := h.original.passes anchor _ hp hinvoke
  have hbehind := hdepth _ _ (.behind (.inl hflow))
  have hafter := h.after_add_before hpass₀ hpass
  obtain ⟨rfl, rfl⟩ := hq.of_sequential hflow
  cases call with
  | nil => exact absurd hcall.finish (by rw [List.length_nil, hcall.start]; exact Nat.one_ne_zero)
  | cons i rest =>
    refine .called (k := 0) (Nat.succ_pos _) hp ?_
    rw [hcall.start]
    omega

/-- From elsewhere control goes on as in the original body; where it comes between the anchor and
the `pop`, the stack is one slot deeper than from the anchor. -/
theorem stands_step_moved [Build]
    (h : SplicedBody pool pool' code code' anchor discard call f depth)
    (height : Nat → Nat) (hanchor : p ≠ anchor) (hdiscard : p ≠ discard) (hp : code.Reaches p)
    (he : e + lower anchor discard p = depth p + extra) {i : Instruction} {after d : Nat}
    (hi : code'.instructions[f p]? = some i) (hpass : i.Passes pool' e after)
    (hq : i.Leads (f p) e after q d) :
    ∃ extra', (¬code.EntersBetween anchor discard → extra' = extra) ∧
      Stands code anchor discard call f depth height extra' q d := by
  obtain ⟨j, hj, rfl⟩ := h.of_getElem?_moved hdiscard hi
  obtain ⟨after₀, hpass₀, hdepth⟩ := h.original.passes p j hp hj
  obtain ⟨q, rfl, d₀, hleads, hshift⟩ := hq.of_moved (h.number_succ hanchor hdiscard)
    (h.after_add_before hpass₀ hpass)
  have hpq : code.GoesOn p q := ⟨j, _, _, d₀, hj, hleads⟩
  have hreach := hp.goesOn hpq
  rw [← hdepth q d₀ hleads] at hshift
  by_cases hin : anchor < p ∧ p < discard
  · -- A `nop` in between goes on to the next one, or to what stood behind the `pop`.
    obtain rfl := (h.spliced.goesOn_iff hin.1.le hin.2.le).mp hpq
    rw [lower, if_pos hin] at he
    exact ⟨extra, fun _ => rfl, h.stands_behind hreach (by omega) hin.2 (by omega)⟩
  · have hne : q ≠ discard := by
      rintro rfl
      have := h.succ_eq_discard hpq
      have := h.spliced.lt
      omega
    rw [lower, if_neg hin] at he
    by_cases hin' : anchor < q ∧ q < discard
    · -- Control comes in from the side: nothing has taken the slot that the `pop` does not take.
      have hside : code.EntersBetween anchor discard :=
        ⟨q, hin'.1, hin'.2, .inr ⟨p, hp, by omega, hpq⟩⟩
      refine ⟨extra + 1, fun hnot => absurd hside hnot, .moved hne hreach ?_⟩
      rw [lower, if_pos hin']
      omega
    · refine ⟨extra, fun _ => rfl, .moved hne hreach ?_⟩
      rw [lower, if_neg hin']
      omega

/-- Within the handler call control goes on to the next instruction of it, or out of it. -/
theorem stands_step_called [Build]
    (h : SplicedBody pool pool' code code' anchor discard call f depth)
    (hcall : Instructions.Consumes pool' call height) {k : Nat} (hk : k < call.length)
    (hp : code.Reaches anchor) (he : e + 1 = depth (anchor + 1) + extra + height k)
    {i : Instruction} {after d : Nat} (hi : code'.instructions[anchor + 1 + k]? = some i)
    (hpass : i.Passes pool' e after) (hq : i.Leads (anchor + 1 + k) e after q d) :
    Stands code anchor discard call f depth height extra q d := by
  rw [h.spliced.put k hk] at hi
  obtain ⟨effect, heffect, hpops, rfl, -⟩ := hpass
  obtain ⟨-, hheight⟩ := hcall.step k i effect hi heffect
  obtain ⟨rfl, rfl⟩ := hq.of_sequential (h.flow i (List.mem_of_getElem? hi))
  have hk : k + 1 ≤ call.length := hk
  rcases Nat.eq_or_lt_of_le hk with hlast | hnext
  · -- The last instruction of the call leaves what lies below the result of the anchor.
    have hfinish := hcall.finish
    rw [← hlast] at hfinish
    have hstands : Stands code anchor discard call f depth height extra
        (anchor + 1 + call.length) (e - effect.pops + effect.pushes) :=
      h.stands_anchor_succ hp (by omega)
    rwa [← hlast] at hstands
  · refine .called (k := k + 1) hnext hp ?_
    omega

/-- Wherever control arrives, the original body tells where it stands. -/
theorem stands_of_arrives [Build]
    (h : SplicedBody pool pool' code code' anchor discard call f depth)
    (hcall : Instructions.Consumes pool' call height) (hr : code'.Arrives pool' r e) :
    ∃ extra, (¬code.EntersBetween anchor discard → extra = 0) ∧
      Stands code anchor discard call f depth height extra r e := by
  have hlt := h.spliced.lt
  -- The induction is on the way that control takes; `extra` grows where it comes in from the side.
  induction hr with
  | start =>
    have hstart : Stands code anchor discard call f depth height 0 (f 0) 0 := by
      refine .moved (by omega) .start ?_
      rw [lower, if_neg (by omega), h.original.start]
    rw [h.number_of_le (Nat.zero_le _)] at hstart
    exact ⟨0, fun _ => rfl, hstart⟩
  | @handler handler' hh' =>
    obtain ⟨handler, hh, rfl⟩ := h.of_handler_moved hh'
    have hdepth := h.original.handlers handler hh
    have hreach : code.Reaches handler.entry := .handler hh
    have hne := h.spliced.notEntered handler hh
    by_cases hin : anchor < handler.entry ∧ handler.entry < discard
    · have hside : code.EntersBetween anchor discard :=
        ⟨handler.entry, hin.1, hin.2, .inl ⟨handler, hh, rfl⟩⟩
      refine ⟨1, fun hnot => absurd hside hnot, .moved hne hreach ?_⟩
      rw [lower, if_pos hin, hdepth]
    · refine ⟨0, fun _ => rfl, .moved hne hreach ?_⟩
      rw [lower, if_neg hin, hdepth]
  | step _ hi hpass hq ih =>
    obtain ⟨extra, hextra, hstands⟩ := ih
    cases hstands with
    | @moved p _ hp hreach he =>
      by_cases hanchor : p = anchor
      · subst hanchor
        rw [lower, if_neg (by omega)] at he
        rw [h.number_of_le le_rfl] at hi hq
        exact ⟨extra, hextra, h.stands_step_anchor hcall hreach he hi hpass hq⟩
      · obtain ⟨extra', hextra', hstands⟩ :=
          h.stands_step_moved height hanchor hp hreach he hi hpass hq
        exact ⟨extra', fun hnot => (hextra' hnot).trans (hextra hnot), hstands⟩
    | called hk hreach he =>
      exact ⟨extra, hextra, h.stands_step_called hcall hk hreach he hi hpass hq⟩

/-! ### No instruction is short of operands -/

/-- No instruction of a spliced body takes more than there is, whichever way control has come. -/
theorem pops_le [Build] (h : SplicedBody pool pool' code code' anchor discard call f depth)
    (hcall : Instructions.Consumes pool' call height)
    (hresult : code.Reaches anchor → 1 ≤ depth (anchor + 1)) (hr : code'.Arrives pool' r e)
    {i : Instruction} (hi : code'.instructions[r]? = some i) {effect : StackEffect}
    (heffect : i.stackEffect pool' = .ok effect) : effect.pops ≤ e := by
  obtain ⟨extra, -, hstands⟩ := h.stands_of_arrives hcall hr
  cases hstands with
  | @moved p _ hp hreach he =>
    obtain ⟨j, hj, rfl⟩ := h.of_getElem?_moved hp hi
    rw [Instruction.stackEffect_mapTargets] at heffect
    by_cases hin : anchor < p ∧ p < discard
    · -- Nothing is taken where the stack is lower.
      obtain ⟨j', hj', hnop⟩ := h.spliced.nops p hin.1 hin.2
      obtain rfl := Option.some.inj (hj.symm.trans hj')
      rw [Instruction.stackEffect_of_isNop hnop] at heffect
      obtain rfl := Except.ok.inj heffect
      exact Nat.zero_le _
    · rw [lower, if_neg hin] at he
      obtain ⟨after, hpass, -⟩ := h.original.passes p j hreach hj
      have := ((hpass.of_extends h.extension).eq heffect).1
      omega
  | @called k _ hk hreach he =>
    -- The call takes what it has pushed itself and the result of the anchor.
    rw [h.spliced.put k hk] at hi
    have := (hcall.step k i effect hi heffect).1
    have := hresult hreach
    omega

/-! ### One depth for each position -/

/-- Nothing that has moved stands in the handler call. -/
theorem number_ne_called [Build] (h : SplicedBody pool pool' code code' anchor discard call f depth)
    {k : Nat} (hk : k < call.length) : f p ≠ anchor + 1 + k := by
  have hlt := h.spliced.lt
  have := Renumber.spliced_cases hlt call.length p
  rw [h.number]
  omega

theorem of_stands_moved [Build] (h : SplicedBody pool pool' code code' anchor discard call f depth)
    (hp : p ≠ discard) (hstands : Stands code anchor discard call f depth height extra (f p) e) :
    code.Reaches p ∧ e + lower anchor discard p = depth p + extra := by
  generalize hr : f p = r at hstands
  cases hstands with
  | @moved q _ hq hreach he =>
    obtain rfl := h.number_inj hp hq hr
    exact ⟨hreach, he⟩
  | called hk => exact absurd hr (h.number_ne_called hk)

theorem of_stands_called [Build] (h : SplicedBody pool pool' code code' anchor discard call f depth)
    {k : Nat} (hk : k < call.length)
    (hstands : Stands code anchor discard call f depth height extra (anchor + 1 + k) e) :
    code.Reaches anchor ∧ e + 1 = depth (anchor + 1) + extra + height k := by
  generalize hr : anchor + 1 + k = r at hstands
  cases hstands with
  | moved => exact absurd hr.symm (h.number_ne_called hk)
  | @called k' _ _ hreach he =>
    obtain rfl : k = k' := by omega
    exact ⟨hreach, he⟩

theorem stands_unique [Build] (h : SplicedBody pool pool' code code' anchor discard call f depth)
    {d d' : Nat} (hd : Stands code anchor discard call f depth height extra r d)
    (hd' : Stands code anchor discard call f depth height extra r d') : d = d' := by
  cases hd with
  | moved hp _ he =>
    have := (h.of_stands_moved hp hd').2
    omega
  | called hk _ he =>
    have := (h.of_stands_called hk hd').2
    omega

/-- An instruction that stays where the stack is lower does nothing; every other one is passed as it
was, and the handler call is passed if there is room for it. -/
theorem exists_passes [Build] (h : SplicedBody pool pool' code code' anchor discard call f depth)
    (hcall : Instructions.Consumes pool' call height)
    (hknown : ∀ i ∈ call, ∃ effect, i.stackEffect pool' = .ok effect)
    (hresult : code.Reaches anchor → 1 ≤ depth (anchor + 1))
    (hroom : code.Reaches anchor → ∀ k ≤ call.length,
      depth (anchor + 1) + height k ≤ maxStackSlots + 1)
    (hstands : Stands code anchor discard call f depth height 0 r e) :
    ∃ i after, code'.instructions[r]? = some i ∧ i.Passes pool' e after := by
  cases hstands with
  | @moved p _ hp hreach he =>
    have hinside := h.original.inside p hreach
    have hi := List.getElem?_eq_getElem hinside
    obtain ⟨after, hpass, -⟩ := h.original.passes p _ hreach hi
    obtain ⟨effect, heffect, hpops, hafter, hle⟩ := hpass.of_extends h.extension
    refine ⟨_, e - effect.pops + effect.pushes, h.getElem?_moved hp hi, effect, ?_, ?_, rfl, ?_⟩
    · rw [Instruction.stackEffect_mapTargets]
      exact heffect
    all_goals
      by_cases hin : anchor < p ∧ p < discard
      · -- A `nop` passes with any depth.
        obtain ⟨j, hj, hnop⟩ := h.spliced.nops p hin.1 hin.2
        obtain rfl := Option.some.inj (hi.symm.trans hj)
        rw [Instruction.stackEffect_of_isNop hnop] at heffect
        obtain rfl := Except.ok.inj heffect
        rw [lower, if_pos hin] at he
        simp only at hafter ⊢
        omega
      · rw [lower, if_neg hin] at he
        omega
  | @called k _ hk hreach he =>
    have hi := List.getElem?_eq_getElem hk
    obtain ⟨effect, heffect⟩ := hknown _ (List.getElem_mem hk)
    obtain ⟨hpops, hheight⟩ := hcall.step k _ effect hi heffect
    have hdepth := hresult hreach
    have hle := hroom hreach (k + 1) hk
    refine ⟨_, e - effect.pops + effect.pushes, (h.spliced.put k hk).trans hi, effect, heffect,
      ?_, rfl, ?_⟩
    all_goals omega

/-- Where control comes between the anchor and the `pop` from the anchor only, there is one depth
for each position of the spliced body. -/
theorem exists_isAssignment [Build]
    (h : SplicedBody pool pool' code code' anchor discard call f depth)
    (hcall : Instructions.Consumes pool' call height)
    (hknown : ∀ i ∈ call, ∃ effect, i.stackEffect pool' = .ok effect)
    (hresult : code.Reaches anchor → 1 ≤ depth (anchor + 1))
    (hroom : code.Reaches anchor → ∀ k ≤ call.length,
      depth (anchor + 1) + height k ≤ maxStackSlots + 1)
    (hside : ¬code.EntersBetween anchor discard) : ∃ depth', code'.IsAssignment pool' depth' := by
  -- Control never comes in from the side, so the original body tells the one depth everywhere.
  have hstands : ∀ r e, code'.Arrives pool' r e →
      Stands code anchor discard call f depth height 0 r e := by
    intro r e hr
    obtain ⟨extra, hextra, hstands⟩ := h.stands_of_arrives hcall hr
    rwa [hextra hside] at hstands
  refine Code.exists_isAssignment (fun r d d' hd hd' => ?_) fun r e hr => ?_
  · exact h.stands_unique (hstands r d hd) (hstands r d' hd')
  · exact h.exists_passes hcall hknown hresult hroom (hstands r e hr)

end SplicedBody

/-! ### The body that a splice leaves -/

namespace Spliced

/-- The position that the instruction taken out had in the original body. -/
def discard (s : Spliced) : Nat := s.removed - (s.stop - s.start)

/-- The new number of a position of the original body. -/
def moved (s : Spliced) (position : Nat) : Nat :=
  Renumber.removed s.removed (Renumber.inserted s.start (s.stop - s.start) position)

end Spliced

section Splice

variable {method : Method} {anchor : Nat} {injection : Injection} {spliced : Spliced}
  {draft draft' : Draft} {m : HandlerMembers} {depth : Nat → Nat}

theorem IsSplice.body [Build] (h : IsSplice method anchor injection spliced draft draft' m)
    (hdepth : draft.code.IsAssignment draft.pool depth) :
    SplicedBody draft.pool draft'.pool draft.code draft'.code anchor spliced.discard
      (m.call spliced.slot .int) spliced.moved depth := by
  obtain ⟨discard, hremoved, hspliced⟩ := h.isSpliced
  have hcount : spliced.stop - spliced.start = 11 := by
    rw [h.stop, h.start]
    omega
  have hdiscard : spliced.discard = discard := by
    rw [Spliced.discard, hcount, hremoved, Nat.add_sub_cancel]
  rw [hdiscard]
  refine ⟨hspliced, ?_, h.extension, m.flow_call spliced.slot, hdepth⟩
  funext p
  rw [Spliced.moved, hcount, hremoved, h.start]
  rfl

/-- The anchor pushes one slot, if what it pops can be counted. -/
theorem IsSplice.effect_anchor [Build]
    (h : IsSplice method anchor injection spliced draft draft' m) :
    ∃ i, draft.code.instructions[anchor]? = some i ∧ i.flow = .sequential ∧
      ∀ effect, i.stackEffect draft.pool = .ok effect → effect.pushes = 1 := by
  obtain ⟨callee, dispatch, d, hi, hd, hresult⟩ := h.callee
  have hslots : d.resultSlots = 1 := by
    obtain ⟨t, ht, hkind⟩ := Option.map_eq_some_iff.mp hresult
    rw [MethodDescriptor.resultSlots, ht, Option.map_some, Option.getD_some, FieldType.slots, hkind]
    rfl
  refine ⟨_, hi, Instruction.flow_invoke callee dispatch, fun effect heffect => ?_⟩
  obtain ⟨d', hd', heffect⟩ := Bytes.bind_eq_ok_iff.mp heffect
  obtain rfl := Except.ok.inj (hd.symm.trans hd')
  obtain ⟨slots, -, heffect⟩ := Bytes.bind_eq_ok_iff.mp heffect
  obtain rfl := Except.ok.inj heffect
  exact hslots

/-- Behind the anchor stands what it has left and its result. -/
theorem IsSplice.depth_behind [Build] (h : IsSplice method anchor injection spliced draft draft' m)
    (hdepth : draft.code.IsAssignment draft.pool depth) (hp : draft.code.Reaches anchor)
    {i : Instruction} {effect : StackEffect} (hi : draft.code.instructions[anchor]? = some i)
    (heffect : i.stackEffect draft.pool = .ok effect) :
    depth (anchor + 1) = depth anchor - effect.pops + 1 := by
  obtain ⟨j, hj, hflow, hpushes⟩ := h.effect_anchor
  obtain rfl := Option.some.inj (hi.symm.trans hj)
  obtain ⟨after, hpass, hleads⟩ := hdepth.passes anchor i hp hi
  rw [hleads _ _ (.behind (.inl hflow)), (hpass.eq heffect).2, hpushes effect heffect]

theorem IsSplice.pos_depth_behind [Build]
    (h : IsSplice method anchor injection spliced draft draft' m)
    (hdepth : draft.code.IsAssignment draft.pool depth) (hp : draft.code.Reaches anchor) :
    1 ≤ depth (anchor + 1) := by
  obtain ⟨i, hi, -⟩ := h.effect_anchor
  obtain ⟨after, ⟨effect, heffect, -⟩, -⟩ := hdepth.passes anchor i hp hi
  rw [h.depth_behind hdepth hp hi heffect]
  exact Nat.le_add_left _ _

end Splice

end ClassGraft
