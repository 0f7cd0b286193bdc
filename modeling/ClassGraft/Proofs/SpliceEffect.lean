/-
What a splice does to a survey.

Where nothing leads between the anchor and the `pop` but the anchor, the spliced body has depths as
well, and its survey differs from that of the original body in three ways only: the instructions
between the two are entered with one slot less, the handler call is new, and the deepest stack may
be that of the handler call (`SplicedDepths.maxStack_eq`).  A splice is surveyed accordingly
(`survey_splice`).
-/
import ClassGraft.Proofs.PatchedDepths
import ClassGraft.Proofs.SplicedArrivals

namespace ClassGraft

namespace Code

/-- Only the anchor leads between itself and the `pop` if neither a handler nor a branch does. -/
theorem not_entersBetween {code : Code} {anchor discard : Nat}
    (h : ∀ p, anchor < p → p < discard → (∀ i ∈ code.instructions, p ∉ i.targets) ∧
      ∀ handler ∈ code.handlers, handler.entry ≠ p) : ¬code.EntersBetween anchor discard := by
  rintro ⟨p, hlt, hlt', hentered⟩
  obtain ⟨htargets, hentries⟩ := h p hlt hlt'
  rcases hentered with ⟨handler, hh, hentry⟩ | ⟨q, -, hout, i, before, after, d, hi, hleads⟩
  · exact hentries handler hh hentry
  · -- Nothing outside stands directly before a position in between.
    cases hleads with
    | behind => omega
    | target _ ht => exact htargets i (List.mem_of_getElem? hi) ht
    | resumed => omega

end Code

namespace SplicedBody

variable {pool pool' : ConstantPool} {code code' : Code} {anchor discard p : Nat}
  {call : Instructions} {f depth : Nat → Nat}

/-- Control that comes between the anchor and the `pop` has passed the anchor, and the stack is as
deep as behind it. -/
theorem depth_between [Build] (h : SplicedBody pool pool' code code' anchor discard call f depth)
    (hside : ¬code.EntersBetween anchor discard) (hp : code.Reaches p) (hlt : anchor < p)
    (hle : p ≤ discard) : code.Reaches anchor ∧ depth p = depth (anchor + 1) := by
  -- Control takes the positions in between one after the other, and they are all `nop`s.
  induction hp with
  | start => exact absurd hlt (Nat.not_lt_zero _)
  | @handler handler hh =>
    have hentry := h.spliced.notEntered handler hh
    exact absurd ⟨handler.entry, hlt, by omega, .inl ⟨handler, hh, rfl⟩⟩ hside
  | @step q p before after d i hq hi hleads ih =>
    have hqp : code.GoesOn q p := ⟨i, before, after, d, hi, hleads⟩
    have hin : anchor ≤ q ∧ q < discard := by
      by_contra hout
      rcases Nat.eq_or_lt_of_le hle with rfl | hlt'
      · have := h.succ_eq_discard hqp
        omega
      · -- Control that leads here from behind the `pop` comes from the `pop` or enters.
        have hne : q ≠ discard := by
          rintro rfl
          have := (h.spliced.goesOn_iff h.spliced.lt.le le_rfl).mp hqp
          omega
        exact hside ⟨p, hlt, hlt', .inr ⟨q, hq, by omega, hqp⟩⟩
    obtain rfl := (h.spliced.goesOn_iff hin.1 hin.2.le).mp hqp
    rcases Nat.eq_or_lt_of_le hin.1 with rfl | hlt'
    · exact ⟨hq, rfl⟩
    · obtain ⟨hanchor, hdepth⟩ := ih hlt' hin.2.le
      obtain ⟨j, hj, hnop⟩ := h.spliced.nops q hlt' hin.2
      obtain ⟨after', hpass, hbehind⟩ := h.original.passes q j hq hj
      have hsame := hpass.eq (Instruction.stackEffect_of_isNop hnop pool)
      have := hbehind _ _ (.behind (.inl (Instruction.flow_of_isNop hnop)))
      exact ⟨hanchor, by omega⟩

end SplicedBody

namespace SplicedDepths

variable {pool pool' : ConstantPool} {code code' : Code} {anchor discard p : Nat}
  {call : Instructions} {f depth depth' height : Nat → Nat}

/-- In the handler call the stack is as deep as its instructions say. -/
theorem depth_called [Build]
    (h : SplicedDepths pool pool' code code' anchor discard call f depth depth')
    (hcall : Instructions.Consumes pool' call height)
    (hside : ¬code.EntersBetween anchor discard) (hp : code.Reaches anchor) {k : Nat}
    (hk : k < call.length) : code'.Reaches (anchor + 1 + k) ∧
      depth' (anchor + 1 + k) + 1 = depth (anchor + 1) + height k := by
  have hlt := h.spliced.lt
  have hp' := h.reaches_moved hp
  rw [h.body.number_of_le le_rfl] at hp'
  obtain ⟨callee, dispatch, hinvoke⟩ := h.spliced.anchored
  have hinvoke' := h.body.getElem?_moved (Nat.ne_of_lt hlt) hinvoke
  rw [h.body.number_of_le le_rfl] at hinvoke'
  have hbehind : code'.Reaches (anchor + 1) :=
    .step hp' hinvoke' (show (Instruction.invoke callee dispatch).Leads anchor 0 0 (anchor + 1) 0
      from .behind (.inl (Instruction.flow_invoke callee dispatch)))
  -- The first `k` instructions of the call are a straight run.
  have hlength : (call.take k).length = k := by rw [List.length_take, Nat.min_eq_left hk.le]
  have hrun : ∀ j < (call.take k).length,
      code'.instructions[anchor + 1 + j]? = (call.take k)[j]? := by
    intro j hj
    rw [hlength] at hj
    rw [List.getElem?_take_of_lt hj, h.spliced.put j (by omega)]
  have hreach := (h.patched.pass hbehind hrun fun i hi => h.flow i (List.mem_of_mem_take hi)).1
  rw [hlength] at hreach
  obtain ⟨extra, hextra, hstands⟩ :=
    h.body.stands_of_arrives hcall (h.patched.arrives hreach)
  rw [hextra hside] at hstands
  exact ⟨hreach, (h.body.of_stands_called hk hstands).2⟩

/-- Nothing is deeper than in the original body but the handler call. -/
theorem height_le [Build]
    (h : SplicedDepths pool pool' code code' anchor discard call f depth depth')
    (hcall : Instructions.Consumes pool' call height)
    (hside : ¬code.EntersBetween anchor discard) {m m' peak : Nat}
    (hm : m ∈ upperBounds {m | StackDepth.IsHeight code pool m})
    (hpeak : ∀ k < call.length, height (k + 1) ≤ peak)
    (hm' : StackDepth.IsHeight code' pool' m') :
    m' ≤ m ∨ code.Reaches anchor ∧ m' + 1 ≤ depth (anchor + 1) + peak := by
  rcases hm' with ⟨hhandlers, rfl⟩ | ⟨r, e, i, hr, hi, hpass⟩
  · refine .inl (hm (.inl ⟨fun hnil => hhandlers ?_, rfl⟩))
    rw [h.spliced.handlers, hnil, List.map_nil]
  · obtain ⟨extra, hextra, hstands⟩ := h.body.stands_of_arrives hcall hr
    rw [hextra hside] at hstands
    cases hstands with
    | @moved p _ hp hreach he =>
      -- What has moved is entered with the depth of the original body, or one slot less.
      obtain ⟨j, hj, rfl⟩ := h.body.of_getElem?_moved hp hi
      obtain ⟨after, hpass₀, -⟩ := h.original.passes p j hreach hj
      have hshift := h.body.after_add_before hpass₀ hpass
      have hle : after ≤ m := hm (.inr ⟨p, _, j, h.original.arrives hreach, hj, hpass₀⟩)
      exact .inl (by omega)
    | @called k _ hk hreach he =>
      rw [h.spliced.put k hk] at hi
      obtain ⟨effect, heffect, hpops, rfl, -⟩ := hpass
      have := (hcall.step k i effect hi heffect).2
      have := hpeak k hk
      exact .inr ⟨hreach, by omega⟩

/-- What is deepest in the original body is still there, unless it is between the anchor and the
`pop`. -/
theorem exists_height_le [Build]
    (h : SplicedDepths pool pool' code code' anchor discard call f depth depth')
    (hside : ¬code.EntersBetween anchor discard) {m : Nat} (hm : StackDepth.IsHeight code pool m) :
    StackDepth.IsHeight code' pool' m ∨ code.Reaches anchor ∧ m ≤ depth (anchor + 1) := by
  rcases (StackDepth.isHeight_iff h.original).mp hm with ⟨hhandlers, rfl⟩ | ⟨p, i, hp, hi, hpass⟩
  · refine .inl (.inl ⟨?_, rfl⟩)
    rw [h.spliced.handlers]
    exact fun hnil => hhandlers (List.map_eq_nil_iff.mp hnil)
  · rcases h.depth_of_not_entersBetween hside hp with ⟨hlt, hle, -⟩ | ⟨hout, hdepth⟩
    · obtain ⟨hanchor, hsame⟩ := h.body.depth_between hside hp hlt hle
      -- Neither the `nop`s nor the `pop` leave more than the anchor has.
      refine .inr ⟨hanchor, ?_⟩
      rcases Nat.eq_or_lt_of_le hle with rfl | hlt'
      · obtain rfl := Option.some.inj (hi.symm.trans h.spliced.pop)
        have hpop : 1 ≤ depth p ∧ m = depth p - 1 + 0 := hpass.eq rfl
        omega
      · obtain ⟨j, hj, hnop⟩ := h.spliced.nops p hlt hlt'
        obtain rfl := Option.some.inj (hi.symm.trans hj)
        have hnop := hpass.eq (Instruction.stackEffect_of_isNop hnop pool)
        omega
    · have hp' : p ≠ discard := by
        have := h.spliced.lt
        omega
      refine .inl ((StackDepth.isHeight_iff h.patched).mpr
        (.inr ⟨f p, _, h.reaches_moved hp, h.body.getElem?_moved hp' hi, ?_⟩))
      rw [hdepth]
      obtain ⟨effect, heffect, hpass⟩ := hpass.of_extends h.extension
      exact ⟨effect, (Instruction.stackEffect_mapTargets _ _ _).trans heffect, hpass⟩

/-- The deepest stack of a spliced body is the original one, or that of the handler call if control
reaches it. -/
theorem maxStack_eq [Build]
    (h : SplicedDepths pool pool' code code' anchor discard call f depth depth')
    (hcall : Instructions.Consumes pool' call height)
    (hside : ¬code.EntersBetween anchor discard) {m m' peak : Nat}
    (hm : IsGreatest {m | StackDepth.IsHeight code pool m} m)
    (hm' : IsGreatest {m | StackDepth.IsHeight code' pool' m} m')
    (hpeak : ∀ k < call.length, height (k + 1) ≤ peak)
    (hreached : ∃ k < call.length, height (k + 1) = peak) (hpos : 0 < peak) :
    (code.Reaches anchor → m' + 1 = max (m + 1) (depth (anchor + 1) + peak)) ∧
      (¬code.Reaches anchor → m' = m) := by
  have hle := h.height_le hcall hside hm.2 hpeak hm'.1
  have hge := h.exists_height_le hside hm.1
  have hmax : ∀ k, StackDepth.IsHeight code' pool' k → k ≤ m' := fun _ hk => hm'.2 hk
  refine ⟨fun hanchor => ?_, fun hanchor => ?_⟩
  · -- Both bounds are attained: the original one outside, and `peak` in the call.
    obtain ⟨k, hk, hheight⟩ := hreached
    obtain ⟨hreach, hdepth⟩ := h.depth_called hcall hside hanchor hk
    have hi := (h.spliced.put k hk).trans (List.getElem?_eq_getElem hk)
    obtain ⟨after, hpass, -⟩ := h.patched.passes _ _ hreach hi
    have hafter := hmax after ((StackDepth.isHeight_iff h.patched).mpr
      (.inr ⟨_, _, hreach, hi, hpass⟩))
    obtain ⟨effect, heffect, hpops, rfl, -⟩ := hpass
    have := (hcall.step k _ effect (List.getElem?_eq_getElem hk) heffect).2
    have := hge.imp_left (hmax m)
    omega
  · have := hge.imp_left (hmax m)
    rcases hle with hle | ⟨hreach, -⟩
    · rcases this with hge | ⟨hreach, -⟩
      · omega
      · exact absurd hreach hanchor
    · exact absurd hreach hanchor

/-! ### The two surveys -/

section Surveys

variable {label label' : String} {o o' : StackDepths}

/-- Outside the anchor and the `pop` the surveys agree. -/
theorem survey_outside [Build]
    (h : SplicedDepths pool pool' code code' anchor discard call f depth depth')
    (hside : ¬code.EntersBetween anchor discard) (ho : StackDepth.survey code pool label = .ok o)
    (ho' : StackDepth.survey code' pool' label' = .ok o') (hp : p < code.instructions.length)
    (hout : p ≤ anchor ∨ discard < p) : o'.depths[f p]? = o.depths[p]? := by
  have hlt := h.spliced.lt
  obtain ⟨hreached, hnot⟩ := h.survey_moved ho ho' hp (by omega)
  by_cases hreach : code.Reaches p
  · rw [(hreached hreach).1, (hreached hreach).2]
    rcases h.depth_of_not_entersBetween hside hreach with ⟨hlt, hle, -⟩ | ⟨-, hsame⟩
    · omega
    · rw [hsame]
  · rw [(hnot hreach).1, (hnot hreach).2]

/-- Between the anchor and the `pop` the survey of the spliced body finds one slot less. -/
theorem survey_between [Build]
    (h : SplicedDepths pool pool' code code' anchor discard call f depth depth')
    (hside : ¬code.EntersBetween anchor discard) (ho : StackDepth.survey code pool label = .ok o)
    (ho' : StackDepth.survey code' pool' label' = .ok o') (hlt : anchor < p) (hlt' : p < discard) :
    o.depths[p]? = some none ∧ o'.depths[f p]? = some none ∨
      ∃ d, o.depths[p]? = some (some (d + 1)) ∧ o'.depths[f p]? = some (some d) := by
  have hp := hlt'.trans (List.getElem?_eq_some_iff.mp h.spliced.pop).1
  obtain ⟨hreached, hnot⟩ := h.survey_moved ho ho' hp hlt'.ne
  by_cases hreach : code.Reaches p
  · obtain ⟨hdepth, hdepth'⟩ := hreached hreach
    rcases h.depth_of_not_entersBetween hside hreach with ⟨-, -, hlower⟩ | ⟨hout, -⟩
    · exact .inr ⟨depth' (f p), by rw [hdepth, hlower], hdepth'⟩
    · exact absurd ⟨hlt, hlt'.le⟩ hout
  · exact .inl (hnot hreach)

end Surveys

end SplicedDepths

/-! ### The survey of a spliced body -/

/-- A handler call needs seven slots at most, for the handler and what it takes. -/
theorem HandlerMembers.height_le (k : Nat) : height k ≤ 7 := by
  rcases Nat.lt_or_ge k 11 with hk | hk
  · exact (by decide : ∀ k < 11, height k ≤ 7) k hk
  · rw [height, List.getD_eq_default _ _ hk]
    exact Nat.zero_le _

/-- Where nothing but the anchor leads between the anchor and the `pop` and the stack has room for
the handler call, the body that a splice leaves has depths. -/
theorem IsSplice.exists_depths [Build] {method : Method} {anchor : Nat} {injection : Injection}
    {spliced : Spliced} {draft draft' : Draft} {m : HandlerMembers} {depth : Nat → Nat}
    (h : IsSplice method anchor injection spliced draft draft' m)
    (hdepth : draft.code.IsAssignment draft.pool depth)
    (hne : injection.config.handlerClass ≠ "")
    (hsemicolon : ';' ∉ injection.config.handlerClass.toList)
    (hside : ¬draft.code.EntersBetween anchor spliced.discard)
    (hroom : draft.code.Reaches anchor → depth (anchor + 1) + 6 ≤ maxStackSlots) :
    ∃ depth', SplicedDepths draft.pool draft'.pool draft.code draft'.code anchor spliced.discard
      (m.call spliced.slot .int) spliced.moved depth depth' := by
  have hbody := h.body hdepth
  obtain ⟨depth', hdepth'⟩ := hbody.exists_isAssignment
    (HandlerMembers.consumes_call h.members draft'.pool spliced.slot)
    (HandlerMembers.exists_effect_call h.members hne hsemicolon) (h.pos_depth_behind hdepth)
    (fun hp k _ => by
      have := hroom hp
      have := HandlerMembers.height_le k
      omega) hside
  exact ⟨depth', hbody.spliced, hbody.number, hbody.extension, hbody.flow,
    fun _ _ => HandlerMembers.pass_call h.members, hdepth, hdepth'⟩

/-- A body that can be surveyed can be surveyed after a splice, if nothing but the anchor leads
between the anchor and the `pop` and the stack has room for the handler call.  What is between the
two is entered with one slot less, everything else that stays with as many as before, and the
deepest stack is the original one or that of the handler call. -/
theorem survey_splice [Build] {method : Method} {anchor : Nat} {injection : Injection}
    {spliced : Spliced}
    {code : Code} {pool : ConstantPool} {log : List LogLine} {s' : Traced Draft} {label : String}
    {o : StackDepths} {i : Instruction} {effect : StackEffect}
    (h : splice method anchor injection ⟨⟨code, pool⟩, log⟩ = .ok spliced s')
    (ho : StackDepth.survey code pool label = .ok o)
    (hi : code.instructions[anchor]? = some i) (heffect : i.stackEffect pool = .ok effect)
    (hne : injection.config.handlerClass ≠ "")
    (hsemicolon : ';' ∉ injection.config.handlerClass.toList)
    (hnops : ∀ p, anchor < p → p < spliced.discard → (∀ i ∈ code.instructions, p ∉ i.targets) ∧
      ∀ handler ∈ code.handlers, handler.entry ≠ p)
    (hroom : ∀ d, o.depths[anchor]? = some (some d) → d - effect.pops + 7 ≤ 65535)
    (label' : String) :
    ∃ o', StackDepth.survey s'.value.code s'.value.pool label' = .ok o' ∧
      (∀ p < code.instructions.length, p ≤ anchor ∨ spliced.discard < p →
        o'.depths[spliced.moved p]? = o.depths[p]?) ∧
      (∀ p, anchor < p → p < spliced.discard →
        o.depths[p]? = some none ∧ o'.depths[spliced.moved p]? = some none ∨
        ∃ d, o.depths[p]? = some (some (d + 1)) ∧ o'.depths[spliced.moved p]? = some (some d)) ∧
      (∀ d, o.depths[anchor]? = some (some d) →
        o'.maxStack = max o.maxStack (d - effect.pops + 7)) ∧
      (o.depths[anchor]? = some none → o'.maxStack = o.maxStack) := by
  obtain ⟨m, hspliced⟩ := splice_spec h
  have hlist : code.instructions ≠ [] := List.ne_nil_of_mem (List.mem_of_getElem? hi)
  have hanchor : anchor < code.instructions.length := (List.getElem?_eq_some_iff.mp hi).1
  have hdepth := StackDepth.isAssignment_of_survey hlist ho
  set depth : Nat → Nat := fun p => (o.depths[p]?.join).getD 0
  obtain ⟨hthere, hnowhere⟩ := StackDepth.survey_depths hlist ho hdepth hanchor
  have hbehind : code.Reaches anchor → depth (anchor + 1) = depth anchor - effect.pops + 1 :=
    fun hp => hspliced.depth_behind hdepth hp hi heffect
  have hside := Code.not_entersBetween hnops
  -- The spliced body has depths, so it can be surveyed.
  obtain ⟨depth', hdepths⟩ := hspliced.exists_depths hdepth hne hsemicolon hside fun hp => by
    have hle := hroom _ (hthere hp)
    rw [hbehind hp, maxStackSlots]
    omega
  have hlist' : s'.value.code.instructions ≠ [] :=
    List.ne_nil_of_mem (List.mem_of_getElem? (hdepths.body.getElem?_moved
      (Nat.ne_of_lt hdepths.spliced.lt) hi))
  obtain ⟨o', ho'⟩ := StackDepth.exists_survey hlist' hdepths.patched label'
  refine ⟨o', ho', fun p => hdepths.survey_outside hside ho ho',
    fun p => hdepths.survey_between hside ho ho', ?_⟩
  obtain ⟨-, -, -, hgreatest⟩ := StackDepth.survey_spec hlist ho
  obtain ⟨-, -, -, hgreatest'⟩ := StackDepth.survey_spec hlist' ho'
  -- The call is deepest before its last instruction, the one that calls the handler.
  obtain ⟨hreached, hnot⟩ := hdepths.maxStack_eq
    (HandlerMembers.consumes_call hspliced.members s'.value.pool spliced.slot) hside hgreatest
    hgreatest' (fun k _ => HandlerMembers.height_le (k + 1)) ⟨9, (by decide : 9 < 11), rfl⟩
    (Nat.succ_pos 6)
  refine ⟨fun d hd => ?_, fun hnone => ?_⟩
  · have hp : code.Reaches anchor := by
      by_contra hp
      rw [hnowhere hp] at hd
      exact absurd hd (by simp)
    rw [hthere hp] at hd
    obtain rfl := Option.some.inj (Option.some.inj hd)
    have := hreached hp
    have := hbehind hp
    omega
  · refine hnot fun hp => ?_
    rw [hthere hp] at hnone
    exact absurd hnone (by simp)

/-- A body that does nothing for a while before it discards the result of a call. -/
def idleBody : Code where
  maxStack := 1
  maxLocals := 4
  instructions := [.invoke ⟨14, "A", "tryHarvestBlock", "()Z"⟩ .static, .other 0 [], .pop,
    .exit none]
  handlers := []
  attributes := []

/-- What a splice into `idleBody` needs to know. -/
def idleInjection : Injection where
  config := {}
  mode := .canonical
  owner := "A"
  fields := [("theWorld", ⟨"theWorld", "LW;"⟩), ("thisPlayerMP", ⟨"thisPlayerMP", "LW;"⟩)]

attribute [local instance] Build.checked

/-- Where it does nothing, the result has gone already; the deepest stack is that of the handler
call. -/
theorem survey_splice_idleBody : ∃ s' o',
    splice ⟨1, 8, 9, "uncheckedTryHarvestBlock", "(III)V", [.code 10 idleBody]⟩ 0 idleInjection
      ⟨⟨idleBody, (Transformer.harvestClass idleBody).pool⟩, []⟩ =
        .ok ⟨4, .int, 1, 12, 13⟩ s' ∧
    StackDepth.survey idleBody (Transformer.harvestClass idleBody).pool "" =
      .ok ⟨1, #[some 0, some 1, some 1, some 0]⟩ ∧
    (∀ p, 0 < p → p < Spliced.discard ⟨4, .int, 1, 12, 13⟩ →
      (∀ i ∈ idleBody.instructions, p ∉ i.targets) ∧
        ∀ handler ∈ idleBody.handlers, handler.entry ≠ p) ∧
    StackDepth.survey s'.value.code s'.value.pool "" = .ok o' ∧
    o'.depths[Spliced.moved ⟨4, .int, 1, 12, 13⟩ 3]? = some (some 0) ∧
    (∃ d, some (some 1) = some (some (d + 1)) ∧
      o'.depths[Spliced.moved ⟨4, .int, 1, 12, 13⟩ 1]? = some (some d)) ∧
    o'.maxStack = 7 := by
  obtain ⟨log, hsplice⟩ := Step.eq_ok_of_outcome (show (Step.outcome
    (splice ⟨1, 8, 9, "uncheckedTryHarvestBlock", "(III)V", [.code 10 idleBody]⟩ 0 idleInjection)
    ⟨idleBody, (Transformer.harvestClass idleBody).pool⟩).1 = .ok ⟨4, .int, 1, 12, 13⟩ by
      decide +kernel)
  have hsurvey : StackDepth.survey idleBody (Transformer.harvestClass idleBody).pool "" =
      .ok ⟨1, #[some 0, some 1, some 1, some 0]⟩ := by decide +kernel
  have hnops : ∀ p, 0 < p → p < Spliced.discard ⟨4, .int, 1, 12, 13⟩ →
      (∀ i ∈ idleBody.instructions, p ∉ i.targets) ∧
        ∀ handler ∈ idleBody.handlers, handler.entry ≠ p := by
    intro p hlt hlt'
    have hlt' : p < 2 := hlt'
    obtain rfl : p = 1 := by omega
    decide
  have heffect : (Instruction.invoke ⟨14, "A", "tryHarvestBlock", "()Z"⟩ .static).stackEffect
      (Transformer.harvestClass idleBody).pool = .ok ⟨0, 1⟩ := by decide +kernel
  obtain ⟨o', ho', hkept, hlower, hmax, -⟩ := survey_splice hsplice hsurvey rfl heffect
    (by decide) (by decide) hnops
    (fun d hd => by
      obtain rfl : 0 = d := Option.some.inj (Option.some.inj hd)
      decide) ""
  refine ⟨_, o', hsplice, hsurvey, hnops, ho', hkept 3 (by decide) (.inr (by decide)), ?_,
    hmax 0 rfl⟩
  rcases hlower 1 (by decide) (by decide) with ⟨hnone, -⟩ | hlower
  · exact absurd hnone (by decide)
  · exact hlower

end ClassGraft
