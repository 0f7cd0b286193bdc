/-
Stack depths behind a patch.

The rest of a method relies on the depth of the stack where it returns and where it has a frame
(`Code.ReliesOn`).  A patch keeps all of these depths exactly if a splice disturbs none of them
(`Transformer.keeps_depths_iff`).  It always does where the `pop` follows the anchor at once
(`Code.not_disturbed_of_succ`); where control enters between the two in another way it may not
(`Transformer.depths_enteredBody`).
-/
import ClassGraft.Proofs.DepthShift

namespace ClassGraft

namespace GraftReport

/-- The position that the instruction taken out had in the original body. -/
def discard (report : GraftReport) : Nat := report.removed - report.inserted

/-- The new number of a position of the original body. -/
def moved (report : GraftReport) (position : Nat) : Nat :=
  Renumber.removed report.removed
    (Renumber.inserted (report.anchor + 1) report.inserted position)

end GraftReport

namespace Code

/-- The rest of a method relies on the depth at every return and at every framed instruction. -/
def ReliesOn (code : Code) (p : Nat) : Prop :=
  ∃ i, code.instructions[p]? = some i ∧
    (i.flow = .exit ∨ ∃ frame ∈ code.frames, frame.target = p)

/-- Nothing is disturbed where the `pop` follows the anchor at once. -/
theorem not_disturbed_of_succ (code : Code) (anchor p : Nat) :
    ¬code.Disturbed anchor (anchor + 1) p := by
  rintro (⟨-, hlt, hlt', -⟩ | ⟨⟨q, hlt, hlt', -⟩, -⟩)
  all_goals omega

theorem IsSpliced.ne_discard {code code' : Code} {anchor discard p : Nat} {call : Instructions}
    (h : code.IsSpliced code' anchor discard call) (hp : code.ReliesOn p) : p ≠ discard := by
  rintro rfl
  obtain ⟨i, hi, hexit | ⟨frame, hframe, rfl⟩⟩ := hp
  · obtain rfl := Option.some.inj (hi.symm.trans h.pop)
    exact absurd hexit (by simp [Instruction.flow_pop])
  · exact h.notFramed frame hframe rfl

end Code

/-- A method is found at one place only. -/
theorem findMethod_unique {σ : Type} {c : ClassFile} {mode : NamingMode} {remapper : Remapper}
    {canonical : String} {place place' : Nat} {s s' t t' : Traced σ}
    (h : findMethod c mode remapper canonical s = .ok place s')
    (h' : findMethod c mode remapper canonical t = .ok place' t') : place = place' := by
  obtain ⟨owner, howner, hplace⟩ := exists_findMethod_iff.mp ⟨_, h⟩
  obtain ⟨owner', howner', hplace'⟩ := exists_findMethod_iff.mp ⟨_, h'⟩
  obtain rfl := Except.ok.inj (howner.symm.trans howner')
  exact Option.some.inj (hplace.symm.trans hplace')

namespace Transformer

/-- A patch keeps the depth of the stack at a return or a frame of the method that it changes
exactly if its splice does not disturb it. -/
theorem keeps_depths_iff [Build] {t : Transformer} {mode : NamingMode} {report : GraftReport}
    {c c' : ClassFile} {log log' : List LogLine} {place : Nat} {code : Code}
    {s s' : Traced ClassFile} {label : String} {r : StackDepths}
    (hplace : findMethod c mode t.remapper t.config.targetMethod s = .ok place s')
    (hcode : c.methods[place]?.bind Method.code? = some code)
    (hr : StackDepth.survey code c.pool label = .ok r)
    (h : t.patch mode ⟨c, log⟩ = .ok report ⟨c', log'⟩) :
    ∃ code' r', c'.methods[place]?.bind Method.code? = some code' ∧
      StackDepth.survey code' c'.pool label = .ok r' ∧
      ∀ p, code.ReliesOn p → (r'.depths[report.moved p]? = r.depths[p]? ↔
        ¬code.Disturbed report.anchor report.discard p) := by
  obtain ⟨method, hmethod, hcode⟩ := Option.bind_eq_some_iff.mp hcode
  obtain ⟨place', method', code', injection, spliced, maxima, draft, hpatch⟩ := patch_spec h
  obtain ⟨_, _, hlocated⟩ := hpatch.located
  obtain rfl := findMethod_unique hplace hlocated
  obtain rfl := Option.some.inj (hmethod.symm.trans hpatch.atPlace)
  obtain rfl := Option.some.inj (hcode.symm.trans hpatch.body)
  obtain ⟨_, _, hgraft⟩ := hpatch.grafted
  obtain ⟨s₁, hsplice, hmaxima⟩ := graft_eq_ok_iff.mp hgraft
  obtain ⟨m, hspliced⟩ := splice_spec hsplice
  obtain ⟨discard, hremoved, hmoved⟩ := hspliced.isSpliced
  obtain ⟨depths, _, _, hdepths, -, -, -, hdraft⟩ := remeasure_spec hmaxima
  -- Measuring changes the declared sizes only, which no survey looks at.
  have hdraft : draft = { s₁.value with code := { s₁.value.code with
      maxStack := maxima.maxStack, maxLocals := maxima.maxLocals } } := hdraft
  have hinserted : report.inserted = 11 := by
    rw [hpatch.reported]
    show spliced.stop - spliced.start = 11
    rw [hspliced.stop, hspliced.start]
    omega
  have hreported : report.removed = discard + 11 := by
    rw [← hremoved, hpatch.reported]
  have hnumber : report.moved = Renumber.spliced report.anchor 11 discard := by
    funext p
    rw [GraftReport.moved, hinserted, hreported, Renumber.spliced]
  have hdiscard : report.discard = discard := by
    rw [GraftReport.discard, hinserted, hreported, Nat.add_sub_cancel]
  have hpool : c'.pool = draft.pool := by rw [hpatch.result]
  have hbody : c'.methods[place]?.bind Method.code? = some draft.code := by
    rw [hpatch.getElem?_methods, Option.bind_some, Method.code?_withCode hcode]
  obtain ⟨callee, dispatch, hanchor⟩ := hmoved.anchored
  have hne : code.instructions ≠ [] := List.ne_nil_of_mem (List.mem_of_getElem? hanchor)
  have hne' : s₁.value.code.instructions ≠ [] := by
    have hanchor' := hmoved.moved report.anchor (Nat.ne_of_lt hmoved.lt)
    rw [hanchor] at hanchor'
    exact List.ne_nil_of_mem (List.mem_of_getElem? hanchor')
  have hassigned := StackDepth.isAssignment_of_survey hne' hdepths
  obtain ⟨r', hr'⟩ := StackDepth.exists_survey hne' hassigned label
  have hshift : SplicedDepths c.pool s₁.value.pool code s₁.value.code report.anchor discard
      (m.call spliced.slot .int) report.moved _ _ :=
    ⟨hmoved, hnumber, hspliced.extension, m.flow_call spliced.slot,
      fun _ _ => HandlerMembers.pass_call hspliced.members,
      StackDepth.isAssignment_of_survey hne hr, hassigned⟩
  refine ⟨draft.code, r', hbody, ?_, ?_⟩
  · rw [hpool, hdraft]
    exact hr'
  · rw [hdiscard]
    intro p hp
    obtain ⟨i, hi, -⟩ := id hp
    exact hshift.survey_eq_iff hr hr' hi (hmoved.ne_discard hp)

/-- A class that is changed by default, with a body of the method that is changed. -/
def harvestClass (body : Code) : ClassFile where
  minor := 0
  major := 46
  pool := ⟨#[none, some (.utf8 (ModifiedUtf8.encode "A")), some (.classRef 1),
    some (.utf8 (ModifiedUtf8.encode "java/lang/Object")), some (.classRef 3),
    some (.utf8 (ModifiedUtf8.encode "theWorld")), some (.utf8 (ModifiedUtf8.encode "LW;")),
    some (.utf8 (ModifiedUtf8.encode "thisPlayerMP")),
    some (.utf8 (ModifiedUtf8.encode "uncheckedTryHarvestBlock")),
    some (.utf8 (ModifiedUtf8.encode "(III)V")), some (.utf8 (ModifiedUtf8.encode "Code")),
    some (.utf8 (ModifiedUtf8.encode "tryHarvestBlock")),
    some (.utf8 (ModifiedUtf8.encode "()Z")), some (.nameAndType 11 12), some (.methodRef 2 13),
    some (.utf8 (ModifiedUtf8.encode "StackMapTable"))]⟩
  access := 33
  thisClass := 2
  superClass := 4
  interfaces := []
  fields := [⟨0, 5, 6, "theWorld", "LW;", []⟩, ⟨0, 7, 6, "thisPlayerMP", "LW;", []⟩]
  methods := [⟨1, 8, 9, "uncheckedTryHarvestBlock", "(III)V", [.code 10 body]⟩]
  attributes := []

/-- A body that discards the result of a call at once. -/
def plainBody : Code where
  maxStack := 1
  maxLocals := 4
  instructions := [.invoke ⟨14, "A", "tryHarvestBlock", "()Z"⟩ .static, .pop, .exit none]
  handlers := []
  attributes := []

/-- A body in which control also comes from before the call to the instruction that stands between
the call and the `pop`. -/
def enteredBody : Code where
  maxStack := 1
  maxLocals := 4
  instructions := [.other 4 [], .jump 167 3, .invoke ⟨14, "A", "tryHarvestBlock", "()Z"⟩ .static,
    .other 0 [], .pop, .loadLocal 1 .int, .jump 154 2, .exit none]
  handlers := []
  attributes := []

/-- The class with a body, after a patch. -/
def patchedClass [Build] (body : Code) : ClassFile :=
  (Step.outcome (patch {} .canonical) (harvestClass body)).2.value

attribute [local instance] Build.checked

theorem patch_plainBody : ∃ log, patch {} .canonical ⟨harvestClass plainBody, []⟩ =
    .ok ⟨"A", "uncheckedTryHarvestBlock", "(III)V", 0, 4, 11, 12, 7, 5⟩
      ⟨patchedClass plainBody, log⟩ :=
  Step.eq_ok_of_outcome (by decide +kernel)

/-- Nothing stands between the call and the `pop`, so the depth at the return is kept. -/
theorem keeps_depths_plainBody : ∃ report log s' code' r',
    findMethod (harvestClass plainBody) .canonical .identity "uncheckedTryHarvestBlock"
      ⟨harvestClass plainBody, []⟩ = .ok 0 s' ∧
    (harvestClass plainBody).methods[0]?.bind Method.code? = some plainBody ∧
    StackDepth.survey plainBody (harvestClass plainBody).pool "" =
      .ok ⟨1, #[some 0, some 1, some 0]⟩ ∧
    patch {} .canonical ⟨harvestClass plainBody, []⟩ = .ok report ⟨patchedClass plainBody, log⟩ ∧
    (patchedClass plainBody).methods[0]?.bind Method.code? = some code' ∧
    StackDepth.survey code' (patchedClass plainBody).pool "" = .ok r' ∧
    plainBody.ReliesOn 2 ∧ r'.depths[report.moved 2]? = some (some 0) := by
  obtain ⟨log', hplace⟩ := Step.eq_ok_of_outcome (show (Step.outcome (findMethod
    (harvestClass plainBody) .canonical .identity "uncheckedTryHarvestBlock")
    (harvestClass plainBody)).1 = .ok 0 by decide +kernel)
  obtain ⟨log, hpatch⟩ := patch_plainBody
  have hsurvey : StackDepth.survey plainBody (harvestClass plainBody).pool "" =
      .ok ⟨1, #[some 0, some 1, some 0]⟩ := by decide +kernel
  have hrelies : plainBody.ReliesOn 2 := ⟨.exit none, rfl, .inl (by decide +kernel)⟩
  obtain ⟨code', r', hcode', hr', hkept⟩ := keeps_depths_iff hplace rfl hsurvey hpatch
  exact ⟨_, log, _, code', r', hplace, rfl, hsurvey, hpatch, hcode', hr', hrelies,
    (hkept 2 hrelies).mpr (plainBody.not_disturbed_of_succ 0 2)⟩

/-- Control enters between the call and the `pop` from before the call, and comes from behind the
`pop` to the return: the stack is one slot deeper there after a patch. -/
theorem depths_enteredBody : ∃ report log s' code' r',
    findMethod (harvestClass enteredBody) .canonical .identity "uncheckedTryHarvestBlock"
      ⟨harvestClass enteredBody, []⟩ = .ok 0 s' ∧
    (harvestClass enteredBody).methods[0]?.bind Method.code? = some enteredBody ∧
    StackDepth.survey enteredBody (harvestClass enteredBody).pool "" =
      .ok ⟨1, #[some 0, some 1, some 0, some 1, some 1, some 0, some 1, some 0]⟩ ∧
    patch {} .canonical ⟨harvestClass enteredBody, []⟩ =
      .ok report ⟨patchedClass enteredBody, log⟩ ∧
    (patchedClass enteredBody).methods[0]?.bind Method.code? = some code' ∧
    StackDepth.survey code' (patchedClass enteredBody).pool "" = .ok r' ∧
    enteredBody.ReliesOn 7 ∧ r'.depths[report.moved 7]? = some (some 1) := by
  obtain ⟨log', hplace⟩ := Step.eq_ok_of_outcome (show (Step.outcome (findMethod
    (harvestClass enteredBody) .canonical .identity "uncheckedTryHarvestBlock")
    (harvestClass enteredBody)).1 = .ok 0 by decide +kernel)
  obtain ⟨log, hpatch⟩ := Step.eq_ok_of_outcome (show
    (Step.outcome (patch {} .canonical) (harvestClass enteredBody)).1 =
      .ok ⟨"A", "uncheckedTryHarvestBlock", "(III)V", 2, 4, 11, 15, 8, 5⟩ by decide +kernel)
  have hcode' : (patchedClass enteredBody).methods[0]?.bind Method.code? =
      some (((patchedClass enteredBody).methods[0]?.bind Method.code?).getD enteredBody) := by
    decide +kernel
  have hsurvey' : StackDepth.survey
      (((patchedClass enteredBody).methods[0]?.bind Method.code?).getD enteredBody)
      (patchedClass enteredBody).pool "" =
        .ok ⟨8, #[some 0, some 1, some 1, some 2, some 1, some 2, some 3, some 3, some 4, some 4,
          some 5, some 6, some 7, some 8, some 1, some 1, some 2, some 1]⟩ := by decide +kernel
  exact ⟨_, log, _, _, _, hplace, rfl, by decide +kernel, hpatch, hcode', hsurvey',
    ⟨.exit none, rfl, .inl (by decide +kernel)⟩, rfl⟩

end Transformer

end ClassGraft
