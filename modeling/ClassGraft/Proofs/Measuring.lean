/-
What measuring does to a body.

A measurement that succeeds declares the depth of the stack and the watermark of the locals.  The
size that it declares for the locals is not below the one declared before, and it covers the
parameters and the accesses to locals exactly as far as two bytes can count
(`remeasure_covers_iff`): an access that goes beyond is not refused (`remeasure_topBody`).

A measurement that fails has left the body alone unless the descriptor of the method is at fault,
which is read when the depth of the stack has been declared already (`remeasure_leaves_iff`,
`remeasure_vagueBody`).
-/
import ClassGraft.Proofs.Failing
import ClassGraft.Proofs.Grafting
import ClassGraft.Proofs.LocalSlots
import ClassGraft.Proofs.Running

namespace ClassGraft

open Step

variable {method : Method} {s s' : Traced Draft}

/-! ### A measurement that succeeds -/

/-- The size declared for the locals is the watermark. -/
theorem toNat_maxLocals_of_remeasure [Build] {maxima : Maxima} {slots : Nat}
    (h : remeasure method s = .ok maxima s') (hslots : method.parameterSlots = .ok slots) :
    maxima.maxLocals.toNat = s.value.code.localWatermark slots := by
  obtain ⟨_, _, slots', -, -, hslots', hmaxima, -⟩ := remeasure_spec h
  obtain rfl := Except.ok.inj (hslots.symm.trans hslots')
  have hle := s.value.code.localWatermark_le (Method.parameterSlots_le hslots)
  rw [hmaxima]
  exact UInt16.toNat_ofNat_of_lt' (Nat.lt_succ_of_le hle)

/-- The size declared for the locals is not below the one declared before nor below the slots of
the parameters as they are held, and the parameters, like an access to a local, end within it
exactly if two bytes can count where. -/
theorem remeasure_covers_iff [Build] {maxima : Maxima} {slots : Nat}
    (h : remeasure method s = .ok maxima s') (hslots : method.parameterSlots = .ok slots) :
    s'.value.code = { s.value.code with
      maxStack := maxima.maxStack, maxLocals := maxima.maxLocals } ∧
    s.value.code.maxLocals ≤ maxima.maxLocals ∧ slots ≤ maxima.maxLocals.toNat ∧
    (∀ d, MethodDescriptor.parse method.descriptor = .ok d →
      (d.slotCount (!method.isStatic) ≤ maxima.maxLocals.toNat ↔
        d.slotCount (!method.isStatic) ≤ 65535)) ∧
    ∀ i ∈ s.value.code.instructions, ∀ index width, i.Accesses index width →
      (index + width ≤ maxima.maxLocals.toNat ↔ index + width ≤ 65535) := by
  have hmaxLocals := toNat_maxLocals_of_remeasure h hslots
  have hlimit := s.value.code.localWatermark_le (Method.parameterSlots_le hslots)
  have hparameters := s.value.code.slots_le_localWatermark slots
  obtain ⟨_, _, _, -, -, -, -, hdraft⟩ := remeasure_spec h
  rw [hmaxLocals]
  refine ⟨by rw [hdraft], UInt16.le_iff_toNat_le.mpr ?_, hparameters, fun d hd => ?_,
    fun i hi index width haccess => ?_⟩
  · rw [hmaxLocals]
    exact s.value.code.maxLocals_le_localWatermark slots
  · have hcall := (Method.parameterSlots_eq_ok_iff hd).mp hslots
    exact MethodDescriptor.slotCount_le_iff hcall hparameters hlimit
  · obtain ⟨v, rfl, hv⟩ := haccess.exists_localAccess
    have hend := Code.end_le_localWatermark slots hi hv
    omega

/-- A method with a descriptor and nothing else that measuring looks at. -/
def bareMethod (descriptor : String) : Method := ⟨1, 1, 2, "m", descriptor, []⟩

/-- A draft that refers to no constants. -/
def bareDraft (code : Code) : Draft := ⟨code, ⟨#[none]⟩⟩

/-- A body that needs one local, and one that loads the last local that there can be. -/
def wideningBody : Code := ⟨0, 0, [.other 196 [132, 1, 44, 0, 1], .exit none], [], []⟩

def topBody : Code := ⟨0, 0, [.loadLocal 65535 .int, .pop, .exit none], [], []⟩

attribute [local instance] Build.checked

/-- A widened increment of local 300 takes the size declared for the locals to 301. -/
theorem remeasure_covers_wideningBody : ∃ s',
    remeasure (bareMethod "(J)V") ⟨bareDraft wideningBody, []⟩ = .ok ⟨0, 301, 7⟩ s' ∧
    (bareMethod "(J)V").parameterSlots = .ok 3 ∧ s'.value.code.maxLocals = 301 ∧
    (300 + 1 ≤ (301 : UInt16).toNat ↔ 300 + 1 ≤ 65535) := by
  obtain ⟨log, h⟩ := Step.eq_ok_of_outcome (show (Step.outcome (remeasure (bareMethod "(J)V"))
    (bareDraft wideningBody)).1 = .ok ⟨0, 301, 7⟩ by decide +kernel)
  have hslots : (bareMethod "(J)V").parameterSlots = .ok 3 := by decide +kernel
  obtain ⟨hcode, -, -, -, hcovers⟩ := remeasure_covers_iff h hslots
  exact ⟨_, h, hslots, by rw [hcode], hcovers _ List.mem_cons_self 300 1
    (.wideSingle (.inl rfl) 1 44 [0, 1])⟩

/-- An access to the last local is counted as if it were one to the local in front of it. -/
theorem remeasure_topBody : ∃ s',
    remeasure (bareMethod "()V") ⟨bareDraft topBody, []⟩ = .ok ⟨1, 65535, 6⟩ s' ∧
    ∃ i ∈ topBody.instructions, i.Accesses 65535 1 ∧
      ¬65535 + 1 ≤ s'.value.code.maxLocals.toNat := by
  obtain ⟨log, h⟩ := Step.eq_ok_of_outcome (show (Step.outcome (remeasure (bareMethod "()V"))
    (bareDraft topBody)).1 = .ok ⟨1, 65535, 6⟩ by decide +kernel)
  obtain ⟨_, _, _, -, -, -, -, hdraft⟩ := remeasure_spec h
  refine ⟨_, h, _, List.mem_cons_self, .load 65535 .int, ?_⟩
  rw [hdraft]
  decide

/-! ### A measurement that fails -/

/-- A measurement fails in its survey, in encoding, or where it reads the descriptor; by then the
depth of the stack has been declared. -/
theorem remeasure_error_cases [Build] {fault : Fault} (h : remeasure method s = .error fault s') :
    StackDepth.survey s.value.code s.value.pool method.name = .error fault ∧ s' = s ∨
    (∃ depths, StackDepth.survey s.value.code s.value.pool method.name = .ok depths ∧
      encode method.name s.value.code.instructions = .error fault ∧ s' = s) ∨
    ∃ depths encoded, StackDepth.survey s.value.code s.value.pool method.name = .ok depths ∧
      encode method.name s.value.code.instructions = .ok encoded ∧
      method.parameterSlots = .error fault ∧
      s' = { s with value := { s.value with code := { s.value.code with
        maxStack := UInt16.ofNat depths.maxStack } } } := by
  rcases bind_eq_error_iff.mp h with h | ⟨draft, _, hdraft, h⟩
  · exact absurd h (by simp [current])
  obtain ⟨rfl, rfl⟩ := current_eq_ok_iff.mp hdraft
  rcases bind_eq_error_iff.mp h with h | ⟨depths, _, hdepths, h⟩
  · obtain ⟨hsurvey, rfl⟩ := ofExcept_eq_error_iff.mp h
    exact .inl ⟨hsurvey, rfl⟩
  obtain ⟨hsurvey, rfl⟩ := ofExcept_eq_ok_iff.mp hdepths
  rcases bind_eq_error_iff.mp h with h | ⟨encoded, _, hencoded, h⟩
  · obtain ⟨hencode, rfl⟩ := ofExcept_eq_error_iff.mp h
    exact .inr (.inl ⟨depths, hsurvey, hencode, rfl⟩)
  obtain ⟨hencode, rfl⟩ := ofExcept_eq_ok_iff.mp hencoded
  rcases bind_eq_error_iff.mp h with h | ⟨_, s₁, hset, h⟩
  · exact absurd h (by simp [Draft.setCode])
  rcases bind_eq_error_iff.mp h with h | ⟨slots, _, -, h⟩
  · obtain ⟨hslots, rfl⟩ := ofExcept_eq_error_iff.mp h
    exact .inr (.inr ⟨depths, encoded, hsurvey, hencode, hslots, Draft.setCode_eq_ok_iff.mp hset⟩)
  · -- Nothing fails any more.
    exact absurd h (by simp [Draft.setCode, note, bind, EStateM.bind, pure, EStateM.pure])

/-- A measurement that fails leaves the pool and the log alone, and the body as well unless survey
and encoding have succeeded with another depth than the one declared.  Then the descriptor is at
fault, unless its slots have stopped the program, and the new depth is all that differs. -/
theorem remeasure_leaves_iff [Build] {fault : Fault} (h : remeasure method s = .error fault s') :
    s'.value.pool = s.value.pool ∧ s'.log = s.log ∧
    (s'.value.code = s.value.code ↔ ∀ depths encoded,
      StackDepth.survey s.value.code s.value.pool method.name = .ok depths →
      encode method.name s.value.code.instructions = .ok encoded →
        UInt16.ofNat depths.maxStack = s.value.code.maxStack) ∧
    ∀ depths encoded, StackDepth.survey s.value.code s.value.pool method.name = .ok depths →
      encode method.name s.value.code.instructions = .ok encoded →
        (fault.kind = .invalidDescriptor ∨ fault = .overflow ∧ Build.checksSums) ∧
        method.parameterSlots = .error fault ∧
        s'.value.code = { s.value.code with maxStack := UInt16.ofNat depths.maxStack } := by
  rcases remeasure_error_cases h with ⟨hsurvey, rfl⟩ | ⟨depths, hsurvey, hencode, rfl⟩ |
    ⟨depths, encoded, hsurvey, hencode, hslots, rfl⟩
  · -- The survey has failed.
    have hfailed : ∀ depths, StackDepth.survey s'.value.code s'.value.pool method.name ≠
        .ok depths := by
      intro depths hok
      exact absurd (hsurvey.symm.trans hok) (by simp)
    exact ⟨rfl, rfl, ⟨fun _ depths _ hok => absurd hok (hfailed depths), fun _ => rfl⟩,
      fun depths _ hok => absurd hok (hfailed depths)⟩
  · -- The encoding has failed.
    have hfailed : ∀ encoded, encode method.name s'.value.code.instructions ≠ .ok encoded := by
      intro encoded hok
      exact absurd (hencode.symm.trans hok) (by simp)
    exact ⟨rfl, rfl, ⟨fun _ _ encoded _ hok => absurd hok (hfailed encoded), fun _ => rfl⟩,
      fun _ encoded _ hok => absurd hok (hfailed encoded)⟩
  · refine ⟨rfl, rfl, ⟨fun hcode depths' _ hsurvey' _ => ?_, fun hsame => ?_⟩,
      fun depths' _ hsurvey' _ => ?_⟩
    · obtain rfl := Except.ok.inj (hsurvey.symm.trans hsurvey')
      exact congrArg Code.maxStack hcode
    · show { s.value.code with maxStack := UInt16.ofNat depths.maxStack } = s.value.code
      rw [hsame depths encoded hsurvey hencode]
    · obtain rfl := Except.ok.inj (hsurvey.symm.trans hsurvey')
      have hkind := method.failsBut_parameterSlots fault hslots
      exact ⟨hkind.imp_left List.mem_singleton.mp, hslots, rfl⟩

/-- Two bodies that need less of the stack than they declare; from the second one control runs off
the end. -/
def vagueBody : Code := ⟨9, 0, [.exit none], [], []⟩

def endlessBody : Code := ⟨9, 0, [.other 0 []], [], []⟩

/-- With a descriptor that is none, measuring leaves a body alone in which control runs off the end,
and lowers the declared depth of the stack from 9 to 0 in one that it can survey. -/
theorem remeasure_leaves_endlessBody : ∃ s s',
    remeasure (bareMethod "x") ⟨bareDraft endlessBody, []⟩ =
      .error (.inconsistent "m" 0 .runsOffTheEnd) s ∧ s.value.code = endlessBody ∧
    remeasure (bareMethod "x") ⟨bareDraft vagueBody, []⟩ = .error (.invalidDescriptor "x") s' ∧
    s'.value.code = { vagueBody with maxStack := 0 } := by
  obtain ⟨log, h⟩ := Step.eq_error_of_outcome (show (Step.outcome (remeasure (bareMethod "x"))
    (bareDraft endlessBody)).1 = .error (.inconsistent "m" 0 .runsOffTheEnd) by decide +kernel)
  obtain ⟨log', h'⟩ := Step.eq_error_of_outcome (show (Step.outcome (remeasure (bareMethod "x"))
    (bareDraft vagueBody)).1 = .error (.invalidDescriptor "x") by decide +kernel)
  have hfailed : ∀ depths, StackDepth.survey endlessBody (bareDraft endlessBody).pool "m" ≠
      .ok depths := by
    intro depths hok
    exact absurd ((show StackDepth.survey endlessBody (bareDraft endlessBody).pool "m" =
      .error (.inconsistent "m" 0 .runsOffTheEnd) by decide +kernel).symm.trans hok) (by simp)
  have hsurvey : StackDepth.survey vagueBody (bareDraft vagueBody).pool "m" =
      .ok ⟨0, #[some 0]⟩ := by decide +kernel
  have hencode : encode "m" vagueBody.instructions = .ok ⟨[177], ⟨#[0, 1]⟩⟩ := by decide +kernel
  refine ⟨_, _, h, (remeasure_leaves_iff h).2.2.1.mpr fun depths _ hok => ?_, h', ?_⟩
  · exact absurd hok (hfailed depths)
  · exact ((remeasure_leaves_iff h').2.2.2 _ _ hsurvey hencode).2.2

/-- Where the descriptor is at fault, the body is not what it was. -/
theorem remeasure_vagueBody : ∃ s',
    remeasure (bareMethod "x") ⟨bareDraft vagueBody, []⟩ = .error (.invalidDescriptor "x") s' ∧
    s'.value.code ≠ vagueBody := by
  obtain ⟨log, h⟩ := Step.eq_error_of_outcome (show (Step.outcome (remeasure (bareMethod "x"))
    (bareDraft vagueBody)).1 = .error (.invalidDescriptor "x") by decide +kernel)
  have hcode : (Step.outcome (remeasure (bareMethod "x")) (bareDraft vagueBody)).2.value.code ≠
      vagueBody := by decide +kernel
  refine ⟨_, h, ?_⟩
  dsimp only
  exact hcode

end ClassGraft
