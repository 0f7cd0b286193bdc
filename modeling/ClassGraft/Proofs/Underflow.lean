/-
Patches that leave the stack long enough.

A survey fails with an underflow only where control arrives at an instruction that takes more than
there is (`StackDepth.fallsShort_of_survey`), whatever else the survey has left undone.  In a
spliced body there is no such instruction if there was none before, so a patch does not fail with an
underflow (`Transformer.patch_ne_stackUnderflow`).
-/
import ClassGraft.Proofs.Failing
import ClassGraft.Proofs.PatchedDepths
import ClassGraft.Proofs.SplicedArrivals

namespace ClassGraft

open Step

namespace StackDepth

open Progress

variable {code : Code} {pool : ConstantPool} {method : String} {s : Progress} {fault : Fault}

theorem failsWith_enter (s : Progress) (method : String) (source target d : Nat) :
    FailsWith [.inconsistent] (s.enter method source target d) := by
  rw [enter]
  split
  · exact .error List.mem_cons_self
  · exact .ok _ _
  · split
    · exact .ok _ _
    · exact .error List.mem_cons_self

theorem failsWith_enterAll (s : Progress) (method : String) (source : Nat)
    (edges : List (Nat × Nat)) : FailsWith [.inconsistent] (s.enterAll method source edges) := by
  refine FailsBy.foldlM (fun s edge => ?_) edges s
  exact failsWith_enter s method source edge.1 edge.2

theorem failsWith_enterRoots (s : Progress) (method : String) (handlers : List Handler) :
    FailsWith [.inconsistent] (enterRoots method handlers s) := by
  refine (failsWith_enter s method 0 0 0).bind fun s => .foldlM (fun s handler => ?_) handlers s
  exact (failsWith_enter s method _ _ 1).bind fun _ => .ok _ _

/-- Only an instruction that takes more than there is makes for an underflow. -/
theorem exists_short_of_after [Build] {i : Instruction} {p d : Nat}
    (h : after pool method p i d = .error fault) (hkind : fault.kind = .stackUnderflow) :
    ∃ effect, i.stackEffect pool = .ok effect ∧ d < effect.pops := by
  rcases Bytes.bind_eq_error_iff.mp h with h | ⟨effect, heffect, h⟩
  · exact absurd ((i.failsWith_stackEffect pool).kind_mem h hkind) (by decide)
  · -- Where there is enough, only the depth behind can be too large.
    refine ⟨effect, heffect, ?_⟩
    by_contra hle
    rw [if_pos (not_lt.mp hle)] at h
    dsimp only at h
    split at h
    · cases h
    · obtain rfl := Except.error.inj h
      exact absurd hkind (by simp [Fault.kind])

/-- Whether control arrives at an instruction that takes more than there is. -/
def FallsShort [Build] (code : Code) (pool : ConstantPool) : Prop :=
  ∃ p d i effect, code.Arrives pool p d ∧ code.instructions[p]? = some i ∧
    i.stackEffect pool = .ok effect ∧ d < effect.pops

/-- A round fails with an underflow only at an instruction that control arrives at. -/
theorem fallsShort_of_visit [Build] (h : Invariant code pool s) {p : Nat} {pending : Worklist Nat}
    (hvisit : { s with pending }.visit pool method code.instructions.toArray p = .error fault)
    (hkind : fault.kind = .stackUnderflow) : FallsShort code pool := by
  rw [Progress.visit] at hvisit
  split at hvisit
  · next i d hi hd =>
    rw [List.getElem?_toArray] at hi
    rcases Bytes.bind_eq_error_iff.mp hvisit with hvisit | ⟨deep, -, hvisit⟩
    · -- By the invariant control arrives with the depth that the survey has noted.
      obtain ⟨effect, heffect, hlt⟩ := exists_short_of_after hvisit hkind
      exact ⟨p, d, i, effect, h.sound p d hd, hi, heffect, hlt⟩
    · exact absurd ((failsWith_enterAll _ _ _ _).kind_mem hvisit hkind) (by decide)
  · exact absurd hvisit (by simp)

/-- The loop keeps the invariant until it fails. -/
theorem fallsShort_of_explore [Build] {fuel : Nat} (h : Invariant code pool s)
    (hs : explore pool method code.instructions.toArray fuel s = .error fault)
    (hkind : fault.kind = .stackUnderflow) : FallsShort code pool := by
  -- The induction is on the rounds; those that succeed keep the invariant of the survey.
  induction fuel generalizing s with
  | zero => exact absurd hs (by simp [explore])
  | succ fuel ih =>
    rw [explore] at hs
    cases hpop : s.pending.pop? with
    | none =>
      rw [hpop] at hs
      exact absurd hs (by simp)
    | some x =>
      obtain ⟨p, pending⟩ := x
      rw [hpop] at hs
      rcases Bytes.bind_eq_error_iff.mp hs with hvisit | ⟨s', hvisit, hs⟩
      · exact fallsShort_of_visit h hvisit hkind
      · exact ih (h.visit hpop hvisit) hs

/-- A survey fails with an underflow only if control arrives at an instruction that takes more than
there is. -/
theorem fallsShort_of_survey [Build] (h : survey code pool method = .error fault)
    (hkind : fault.kind = .stackUnderflow) : FallsShort code pool := by
  rw [survey] at h
  split at h
  · cases h
  · rw [List.size_toArray] at h
    rcases Bytes.bind_eq_error_iff.mp h with h | ⟨s, hroots, h⟩
    · exact absurd ((failsWith_enterRoots _ _ _).kind_mem h hkind) (by decide)
    · rcases Bytes.bind_eq_error_iff.mp h with h | ⟨s', -, h⟩
      · exact fallsShort_of_explore (Invariant.of_enterRoots pool hroots).1 h hkind
      · cases h

end StackDepth

/-- Measuring fails with an underflow only in its survey. -/
theorem fallsShort_of_remeasure [Build] {method : Method} {s s' : Traced Draft} {fault : Fault}
    (h : remeasure method s = .error fault s') (hkind : fault.kind = .stackUnderflow) :
    StackDepth.FallsShort s.value.code s.value.pool := by
  obtain ⟨draft, _, hdraft, h⟩ := (stopsWith_current []).error_behind hkind (by decide) h
  obtain ⟨rfl, rfl⟩ := current_eq_ok_iff.mp hdraft
  rcases bind_eq_error_iff.mp h with h | ⟨depths, _, -, h⟩
  · exact StackDepth.fallsShort_of_survey (ofExcept_eq_error_iff.mp h).1 hkind
  · -- What measuring does with the depths fails in other ways.
    obtain ⟨encoded, _, -, h⟩ :=
      (stopsWith_ofExcept (failsWith_encode _ _)).error_behind hkind (by decide) h
    obtain ⟨_, _, -, h⟩ := (Draft.stopsWith_setCode [] _).error_behind hkind (by decide) h
    obtain ⟨slots, _, -, h⟩ :=
      (stopsWith_ofExcept method.failsWith_parameterSlots).error_behind hkind (by decide) h
    obtain ⟨_, _, -, h⟩ := (Draft.stopsWith_setCode [] _).error_behind hkind (by decide) h
    obtain ⟨_, _, -, h⟩ := (stopsWith_note [] _ _).error_behind hkind (by decide) h
    exact absurd h (by simp [pure, EStateM.pure])

namespace Transformer

/-- A patch fails with an underflow only where it measures what a splice has left. -/
theorem fallsShort_of_patch [Build] {t : Transformer} {mode : NamingMode} {c : ClassFile}
    {log : List LogLine} {fault : Fault} {s' : Traced ClassFile}
    (h : t.patch mode ⟨c, log⟩ = .error fault s') (hkind : fault.kind = .stackUnderflow) :
    ∃ place method code, (∃ s s'' : Traced ClassFile,
        findMethod c mode t.remapper t.config.targetMethod s = .ok place s'') ∧
      c.methods[place]? = some method ∧ method.code? = some code ∧
      ∃ anchor injection spliced log' s₁,
        splice method anchor injection ⟨⟨code, c.pool⟩, log'⟩ = .ok spliced s₁ ∧
        StackDepth.FallsShort s₁.value.code s₁.value.pool := by
  -- Up to the graft nothing fails with an underflow.
  obtain ⟨c', _, hcurrent, h⟩ := (stopsWith_current []).error_behind hkind (by decide) h
  obtain ⟨hc, rfl⟩ := current_eq_ok_iff.mp hcurrent
  obtain rfl : c' = c := hc
  obtain ⟨owner, _, -, h⟩ :=
    (stopsWith_ofExcept c'.failsWith_name).error_behind hkind (by decide) h
  obtain ⟨_, _, -, h⟩ := (stopsWith_note [] _ _).error_behind hkind (by decide) h
  obtain ⟨fields, _, -, h⟩ :=
    (FieldRecords.stopsWith_scan c' t.remapper _).error_behind hkind (by decide) h
  obtain ⟨place, _, hplace, h⟩ :=
    (stopsWith_findMethod c' mode t.remapper _).error_behind hkind (by decide) h
  obtain ⟨method, _, hmethod, h⟩ := (stopsWith_ofExcept
    (failsWith_elim _ .methodNotFound rfl)).error_behind hkind (by decide) h
  obtain ⟨anchor, _, -, h⟩ :=
    (stopsWith_findAnchor method mode t.remapper _).error_behind hkind (by decide) h
  obtain ⟨code, _, hcode, h⟩ := (stopsWith_ofExcept
    (failsWith_elim _ .anchorNotFound rfl)).error_behind hkind (by decide) h
  have hmethod := elim_eq_ok_iff.mp (ofExcept_eq_ok_iff.mp hmethod).1
  have hcode := elim_eq_ok_iff.mp (ofExcept_eq_ok_iff.mp hcode).1
  refine ⟨place, method, code, ⟨_, _, hplace⟩, hmethod, hcode, ?_⟩
  -- Behind the graft nothing fails, and in the graft the splice does not fail so.
  rcases bind_eq_error_iff.mp h with h | ⟨_, _, -, h⟩
  · obtain ⟨_, h, -⟩ := within_eq_error_iff.mp h
    obtain ⟨spliced, s₁, hsplice, h⟩ :=
      (stopsWith_splice method anchor _).error_behind hkind (by decide) h
    rcases bind_eq_error_iff.mp h with h | ⟨_, _, -, h⟩
    · exact ⟨anchor, _, spliced, _, s₁, hsplice, fallsShort_of_remeasure h hkind⟩
    · exact absurd h (by simp [pure, EStateM.pure])
  · obtain ⟨_, _, -, h⟩ := (stopsWith_replace [] _).error_behind hkind (by decide) h
    obtain ⟨_, _, -, h⟩ := (stopsWith_note [] _ _).error_behind hkind (by decide) h
    exact absurd h (by simp [pure, EStateM.pure])

/-- No patch fails with an underflow if the body that it changes can be surveyed. -/
theorem patch_ne_stackUnderflow [Build] {t : Transformer} {mode : NamingMode} {c : ClassFile}
    {log : List LogLine} {place : Nat} {code : Code} {s s' : Traced ClassFile} {label : String}
    {r : StackDepths}
    (hplace : findMethod c mode t.remapper t.config.targetMethod s = .ok place s')
    (hcode : c.methods[place]?.bind Method.code? = some code)
    (hr : StackDepth.survey code c.pool label = .ok r) (method : String) (index : Nat)
    (state : Traced ClassFile) :
    t.patch mode ⟨c, log⟩ ≠ .error (.stackUnderflow method index) state := by
  intro h
  obtain ⟨place', method', code', ⟨_, _, hplace'⟩, hmethod, hcode', anchor, injection, spliced, _,
    s₁, hsplice, hshort⟩ := fallsShort_of_patch h rfl
  obtain ⟨p, d, i, effect, harrives, hi, heffect, hshort⟩ := hshort
  obtain rfl := findMethod_unique hplace hplace'
  obtain rfl : code' = code := by
    rw [hmethod, Option.bind_some, hcode'] at hcode
    exact Option.some.inj hcode
  -- The spliced body takes no more than the depths of the body before allow for.
  obtain ⟨m, hspliced⟩ := splice_spec hsplice
  obtain ⟨anchored, hanchor, -⟩ := hspliced.effect_anchor
  have hne : code'.instructions ≠ [] := List.ne_nil_of_mem (List.mem_of_getElem? hanchor)
  have hdepth := StackDepth.isAssignment_of_survey hne hr
  have hle := (hspliced.body hdepth).pops_le
    (HandlerMembers.consumes_call hspliced.members s₁.value.pool spliced.slot)
    (hspliced.pos_depth_behind hdepth) harrives hi heffect
  exact absurd hshort (not_lt.mpr hle)

attribute [local instance] Build.checked

/-- Even where control enters between the call and the `pop`, so that the stack is deeper than
before at the return. -/
theorem patch_enteredBody_ne_stackUnderflow : ∃ s',
    findMethod (harvestClass enteredBody) .canonical .identity "uncheckedTryHarvestBlock"
      ⟨harvestClass enteredBody, []⟩ = .ok 0 s' ∧
    (harvestClass enteredBody).methods[0]?.bind Method.code? = some enteredBody ∧
    StackDepth.survey enteredBody (harvestClass enteredBody).pool "" =
      .ok ⟨1, #[some 0, some 1, some 0, some 1, some 1, some 0, some 1, some 0]⟩ ∧
    ∀ method index state, patch {} .canonical ⟨harvestClass enteredBody, []⟩ ≠
      .error (.stackUnderflow method index) state := by
  obtain ⟨log', hplace⟩ := Step.eq_ok_of_outcome (show (Step.outcome (findMethod
    (harvestClass enteredBody) .canonical .identity "uncheckedTryHarvestBlock")
    (harvestClass enteredBody)).1 = .ok 0 by decide +kernel)
  have hsurvey : StackDepth.survey enteredBody (harvestClass enteredBody).pool "" =
      .ok ⟨1, #[some 0, some 1, some 0, some 1, some 1, some 0, some 1, some 0]⟩ := by
    decide +kernel
  exact ⟨_, hplace, rfl, hsurvey, patch_ne_stackUnderflow hplace rfl hsurvey⟩

end Transformer

end ClassGraft
