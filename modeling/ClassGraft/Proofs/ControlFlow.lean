/-
Where control goes, and how deep the stack is there.

* `Instruction.Leads` — the flow table: where control goes on from an instruction, with the depth
  before or behind it;
* `Instruction.Passes` — an instruction that is entered with a depth leaves another behind;
* `Code.Reaches` — the positions that control reaches from the start and the handlers;
* `Code.IsAssignment` — one depth for every position that control reaches, in accordance with the
  flow table;
* `Code.Arrives` — control arrives at a position with a depth, over instructions that pass.

Where there is an assignment, control arrives at exactly the positions that it reaches, with exactly
the depths that are assigned (`Code.IsAssignment.arrives_iff`).
-/
import Mathlib
import ClassGraft.Code.StackDepth
import ClassGraft.Proofs.Reading

namespace ClassGraft

/-- Control goes on from an instruction at `p`, entered with `before` and left with `after`. -/
inductive Instruction.Leads (i : Instruction) (p before after : Nat) : Nat → Nat → Prop
  | behind (h : i.flow = .sequential ∨ i.flow = .conditional) : i.Leads p before after (p + 1) after
  | target {t : Nat} (h : i.flow = .conditional ∨ i.flow = .jump ∨ i.flow = .switch ∨
      i.flow = .subroutine) (ht : t ∈ i.targets) : i.Leads p before after t after
  | resumed (h : i.flow = .subroutine) : i.Leads p before after (p + 1) before

/-- An instruction that is entered with `before` leaves `after` behind. -/
def Instruction.Passes [Build] (pool : ConstantPool) (i : Instruction) (before after : Nat) :
    Prop :=
  ∃ effect, i.stackEffect pool = .ok effect ∧ effect.pops ≤ before ∧
    after = before - effect.pops + effect.pushes ∧ after ≤ maxStackSlots

namespace Code

/-- The positions that control reaches. -/
inductive Reaches (code : Code) : Nat → Prop
  | start : code.Reaches 0
  | handler {h : Handler} (hh : h ∈ code.handlers) : code.Reaches h.entry
  | step {p q before after d : Nat} {i : Instruction} (hp : code.Reaches p)
      (hi : code.instructions[p]? = some i) (hq : i.Leads p before after q d) : code.Reaches q

/-- Control arrives at a position with a depth. -/
inductive Arrives [Build] (code : Code) (pool : ConstantPool) : Nat → Nat → Prop
  | start : code.Arrives pool 0 0
  | handler {h : Handler} (hh : h ∈ code.handlers) : code.Arrives pool h.entry 1
  | step {p q before after d : Nat} {i : Instruction} (hp : code.Arrives pool p before)
      (hi : code.instructions[p]? = some i) (hpass : i.Passes pool before after)
      (hq : i.Leads p before after q d) : code.Arrives pool q d

/-- One depth for every position that control reaches: it fits the roots and the flow table, and
every instruction that is reached is there and passes. -/
structure IsAssignment [Build] (code : Code) (pool : ConstantPool) (depth : Nat → Nat) : Prop where
  start : depth 0 = 0
  handlers : ∀ h ∈ code.handlers, depth h.entry = 1
  inside : ∀ p, code.Reaches p → p < code.instructions.length
  passes : ∀ p i, code.Reaches p → code.instructions[p]? = some i →
    ∃ after, i.Passes pool (depth p) after ∧ ∀ q d, i.Leads p (depth p) after q d → depth q = d

end Code

variable {pool : ConstantPool} {code : Code} {depth : Nat → Nat} {p q d : Nat} {i : Instruction}

theorem Instruction.Passes.unique [Build] {before after after' : Nat}
    (h : i.Passes pool before after) (h' : i.Passes pool before after') : after = after' := by
  obtain ⟨effect, heffect, -, rfl, -⟩ := h
  obtain ⟨effect', heffect', -, rfl, -⟩ := h'
  obtain rfl := Except.ok.inj (heffect.symm.trans heffect')
  rfl

/-- Where control goes on does not depend on the depths. -/
theorem Instruction.Leads.exists_depth {before after : Nat} (h : i.Leads p before after q d)
    (before' after' : Nat) : ∃ d', i.Leads p before' after' q d' := by
  cases h with
  | behind h => exact ⟨_, .behind h⟩
  | target h ht => exact ⟨_, .target h ht⟩
  | resumed h => exact ⟨_, .resumed h⟩

theorem Instruction.mem_edges_iff {before after : Nat} :
    (q, d) ∈ i.edges p before after ↔ i.Leads p before after q d := by
  unfold Instruction.edges
  constructor
  · intro h
    cases hflow : i.flow with
    | sequential =>
      rw [hflow] at h
      obtain ⟨rfl, rfl⟩ := Prod.mk.inj (List.mem_singleton.mp h)
      exact .behind (.inl hflow)
    | conditional =>
      rw [hflow, List.mem_cons, List.mem_map] at h
      rcases h with h | ⟨t, ht, h⟩
      · obtain ⟨rfl, rfl⟩ := Prod.mk.inj h
        exact .behind (.inr hflow)
      · obtain ⟨rfl, rfl⟩ := Prod.mk.inj h
        exact .target (.inl hflow) ht
    | jump =>
      rw [hflow, List.mem_map] at h
      obtain ⟨t, ht, h⟩ := h
      obtain ⟨rfl, rfl⟩ := Prod.mk.inj h
      exact .target (.inr (.inl hflow)) ht
    | switch =>
      rw [hflow, List.mem_map] at h
      obtain ⟨t, ht, h⟩ := h
      obtain ⟨rfl, rfl⟩ := Prod.mk.inj h
      exact .target (.inr (.inr (.inl hflow))) ht
    | subroutine =>
      rw [hflow, List.mem_append, List.mem_map, List.mem_singleton] at h
      rcases h with ⟨t, ht, h⟩ | h
      · obtain ⟨rfl, rfl⟩ := Prod.mk.inj h
        exact .target (.inr (.inr (.inr hflow))) ht
      · obtain ⟨rfl, rfl⟩ := Prod.mk.inj h
        exact .resumed hflow
    | subroutineReturn | exit | throw =>
      rw [hflow] at h
      exact absurd h (List.not_mem_nil)
  · intro h
    cases h with
    | behind h =>
      rcases h with hflow | hflow
      · rw [hflow]
        exact List.mem_singleton_self _
      · rw [hflow]
        exact List.mem_cons_self
    | target h ht =>
      rcases h with hflow | hflow | hflow | hflow
      · rw [hflow]
        exact List.mem_cons_of_mem _ (List.mem_map.mpr ⟨_, ht, rfl⟩)
      · rw [hflow]
        exact List.mem_map.mpr ⟨_, ht, rfl⟩
      · rw [hflow]
        exact List.mem_map.mpr ⟨_, ht, rfl⟩
      · rw [hflow]
        exact List.mem_append_left _ (List.mem_map.mpr ⟨_, ht, rfl⟩)
    | resumed hflow =>
      rw [hflow]
      exact List.mem_append_right _ (List.mem_singleton_self _)

theorem StackDepth.after_eq_ok_iff [Build] {method : String} {before deep : Nat} :
    StackDepth.after pool method p i before = .ok deep ↔ i.Passes pool before deep := by
  simp only [StackDepth.after, Bytes.bind_eq_ok_iff, Bytes.ite_throw_eq_ok_iff, Instruction.Passes]
  constructor
  · rintro ⟨effect, heffect, hpops, hdeep, h⟩
    obtain rfl := Except.ok.inj h
    exact ⟨effect, heffect, hpops, rfl, hdeep⟩
  · rintro ⟨effect, heffect, hpops, rfl, hdeep⟩
    exact ⟨effect, heffect, hpops, hdeep, rfl⟩

namespace Code

theorem Arrives.reaches [Build] (h : code.Arrives pool p d) : code.Reaches p := by
  induction h with
  | start => exact .start
  | handler hh => exact .handler hh
  | step _ hi _ hq ih => exact .step ih hi hq

/-- Control arrives only with the depths that are assigned. -/
theorem IsAssignment.eq_of_arrives [Build] (h : code.IsAssignment pool depth)
    (hp : code.Arrives pool p d) :
    d = depth p := by
  induction hp with
  | start => exact h.start.symm
  | handler hh => exact (h.handlers _ hh).symm
  | step hp hi hpass hq ih =>
    -- The assignment passes the instruction as well, so with the same depth behind it.
    subst ih
    obtain ⟨after, hpass', hleads⟩ := h.passes _ _ hp.reaches hi
    obtain rfl := hpass.unique hpass'
    exact (hleads _ _ hq).symm

/-- Control arrives wherever it reaches. -/
theorem IsAssignment.arrives [Build] (h : code.IsAssignment pool depth) (hp : code.Reaches p) :
    code.Arrives pool p (depth p) := by
  induction hp with
  | start =>
    rw [h.start]
    exact .start
  | handler hh =>
    rw [h.handlers _ hh]
    exact .handler hh
  | step hp hi hq ih =>
    obtain ⟨after, hpass, hleads⟩ := h.passes _ _ hp hi
    obtain ⟨d, hq⟩ := hq.exists_depth (depth _) after
    rw [hleads _ _ hq]
    exact .step ih hi hpass hq

theorem IsAssignment.arrives_iff [Build] (h : code.IsAssignment pool depth) :
    code.Arrives pool p d ↔ code.Reaches p ∧ d = depth p := by
  constructor
  · exact fun hp => ⟨hp.reaches, h.eq_of_arrives hp⟩
  · rintro ⟨hp, rfl⟩
    exact h.arrives hp

/-- There is an assignment if control never arrives at one position with two depths and every
instruction that it arrives at is there and passes. -/
theorem isAssignment_of_arrives [Build] (hdepth : ∀ p d, code.Arrives pool p d → d = depth p)
    (hpass : ∀ p d, code.Arrives pool p d →
      ∃ i after, code.instructions[p]? = some i ∧ i.Passes pool d after) :
    code.IsAssignment pool depth := by
  -- Control reaches a position on a way that it also arrives on, as every instruction passes.
  have harrives : ∀ p, code.Reaches p → code.Arrives pool p (depth p) := by
    intro p hp
    induction hp with
    | start =>
      rw [← hdepth _ _ .start]
      exact .start
    | handler hh =>
      rw [← hdepth _ _ (.handler hh)]
      exact .handler hh
    | step hp hi hq ih =>
      obtain ⟨i', after, hi', hpass⟩ := hpass _ _ ih
      obtain rfl := Option.some.inj (hi.symm.trans hi')
      obtain ⟨d, hq⟩ := hq.exists_depth (depth _) after
      have harrives := Arrives.step ih hi hpass hq
      rwa [hdepth _ _ harrives] at harrives
  refine ⟨(hdepth _ _ .start).symm, fun h hh => (hdepth _ _ (.handler hh)).symm, ?_, ?_⟩
  · intro p hp
    obtain ⟨i, _, hi, -⟩ := hpass _ _ (harrives p hp)
    exact (List.getElem?_eq_some_iff.mp hi).1
  · intro p i hp hi
    obtain ⟨i', after, hi', hpass⟩ := hpass _ _ (harrives p hp)
    obtain rfl := Option.some.inj (hi.symm.trans hi')
    exact ⟨after, hpass, fun q d hq => (hdepth _ _ (.step (harrives p hp) hi hpass hq)).symm⟩

/-- There is one already if these depths are determined by the positions. -/
theorem exists_isAssignment [Build]
    (hunique : ∀ p d d', code.Arrives pool p d → code.Arrives pool p d' → d = d')
    (hpass : ∀ p d, code.Arrives pool p d →
      ∃ i after, code.instructions[p]? = some i ∧ i.Passes pool d after) :
    ∃ depth, code.IsAssignment pool depth := by
  -- What control does not reach may be given any depth.
  classical
  refine ⟨fun p => if h : ∃ d, code.Arrives pool p d then h.choose else 0,
    isAssignment_of_arrives (fun p d hp => ?_) hpass⟩
  have hexists : ∃ d, code.Arrives pool p d := ⟨d, hp⟩
  rw [dif_pos hexists]
  exact hunique p d _ hp hexists.choose_spec

end Code

end ClassGraft
