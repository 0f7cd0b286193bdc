/-
Computations that succeed.

Readers, pool edits and steps on a draft or a class are all computations on a state that may fail.
The lemmas here say what one of them has done if it succeeds: its parts one after the other
(`Step.bind_eq_ok_iff`), for any state, and what the smallest steps do to a value and its log.
-/
import Mathlib
import ClassGraft.Graft.Draft

namespace ClassGraft

namespace Step

/-- A compound computation is its parts one after the other. -/
theorem bind_eq_ok_iff {ρ α β : Type} {m : EStateM Fault ρ α} {f : α → EStateM Fault ρ β} {y : β}
    {s s'' : ρ} : (m >>= f) s = .ok y s'' ↔ ∃ x s', m s = .ok x s' ∧ f x s' = .ok y s'' := by
  show EStateM.bind m f s = _ ↔ _
  rw [EStateM.bind]
  cases m s <;> simp

theorem pure_eq_ok_iff {ρ α : Type} {x y : α} {s s' : ρ} :
    (pure x : EStateM Fault ρ α) s = .ok y s' ↔ x = y ∧ s = s' := by
  show EStateM.Result.ok x s = _ ↔ _
  simp

variable {σ τ α : Type} {s s' : Traced σ}

theorem ofExcept_eq_ok_iff {e : Except Fault α} {x : α} :
    (ofExcept e : Step σ α) s = .ok x s' ↔ e = .ok x ∧ s = s' := by
  cases e with
  | error fault =>
    show EStateM.Result.error fault s = _ ↔ _
    simp
  | ok y =>
    show EStateM.Result.ok y s = _ ↔ _
    simp

theorem throw_eq_ok_iff {fault : Fault} {x : α} :
    (throw fault : Step σ α) s = .ok x s' ↔ False := by
  show EStateM.Result.error fault s = _ ↔ _
  simp

theorem note_eq_ok_iff {level : LogLevel} {message : String} {u : Unit} :
    (note level message : Step σ Unit) s = .ok u s' ↔
      s' = { s with log := s.log ++ [⟨level, message⟩] } := by
  rw [note]
  simp [eq_comm]

theorem current_eq_ok_iff {x : σ} : current s = .ok x s' ↔ x = s.value ∧ s = s' := by
  rw [current]
  simp [eq_comm]

theorem replace_eq_ok_iff {x : σ} {u : Unit} :
    replace x s = .ok u s' ↔ s' = { s with value := x } := by
  rw [replace]
  simp [eq_comm]

theorem within_eq_ok_iff {m : Step τ α} {t t' : τ} {x : α} :
    (within t m : Step σ (α × τ)) s = .ok (x, t') s' ↔
      m ⟨t, s.log⟩ = .ok x ⟨t', s'.log⟩ ∧ s'.value = s.value := by
  obtain ⟨value, log⟩ := s'
  rw [within]
  cases m ⟨t, s.log⟩ with
  | error => simp
  | ok y r =>
    obtain ⟨value', log'⟩ := r
    simp only [EStateM.Result.ok.injEq, Prod.mk.injEq, Traced.mk.injEq]
    constructor
    · rintro ⟨⟨rfl, rfl⟩, rfl, rfl⟩
      exact ⟨⟨rfl, rfl, rfl⟩, rfl⟩
    · rintro ⟨⟨rfl, rfl, rfl⟩, rfl⟩
      exact ⟨⟨rfl, rfl⟩, rfl, rfl⟩

/-- A step whose outcome is a result has run to it. -/
theorem eq_ok_of_outcome {m : Step σ α} {value : σ} {x : α} (h : (m.outcome value).1 = .ok x) :
    ∃ log, m ⟨value, []⟩ = .ok x ⟨(m.outcome value).2.value, log⟩ := by
  rw [outcome] at h ⊢
  cases hm : m ⟨value, []⟩ with
  | ok y s =>
    rw [hm] at h
    obtain rfl := Except.ok.inj h
    exact ⟨s.log, rfl⟩
  | error fault s =>
    rw [hm] at h
    exact absurd h (by simp)

/-- A step whose outcome is a fault has failed with it. -/
theorem eq_error_of_outcome {m : Step σ α} {value : σ} {fault : Fault}
    (h : (m.outcome value).1 = .error fault) :
    ∃ log, m ⟨value, []⟩ = .error fault ⟨(m.outcome value).2.value, log⟩ := by
  rw [outcome] at h ⊢
  cases hm : m ⟨value, []⟩ with
  | ok y s =>
    rw [hm] at h
    exact absurd h (by simp)
  | error fault' s =>
    rw [hm] at h
    obtain rfl := Except.error.inj h
    exact ⟨s.log, rfl⟩

end Step

namespace Draft

theorem onPool_eq_ok_iff {α : Type} {m : PoolEdit α} {x : α} {s s' : Traced Draft} :
    onPool m s = .ok x s' ↔ ∃ pool, m s.value.pool = .ok x pool ∧
      s' = { s with value := { s.value with pool } } := by
  rw [onPool]
  cases m s.value.pool with
  | error => simp
  | ok y pool =>
    simp only [EStateM.Result.ok.injEq]
    constructor
    · rintro ⟨rfl, rfl⟩
      exact ⟨pool, ⟨rfl, rfl⟩, rfl⟩
    · rintro ⟨_, ⟨rfl, rfl⟩, rfl⟩
      exact ⟨rfl, rfl⟩

theorem setCode_eq_ok_iff {code : Code} {u : Unit} {s s' : Traced Draft} :
    setCode code s = .ok u s' ↔ s' = { s with value := { s.value with code } } := by
  rw [setCode]
  simp [eq_comm]

end Draft

end ClassGraft
