/-
Computations that go alike.

Two results agree if they stand in a relation, or are faults of one kind (`Agree`); two computations
go alike if, from related states on, they come to related results and related states, or stop with
faults of one kind (`Step.Alike`).  What a fault tells besides its kind, and what is logged, may
differ.  Compound computations go alike if their parts do (`Agree.bind`, `Step.Alike.bind`), so a
relation between data is carried through a program step by step.
-/
import ClassGraft.Proofs.Failing

namespace ClassGraft

/-! ### Results -/

/-- Two results that stand in a relation, or two faults of one kind. -/
inductive Agree {α β : Type} (R : α → β → Prop) : Except Fault α → Except Fault β → Prop
  | ok {x : α} {y : β} (h : R x y) : Agree R (.ok x) (.ok y)
  | error {fault fault' : Fault} (h : fault.kind = fault'.kind) :
    Agree R (.error fault) (.error fault')

namespace Agree

variable {α α' β β' : Type} {R : α → α' → Prop} {Q : β → β' → Prop} {e : Except Fault α}
  {e' : Except Fault α'}

theorem refl (e : Except Fault α) : Agree Eq e e := by
  cases e with
  | ok x => exact .ok rfl
  | error fault => exact .error rfl

theorem bind_of_ok (h : Agree R e e') {f : α → Except Fault β} {f' : α' → Except Fault β'}
    (hf : ∀ x y, e = .ok x → R x y → Agree Q (f x) (f' y)) : Agree Q (e >>= f) (e' >>= f') := by
  cases h with
  | ok h => exact hf _ _ rfl h
  | error h => exact .error h

theorem bind (h : Agree R e e') {f : α → Except Fault β} {f' : α' → Except Fault β'}
    (hf : ∀ x y, R x y → Agree Q (f x) (f' y)) : Agree Q (e >>= f) (e' >>= f') :=
  h.bind_of_ok fun x y _ => hf x y

/-- Where the first parts agree on one result, the second parts have to agree on that only. -/
theorem bind_eq {e' : Except Fault α} (h : Agree Eq e e') {f : α → Except Fault β}
    {f' : α → Except Fault β'} (hf : ∀ x, Agree Q (f x) (f' x)) :
    Agree Q (e >>= f) (e' >>= f') := by
  refine h.bind ?_
  rintro x _ rfl
  exact hf x

theorem ite {c : Prop} [Decidable c] {d : Except Fault α} {d' : Except Fault α'}
    (h : Agree R e e') (hd : Agree R d d') :
    Agree R (if c then e else d) (if c then e' else d') := by
  split
  · exact h
  · exact hd

/-- Folds over one list agree if their steps do. -/
theorem foldlM {f : α → β → Except Fault α} {f' : α' → β → Except Fault α'}
    (hf : ∀ x y b, R x y → Agree R (f x b) (f' y b)) (list : List β) {x : α} {y : α'}
    (h : R x y) : Agree R (list.foldlM f x) (list.foldlM f' y) := by
  induction list generalizing x y with
  | nil => exact .ok h
  | cons b rest ih =>
    rw [List.foldlM_cons, List.foldlM_cons]
    exact (hf x y b h).bind fun x' y' h' => ih h'

theorem concatMapM {f f' : α → Except Fault Bytes} (hf : ∀ x, Agree Eq (f x) (f' x))
    (list : List α) : Agree Eq (Bytes.concatMapM f list) (Bytes.concatMapM f' list) := by
  have hmapM : Agree Eq (list.mapM f) (list.mapM f') := by
    induction list with
    | nil => exact .ok rfl
    | cons x rest ih =>
      rw [List.mapM_cons, List.mapM_cons]
      exact (hf x).bind_eq fun _ => ih.bind_eq fun _ => .ok rfl
  exact hmapM.bind_eq fun _ => .ok rfl

end Agree

/-! ### Computations on a state -/

namespace Step

/-- Two outcomes with related results and related states, or with faults of one kind. -/
inductive Matched {ρ ρ' α β : Type} (S : ρ → ρ' → Prop) (R : α → β → Prop) :
    EStateM.Result Fault ρ α → EStateM.Result Fault ρ' β → Prop
  | ok {x : α} {y : β} {s : ρ} {t : ρ'} (h : R x y) (hs : S s t) : Matched S R (.ok x s) (.ok y t)
  | error {fault fault' : Fault} {s : ρ} {t : ρ'} (h : fault.kind = fault'.kind) :
    Matched S R (.error fault s) (.error fault' t)

/-- Whether two computations come to matching outcomes from all related states. -/
def Alike {ρ ρ' α β : Type} (S : ρ → ρ' → Prop) (R : α → β → Prop) (m : EStateM Fault ρ α)
    (m' : EStateM Fault ρ' β) : Prop :=
  ∀ ⦃s t⦄, S s t → Matched S R (m s) (m' t)

/-- Whether the values of two states are related, whatever has been logged. -/
def OnValues {σ τ : Type} (S : σ → τ → Prop) (s : Traced σ) (t : Traced τ) : Prop :=
  S s.value t.value

namespace Alike

section States

variable {ρ ρ' α α' β β' : Type} {S : ρ → ρ' → Prop} {R : α → α' → Prop} {Q : β → β' → Prop}

theorem pure {x : α} {y : α'} (h : R x y) :
    Alike S R (Pure.pure x : EStateM Fault ρ α) (Pure.pure y) := by
  intro s t hs
  exact .ok h hs

theorem throw {fault fault' : Fault} (h : fault.kind = fault'.kind) :
    Alike S R (MonadExcept.throw fault : EStateM Fault ρ α) (MonadExcept.throw fault') := by
  intro s t _
  exact .error h

theorem bind {m : EStateM Fault ρ α} {m' : EStateM Fault ρ' α'} (hm : Alike S R m m')
    {f : α → EStateM Fault ρ β} {f' : α' → EStateM Fault ρ' β'}
    (hf : ∀ x y, R x y → Alike S Q (f x) (f' y)) : Alike S Q (m >>= f) (m' >>= f') := by
  intro s t hs
  show Matched S Q (EStateM.bind m f s) (EStateM.bind m' f' t)
  have hmatched := hm hs
  rw [EStateM.bind, EStateM.bind]
  generalize m s = r at hmatched ⊢
  generalize m' t = r' at hmatched ⊢
  cases hmatched with
  | ok h hs' => exact hf _ _ h hs'
  | error h => exact .error h

theorem bind_eq {m : EStateM Fault ρ α} {m' : EStateM Fault ρ' α} (hm : Alike S Eq m m')
    {f : α → EStateM Fault ρ β} {f' : α → EStateM Fault ρ' β'}
    (hf : ∀ x, Alike S Q (f x) (f' x)) : Alike S Q (m >>= f) (m' >>= f') := by
  refine hm.bind ?_
  rintro x _ rfl
  exact hf x

end States

variable {σ τ α β : Type} {S : σ → τ → Prop} {R : α → β → Prop}

theorem ofExcept {e : Except Fault α} {e' : Except Fault β} (h : Agree R e e') :
    Alike (OnValues S) R (Step.ofExcept e) (Step.ofExcept e') := by
  cases h with
  | ok h => exact .pure h
  | error h => exact .throw h

theorem note (level level' : LogLevel) (message message' : String) :
    Alike (OnValues S) Eq (Step.note level message) (Step.note level' message') := by
  intro s t hs
  exact .ok rfl hs

theorem current : Alike (OnValues S) S Step.current Step.current := by
  intro s t hs
  exact .ok hs hs

theorem replace {x : σ} {y : τ} (h : S x y) :
    Alike (OnValues S) Eq (Step.replace x) (Step.replace y) := by
  intro s t _
  exact .ok rfl h

theorem within {σ' τ' : Type} {S' : σ' → τ' → Prop} {x : σ'} {y : τ'} {m : Step σ' α}
    {m' : Step τ' β} (hm : Alike (OnValues S') R m m') (h : S' x y) :
    Alike (OnValues S) (fun p q => R p.1 q.1 ∧ S' p.2 q.2) (Step.within x m)
      (Step.within y m') := by
  intro s t hs
  have hmatched := @hm ⟨x, s.log⟩ ⟨y, t.log⟩ h
  rw [Step.within, Step.within]
  generalize m ⟨x, s.log⟩ = r at hmatched ⊢
  generalize m' ⟨y, t.log⟩ = r' at hmatched ⊢
  cases hmatched with
  | ok hR hS' => exact .ok ⟨hR, hS'⟩ hs
  | error h => exact .error h

end Alike

end Step

end ClassGraft
