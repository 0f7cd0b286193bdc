/-
Computations that fail.

Every operation fails in a few ways only.  `FailsBy` says so of a result and `Step.StopsBy` of a
computation on a state, `FailsWith` and `Step.StopsWith` in terms of kinds of faults; compound
computations fail in the ways of their parts (`FailsBy.bind`, `Step.StopsBy.bind`).  Here are the
ways in which constants, descriptors, effects and code arrays fail, and the steps of a graft up to
the survey of the spliced body (`ConstantPool.failsWith_memberRef`,
`MethodDescriptor.failsWith_parse`, `Instruction.failsWith_stackEffect`, `failsWith_encode`,
`stopsWith_splice`).
-/
import ClassGraft.Graft.Transformer
import ClassGraft.Proofs.Running
import ClassGraft.Proofs.SlotCounts

namespace ClassGraft

/-- The ways in which an operation can fail. -/
inductive FaultKind where
  | malformed
  | outOfBounds
  | empty
  | invalidDescriptor
  | poolFull
  | branchOutOfRange
  | methodNotFound
  | anchorNotFound
  | unresolvedField
  | inconsistent
  | stackUnderflow
  | invalidMapping
  | file
  | overflow
  deriving DecidableEq

def Fault.kind : Fault → FaultKind
  | .malformed _ => .malformed
  | .outOfBounds => .outOfBounds
  | .empty => .empty
  | .invalidDescriptor _ => .invalidDescriptor
  | .poolFull => .poolFull
  | .branchOutOfRange .. => .branchOutOfRange
  | .methodNotFound .. => .methodNotFound
  | .anchorNotFound .. => .anchorNotFound
  | .unresolvedField _ => .unresolvedField
  | .inconsistent .. => .inconsistent
  | .stackUnderflow .. => .stackUnderflow
  | .invalidMapping .. => .invalidMapping
  | .file _ => .file
  | .overflow => .overflow

/-! ### Results -/

/-- Whether a result, if it is a fault, is one of those described. -/
def FailsBy {α : Type} (P : Fault → Prop) (e : Except Fault α) : Prop :=
  ∀ fault, e = .error fault → P fault

/-- Whether a result, if it is a fault, is of one of the kinds. -/
abbrev FailsWith {α : Type} (kinds : List FaultKind) (e : Except Fault α) : Prop :=
  FailsBy (fun fault => fault.kind ∈ kinds) e

/-- Whether a result, if it is a fault, is of one of the kinds, or else stands for a sum that is not
held, where that can be. -/
abbrev FailsBut {α : Type} (kinds : List FaultKind) (stops : Prop) (e : Except Fault α) : Prop :=
  FailsBy (fun fault => fault.kind ∈ kinds ∨ fault = .overflow ∧ stops) e

/-- A compound result fails where its first part does, or else its second. -/
theorem Bytes.bind_eq_error_iff {α β : Type} {e : Except Fault α} {f : α → Except Fault β}
    {fault : Fault} : (e >>= f) = .error fault ↔
      e = .error fault ∨ ∃ x, e = .ok x ∧ f x = .error fault := by
  cases e with
  | error fault' =>
    show Except.error fault' = _ ↔ _
    simp
  | ok x =>
    show f x = _ ↔ _
    simp

namespace FailsBy

variable {α β : Type} {P Q : Fault → Prop} {e : Except Fault α} {fault : Fault}

theorem imp (h : FailsBy P e) (hPQ : ∀ fault, P fault → Q fault) : FailsBy Q e :=
  fun fault he => hPQ fault (h fault he)

theorem ok (P : Fault → Prop) (x : α) : FailsBy P (.ok x : Except Fault α) := by
  intro fault h
  exact absurd h (by simp)

theorem error (h : P fault) : FailsBy P (.error fault : Except Fault α) := by
  intro fault' h'
  obtain rfl := Except.error.inj h'
  exact h

theorem of_exists (h : ∃ x, e = .ok x) : FailsBy P e := by
  obtain ⟨x, rfl⟩ := h
  exact .ok P x

theorem bind_of_ok (h : FailsBy P e) {f : α → Except Fault β}
    (hf : ∀ x, e = .ok x → FailsBy P (f x)) : FailsBy P (e >>= f) := by
  cases e with
  | error fault => exact .error (h fault rfl)
  | ok x => exact hf x rfl

theorem bind (h : FailsBy P e) {f : α → Except Fault β} (hf : ∀ x, FailsBy P (f x)) :
    FailsBy P (e >>= f) :=
  h.bind_of_ok fun x _ => hf x

theorem ite {c : Prop} [Decidable c] {e' : Except Fault α} (h : FailsBy P e) (h' : FailsBy P e') :
    FailsBy P (if c then e else e') := by
  split
  · exact h
  · exact h'

theorem mapM {f : β → Except Fault α} {xs : List β} (hf : ∀ x ∈ xs, FailsBy P (f x)) :
    FailsBy P (xs.mapM f) := by
  induction xs with
  | nil => exact .ok P []
  | cons x xs ih =>
    obtain ⟨hx, hxs⟩ := List.forall_mem_cons.mp hf
    rw [List.mapM_cons]
    exact hx.bind fun _ => (ih hxs).bind fun _ => .ok P _

theorem foldlM {f : α → β → Except Fault α} (hf : ∀ x y, FailsBy P (f x y)) (ys : List β)
    (x : α) : FailsBy P (ys.foldlM f x) := by
  induction ys generalizing x with
  | nil => exact .ok P x
  | cons y ys ih =>
    rw [List.foldlM_cons]
    exact (hf x y).bind ih

theorem concatMapM {f : β → Except Fault Bytes} {xs : List β} (hf : ∀ x ∈ xs, FailsBy P (f x)) :
    FailsBy P (Bytes.concatMapM f xs) :=
  (mapM hf).bind fun _ => .ok P _

theorem ofTableM {f : β → Except Fault Bytes} {xs : List β} (hf : ∀ x ∈ xs, FailsBy P (f x)) :
    FailsBy P (Bytes.ofTableM f xs) :=
  (concatMapM hf).bind fun _ => .ok P _

end FailsBy

namespace FailsWith

variable {α : Type} {kinds kinds' : List FaultKind} {e : Except Fault α}

theorem mono (h : FailsWith kinds e) (hsub : kinds ⊆ kinds') : FailsWith kinds' e :=
  h.imp fun _ hkind => hsub hkind

theorem kind_mem (h : FailsWith kinds e) {fault : Fault} {kind : FaultKind}
    (he : e = .error fault) (hkind : fault.kind = kind) : kind ∈ kinds :=
  hkind ▸ h fault he

theorem but (h : FailsWith kinds e) (stops : Prop) : FailsBut kinds stops e :=
  h.imp fun _ => .inl

end FailsWith

namespace FailsBut

variable {α : Type} {kinds kinds' : List FaultKind} {stops stops' : Prop} {e : Except Fault α}

theorem mono (h : FailsBut kinds stops e) (hsub : kinds ⊆ kinds') : FailsBut kinds' stops e :=
  h.imp fun _ => Or.imp_left fun hkind => hsub hkind

theorem failsWith (h : FailsBut kinds stops e) : FailsWith (kinds ++ [.overflow]) e := by
  refine h.imp fun fault => ?_
  rintro (hkind | ⟨rfl, -⟩)
  · exact List.mem_append_left _ hkind
  · exact List.mem_append_right _ List.mem_cons_self

end FailsBut

/-! ### Constants and descriptors -/

theorem ModifiedUtf8.failsWith_decode (bytes : Bytes) : FailsWith [.malformed] (decode bytes) := by
  rw [decode]
  split
  · exact .ok _ _
  · cases decodeSequences bytes with
    | error cause => exact .error List.mem_cons_self
    | ok text => exact .ok _ text

namespace ConstantPool

variable (pool : ConstantPool) (index : UInt16)

theorem failsWith_lookup : FailsWith [.malformed] (pool.lookup index) := by
  rw [lookup]
  split
  · exact .ok _ _
  · exact .error List.mem_cons_self

theorem failsWith_utf8 : FailsWith [.malformed] (pool.utf8 index) := by
  refine (pool.failsWith_lookup index).bind fun c => ?_
  split
  · exact ModifiedUtf8.failsWith_decode _
  · exact .error List.mem_cons_self

theorem failsWith_className : FailsWith [.malformed] (pool.className index) := by
  refine (pool.failsWith_lookup index).bind fun c => ?_
  split
  · exact pool.failsWith_utf8 _
  · exact .error List.mem_cons_self

theorem failsWith_nameAndType : FailsWith [.malformed] (pool.nameAndType index) := by
  refine (pool.failsWith_lookup index).bind fun c => ?_
  split
  · exact (pool.failsWith_utf8 _).bind fun _ => (pool.failsWith_utf8 _).bind fun _ => .ok _ _
  · exact .error List.mem_cons_self

theorem failsWith_memberRef : FailsWith [.malformed] (pool.memberRef index) := by
  refine (pool.failsWith_lookup index).bind fun c => ?_
  split
  case h_4 => exact .error List.mem_cons_self
  all_goals
    exact (pool.failsWith_nameAndType _).bind fun _ =>
      (pool.failsWith_className _).bind fun _ => .ok _ _

theorem failsWith_callSite : FailsWith [.malformed] (pool.callSite index) := by
  refine (pool.failsWith_lookup index).bind fun c => ?_
  split
  · exact (pool.failsWith_nameAndType _).bind fun _ => .ok _ _
  · exact .error List.mem_cons_self

end ConstantPool

theorem FieldType.failsWith_parse (descriptor : String) :
    FailsWith [.invalidDescriptor] (parse descriptor) := by
  rw [parse]
  split
  · exact .ok _ _
  · exact .error List.mem_cons_self
  · exact .error List.mem_cons_self

theorem MethodDescriptor.failsWith_parse (descriptor : String) :
    FailsWith [.invalidDescriptor] (parse descriptor) := by
  rw [parse]
  split
  · exact .ok _ _
  · exact .error List.mem_cons_self

theorem MethodDescriptor.failsWith_callSlots [Build] (d : MethodDescriptor) (hasReceiver : Bool) :
    FailsWith [.overflow] (d.callSlots hasReceiver) := by
  intro fault h
  obtain ⟨rfl, -⟩ := callSlots_eq_error_iff.mp h
  exact List.mem_cons_self

theorem Method.failsBut_parameterSlots [Build] (method : Method) :
    FailsBut [.invalidDescriptor] Build.checksSums method.parameterSlots := by
  refine ((MethodDescriptor.failsWith_parse _).but _).bind fun d fault h => ?_
  obtain ⟨rfl, hchecks, -⟩ := MethodDescriptor.callSlots_eq_error_iff.mp h
  exact .inr ⟨rfl, hchecks⟩

theorem Method.failsWith_parameterSlots [Build] (method : Method) :
    FailsWith [.invalidDescriptor, .overflow] method.parameterSlots :=
  method.failsBut_parameterSlots.failsWith

/-! ### Effects -/

namespace StackEffect

theorem failsWith_ofTable (op : Opcode) : FailsWith [.malformed] (ofTable op) := by
  unfold ofTable
  split
  · exact .ok _ _
  · exact .error List.mem_cons_self

theorem failsWith_ofLoad (descriptor : String) (isStatic : Bool) :
    FailsWith [.invalidDescriptor] (ofLoad descriptor isStatic) :=
  (FieldType.failsWith_parse descriptor).bind fun _ => .ok _ _

theorem failsWith_ofStore (descriptor : String) (isStatic : Bool) :
    FailsWith [.invalidDescriptor] (ofStore descriptor isStatic) :=
  (FieldType.failsWith_parse descriptor).bind fun _ => .ok _ _

theorem failsWith_ofCall [Build] (descriptor : String) (hasReceiver : Bool) :
    FailsWith [.invalidDescriptor, .overflow] (ofCall descriptor hasReceiver) :=
  ((MethodDescriptor.failsWith_parse descriptor).mono (by decide)).bind fun d =>
    ((d.failsWith_callSlots hasReceiver).mono (by decide)).bind fun _ => .ok _ _

theorem failsWith_poolOperand (operands : Bytes) :
    FailsWith [.malformed] (poolOperand operands) := by
  rw [poolOperand.eq_def]
  split
  · exact .ok _ _
  · exact .error List.mem_cons_self

theorem failsWith_ofBytes [Build] (pool : ConstantPool) (op : Opcode) (operands : Bytes) :
    FailsWith [.malformed, .invalidDescriptor, .overflow] (ofBytes pool op operands) := by
  have hmalformed : [FaultKind.malformed] ⊆ [.malformed, .invalidDescriptor, .overflow] := by decide
  have hdescriptor : [FaultKind.invalidDescriptor] ⊆ [.malformed, .invalidDescriptor, .overflow] :=
    by decide
  have hcall (descriptor : String) (hasReceiver : Bool) :
      FailsWith [.malformed, .invalidDescriptor, .overflow] (ofCall descriptor hasReceiver) :=
    (failsWith_ofCall descriptor hasReceiver).mono (by decide)
  have hoperand := (failsWith_poolOperand operands).mono hmalformed
  have htable := fun op => (failsWith_ofTable op).mono hmalformed
  refine .ite ?fields (.ite ?calls (.ite ?dynamicCalls (.ite ?arrays (.ite ?wide (htable op)))))
  case fields =>
    refine hoperand.bind fun index => ((pool.failsWith_memberRef index).mono hmalformed).bind ?_
    intro field
    have hload := fun isStatic => (failsWith_ofLoad field.descriptor isStatic).mono hdescriptor
    have hstore := fun isStatic => (failsWith_ofStore field.descriptor isStatic).mono hdescriptor
    exact .ite (hload true) (.ite (hload false) (.ite (hstore true) (hstore false)))
  case calls =>
    refine hoperand.bind fun index => ((pool.failsWith_memberRef index).mono hmalformed).bind ?_
    exact fun method => hcall method.descriptor _
  case dynamicCalls =>
    refine hoperand.bind fun index => ((pool.failsWith_callSite index).mono hmalformed).bind ?_
    exact fun descriptor => hcall descriptor false
  case arrays =>
    split
    · exact .ok _ _
    · exact .error List.mem_cons_self
  case wide =>
    -- A `wide` instruction has the effect of the one that it widens.
    split
    · exact .ite (.ok _ _) (htable _)
    · exact .error List.mem_cons_self

end StackEffect

theorem Instruction.failsWith_stackEffect [Build] (pool : ConstantPool) (i : Instruction) :
    FailsWith [.malformed, .invalidDescriptor, .overflow] (i.stackEffect pool) := by
  have hdescriptor : [FaultKind.invalidDescriptor] ⊆ [.malformed, .invalidDescriptor, .overflow] :=
    by decide
  have htable : FailsWith [.malformed, .invalidDescriptor, .overflow]
      (StackEffect.ofTable i.opcode) := (StackEffect.failsWith_ofTable i.opcode).mono (by decide)
  cases i with
  | loadField field isStatic => exact (StackEffect.failsWith_ofLoad _ _).mono hdescriptor
  | storeField field isStatic => exact (StackEffect.failsWith_ofStore _ _).mono hdescriptor
  | invoke method dispatch => exact (StackEffect.failsWith_ofCall _ _).mono (by decide)
  | jump | tableSwitch | lookupSwitch => exact htable
  | other op operands => exact StackEffect.failsWith_ofBytes pool op operands
  | _ => exact .ok _ _

/-! ### Code arrays -/

namespace Site

variable (site : Site) (layout : Layout) (target : Nat)

theorem failsWith_displacement : FailsWith [.malformed] (site.displacement layout target) := by
  rw [displacement]
  split
  · split
    · exact .ok _ _
    · exact .error List.mem_cons_self
  · exact .error List.mem_cons_self

theorem failsWith_near : FailsWith [.malformed, .branchOutOfRange] (site.near layout target) := by
  refine ((site.failsWith_displacement layout target).mono (by decide)).bind fun delta => ?_
  exact .ite (.ok _ _) (.error (by simp [Fault.kind]))

theorem failsWith_far : FailsWith [.malformed] (site.far layout target) :=
  (site.failsWith_displacement layout target).bind fun _ => .ok _ _

end Site

namespace Instruction

/-- Whether an instruction is a call through an interface that takes more slots, with its receiver,
than sixteen bits can count. -/
def Overcounts (i : Instruction) : Prop :=
  ∃ m d, i = .invoke m .interface ∧ MethodDescriptor.parse m.descriptor = .ok d ∧
    65536 ≤ d.slotCount true

theorem failsBut_interfaceTail [Build] (m : MemberRef) :
    FailsBut [.invalidDescriptor] (Build.checksSums ∧ (invoke m .interface).Overcounts)
      (interfaceTail m.descriptor) := by
  refine ((MethodDescriptor.failsWith_parse m.descriptor).but _).bind_of_ok fun d hd => ?_
  refine FailsBy.bind ?_ fun slots => .ite (.ok _ _) (.error (.inl List.mem_cons_self))
  intro fault hslots
  obtain ⟨rfl, hchecks, hmany⟩ := MethodDescriptor.callSlots_eq_error_iff.mp hslots
  exact .inr ⟨rfl, hchecks, m, d, rfl, hd, hmany⟩

/-- An instruction stops a build that checks its sums only if its arguments cannot be counted. -/
theorem failsBut_encodeAt [Build] (layout : Layout) (site : Site) (i : Instruction) :
    FailsBut [.malformed, .branchOutOfRange, .invalidDescriptor]
      (Build.checksSums ∧ i.Overcounts) (i.encodeAt layout site) := by
  have hfar : ∀ target, FailsBut [.malformed, .branchOutOfRange, .invalidDescriptor]
      (Build.checksSums ∧ i.Overcounts) (site.far layout target) :=
    fun target => ((site.failsWith_far layout target).but _).mono (by decide)
  cases i with
  | invoke m dispatch =>
    rw [encodeAt]
    split
    · next hdispatch =>
      obtain rfl := hdispatch
      exact ((failsBut_interfaceTail m).mono (by decide)).bind fun tail => .ok _ _
    · exact .ok _ _
  | jump opcode target =>
    rw [encodeAt]
    split
    · exact (hfar target).bind fun _ => .ok _ _
    · have hnear := (site.failsWith_near layout target).but
        (Build.checksSums ∧ (jump opcode target).Overcounts)
      exact (hnear.mono (by decide)).bind fun _ => .ok _ _
  | tableSwitch default low targets =>
    refine (hfar default).bind fun otherwise => .ite ?_ (.error (.inl (by simp [Fault.kind])))
    exact (FailsBy.concatMapM fun target _ => hfar target).bind fun _ => .ok _ _
  | lookupSwitch default pairs =>
    refine (hfar default).bind fun otherwise => ?_
    refine (FailsBy.concatMapM fun pair _ => ?_).bind fun _ => .ok _ _
    exact (hfar pair.2).bind fun _ => .ok _ _
  | _ => exact .ok _ _

theorem failsWith_encodeAt [Build] (layout : Layout) (site : Site) (i : Instruction) :
    FailsWith [.malformed, .branchOutOfRange, .invalidDescriptor, .overflow]
      (i.encodeAt layout site) :=
  (i.failsBut_encodeAt layout site).failsWith

theorem encodeAt_eq_overflow_iff [Build] {i : Instruction} {layout : Layout} {site : Site} :
    i.encodeAt layout site = .error .overflow ↔ Build.checksSums ∧ i.Overcounts := by
  constructor
  · intro h
    rcases i.failsBut_encodeAt layout site _ h with hkind | ⟨-, hover⟩
    · exact absurd hkind (by decide)
    · exact hover
  · rintro ⟨hchecks, m, d, rfl, hd, hmany⟩
    have hslots : d.callSlots true = .error .overflow :=
      MethodDescriptor.callSlots_eq_error_iff.mpr ⟨rfl, hchecks, hmany⟩
    exact Bytes.bind_eq_error_iff.mpr (.inl (Bytes.bind_eq_error_iff.mpr (.inr ⟨d, hd,
      Bytes.bind_eq_error_iff.mpr (.inl hslots)⟩)))

end Instruction

theorem failsWith_encode [Build] (method : String) (list : List Instruction) :
    FailsWith [.malformed, .branchOutOfRange, .invalidDescriptor, .overflow]
      (encode method list) := by
  -- The instructions are encoded one behind the other, so the induction is for every place.
  have hfrom : ∀ layout index offset list done, FailsWith
      [.malformed, .branchOutOfRange, .invalidDescriptor, .overflow]
      (encodeFrom method layout index offset list done) := by
    intro layout index offset list
    induction list generalizing index offset with
    | nil => exact fun done => .ok _ _
    | cons i rest ih =>
      exact fun done => (i.failsWith_encodeAt layout _).bind fun bytes => ih _ _ _
  rw [encode]
  split
  · exact (hfrom _ _ _ _ _).bind fun _ => .ok _ _
  · exact .error (by simp [Fault.kind])

/-! ### Steps -/

namespace Step

/-- Whether a computation on a state, if it fails, does so with one of the faults described. -/
def StopsBy {ρ α : Type} (P : Fault → Prop) (m : EStateM Fault ρ α) : Prop :=
  ∀ s fault s', m s = .error fault s' → P fault

/-- Whether a computation on a state, if it fails, does so with faults of the listed kinds. -/
abbrev StopsWith {ρ α : Type} (kinds : List FaultKind) (m : EStateM Fault ρ α) : Prop :=
  StopsBy (fun fault => fault.kind ∈ kinds) m

/-- Whether a computation on a state, if it fails, does so with faults of the listed kinds, or else
with a sum that is not held, where that can be. -/
abbrev StopsBut {ρ α : Type} (kinds : List FaultKind) (stops : Prop) (m : EStateM Fault ρ α) :
    Prop :=
  StopsBy (fun fault => fault.kind ∈ kinds ∨ fault = .overflow ∧ stops) m

/-- A compound computation fails where its first part does, or else its second. -/
theorem bind_eq_error_iff {ρ α β : Type} {m : EStateM Fault ρ α} {f : α → EStateM Fault ρ β}
    {fault : Fault} {s s'' : ρ} : (m >>= f) s = .error fault s'' ↔
      m s = .error fault s'' ∨ ∃ x s', m s = .ok x s' ∧ f x s' = .error fault s'' := by
  show EStateM.bind m f s = _ ↔ _
  rw [EStateM.bind]
  cases m s <;> simp

namespace StopsBy

variable {ρ α β : Type} {P Q : Fault → Prop} {m : EStateM Fault ρ α}

theorem imp (h : StopsBy P m) (hPQ : ∀ fault, P fault → Q fault) : StopsBy Q m :=
  fun s fault s' hm => hPQ fault (h s fault s' hm)

theorem bind (h : StopsBy P m) {f : α → EStateM Fault ρ β} (hf : ∀ x, StopsBy P (f x)) :
    StopsBy P (m >>= f) := by
  intro s fault s'' hm
  rcases bind_eq_error_iff.mp hm with hm | ⟨x, s', -, hm⟩
  · exact h s fault s'' hm
  · exact hf x s' fault s'' hm

theorem pure (P : Fault → Prop) (x : α) : StopsBy P (Pure.pure x : EStateM Fault ρ α) := by
  intro s fault s' h
  exact absurd (show EStateM.Result.ok x s = .error fault s' from h) (by simp)

theorem throw {fault : Fault} (h : P fault) :
    StopsBy P (MonadExcept.throw fault : EStateM Fault ρ α) := by
  intro s fault' s' h'
  obtain ⟨rfl, -⟩ := EStateM.Result.error.inj (show EStateM.Result.error fault s = _ from h')
  exact h

theorem of_eq_ok (P : Fault → Prop) (h : ∀ s, ∃ x s', m s = .ok x s') : StopsBy P m := by
  intro s fault s' hm
  obtain ⟨x, s'', hok⟩ := h s
  exact absurd (hok.symm.trans hm) (by simp)

end StopsBy

namespace StopsWith

variable {ρ α β : Type} {kinds kinds' : List FaultKind} {m : EStateM Fault ρ α}

theorem mono (h : StopsWith kinds m) (hsub : kinds ⊆ kinds') : StopsWith kinds' m :=
  h.imp fun _ hkind => hsub hkind

theorem but (h : StopsWith kinds m) (stops : Prop) : StopsBut kinds stops m :=
  h.imp fun _ => .inl

/-- A fault of another kind comes from behind. -/
theorem error_behind (h : StopsWith kinds m) {f : α → EStateM Fault ρ β} {fault : Fault} {s s'' : ρ}
    {kind : FaultKind} (hkind : fault.kind = kind) (hnot : kind ∉ kinds)
    (hm : (m >>= f) s = .error fault s'') : ∃ x s', m s = .ok x s' ∧ f x s' = .error fault s'' := by
  rcases bind_eq_error_iff.mp hm with hm | hm
  · exact absurd (hkind ▸ h s fault s'' hm) hnot
  · exact hm

end StopsWith

variable {σ τ α : Type} {kinds : List FaultKind}

theorem stopsWith_ofExcept {e : Except Fault α} (h : FailsWith kinds e) :
    StopsWith kinds (ofExcept e : Step σ α) := by
  cases e with
  | error fault => exact .throw (h fault rfl)
  | ok x => exact .pure _ x

theorem ofExcept_eq_error_iff {e : Except Fault α} {fault : Fault} {s s' : Traced σ} :
    (Step.ofExcept e : Step σ α) s = .error fault s' ↔ e = .error fault ∧ s = s' := by
  cases e with
  | error fault' =>
    show EStateM.Result.error fault' s = _ ↔ _
    simp
  | ok x =>
    show EStateM.Result.ok x s = _ ↔ _
    simp

theorem stopsWith_note (kinds : List FaultKind) (level : LogLevel) (message : String) :
    StopsWith kinds (note level message : Step σ Unit) :=
  .of_eq_ok _ fun _ => ⟨_, _, rfl⟩

theorem stopsWith_current (kinds : List FaultKind) : StopsWith kinds (current : Step σ σ) :=
  .of_eq_ok _ fun _ => ⟨_, _, rfl⟩

theorem stopsWith_replace (kinds : List FaultKind) (value : σ) : StopsWith kinds (replace value) :=
  .of_eq_ok _ fun _ => ⟨_, _, rfl⟩

theorem within_eq_error_iff {m : Step τ α} {t : τ} {fault : Fault} {s s' : Traced σ} :
    (within t m : Step σ (α × τ)) s = .error fault s' ↔
      ∃ t', m ⟨t, s.log⟩ = .error fault t' ∧ s' = { s with log := t'.log } := by
  rw [within]
  cases m ⟨t, s.log⟩ with
  | ok x t' => simp
  | error fault' t' =>
    simp only [EStateM.Result.error.injEq]
    constructor
    · rintro ⟨rfl, rfl⟩
      exact ⟨t', ⟨rfl, rfl⟩, rfl⟩
    · rintro ⟨_, ⟨rfl, rfl⟩, rfl⟩
      exact ⟨rfl, rfl⟩

end Step

open Step

/-! ### Pool edits -/

namespace ConstantPool

theorem stopsWith_push (c : Constant) : StopsWith [.poolFull] (push c) := by
  intro pool fault pool' h
  rw [push] at h
  split at h
  · exact absurd h (by simp)
  · obtain ⟨rfl, -⟩ := EStateM.Result.error.inj h
    exact List.mem_cons_self

theorem stopsWith_intern (c : Constant) : StopsWith [.poolFull] (intern c) := by
  refine StopsBy.bind (.of_eq_ok _ fun pool => ⟨pool, pool, rfl⟩) fun pool => ?_
  -- A constant that the pool has got is found, a new one needs room.
  cases pool.indexOf? c with
  | some index => exact .pure _ _
  | none => exact stopsWith_push c

theorem stopsWith_utf8Index (text : String) : StopsWith [.poolFull] (utf8Index text) :=
  stopsWith_intern _

theorem stopsWith_classIndex (name : String) : StopsWith [.poolFull] (classIndex name) :=
  (stopsWith_utf8Index name).bind fun _ => stopsWith_intern _

theorem stopsWith_nameAndTypeIndex (name descriptor : String) :
    StopsWith [.poolFull] (nameAndTypeIndex name descriptor) :=
  (stopsWith_utf8Index name).bind fun _ =>
    (stopsWith_utf8Index descriptor).bind fun _ => stopsWith_intern _

theorem stopsWith_fieldIndex (owner name descriptor : String) :
    StopsWith [.poolFull] (fieldIndex owner name descriptor) :=
  (stopsWith_classIndex owner).bind fun _ =>
    (stopsWith_nameAndTypeIndex name descriptor).bind fun _ => stopsWith_intern _

theorem stopsWith_methodIndex (owner name descriptor : String) :
    StopsWith [.poolFull] (methodIndex owner name descriptor) :=
  (stopsWith_classIndex owner).bind fun _ =>
    (stopsWith_nameAndTypeIndex name descriptor).bind fun _ => stopsWith_intern _

end ConstantPool

theorem Draft.stopsWith_onPool {α : Type} (kinds : List FaultKind) {m : PoolEdit α}
    (h : StopsWith kinds m) : StopsWith kinds (onPool m) := by
  intro s fault s' hm
  rw [onPool] at hm
  cases hpool : m s.value.pool with
  | ok x pool =>
    rw [hpool] at hm
    exact absurd hm (by simp)
  | error fault' pool =>
    rw [hpool] at hm
    obtain ⟨rfl, -⟩ := EStateM.Result.error.inj hm
    exact h _ _ _ hpool

theorem Draft.stopsWith_setCode (kinds : List FaultKind) (code : Code) :
    StopsWith kinds (setCode code) :=
  .of_eq_ok _ fun _ => ⟨_, _, rfl⟩

/-! ### The splice -/

theorem FieldRecords.failsWith_find (records : FieldRecords) (name : String) :
    FailsWith [.unresolvedField] (records.find name) := by
  rw [find]
  split
  · exact .ok _ _
  · exact .error List.mem_cons_self

theorem failsWith_checkReference (field : FieldRecord) :
    FailsWith [.invalidDescriptor] (checkReference field) := by
  refine (FieldType.failsWith_parse _).bind fun t => ?_
  split
  · exact .ok _ _
  · exact .error List.mem_cons_self

theorem stopsWith_injectedSequence (injection : Injection) (slot : UInt16) (kind : ValueKind) :
    StopsWith [.unresolvedField, .invalidDescriptor, .poolFull]
      (injectedSequence injection slot kind) := by
  have hfield : ∀ name, StopsWith [.unresolvedField, .invalidDescriptor, .poolFull]
      (Step.ofExcept (injection.fields.find name) : Step Draft FieldRecord) :=
    fun name => (stopsWith_ofExcept (injection.fields.failsWith_find name)).mono (by decide)
  have hreference : ∀ field, StopsWith [.unresolvedField, .invalidDescriptor, .poolFull]
      (Step.ofExcept (checkReference field) : Step Draft Unit) :=
    fun field => (stopsWith_ofExcept (failsWith_checkReference field)).mono (by decide)
  have hmember : ∀ owner name descriptor,
      StopsWith [.poolFull] (fieldMember owner name descriptor) := fun owner name descriptor =>
    (ConstantPool.stopsWith_fieldIndex owner name descriptor).bind fun _ => .pure _ _
  refine (hfield _).bind fun world => (hfield _).bind fun player => ?_
  refine (hreference world).bind fun _ => (hreference player).bind fun _ => ?_
  refine (Draft.stopsWith_onPool [.poolFull] ?_).mono (by decide)
  refine (hmember _ _ _).bind fun _ => (hmember _ _ _).bind fun _ => ?_
  refine (hmember _ _ _).bind fun _ => ?_
  refine StopsBy.bind ?_ fun _ => .pure _ _
  exact (ConstantPool.stopsWith_methodIndex _ _ _).bind fun _ => .pure _ _

theorem failsWith_discardBehind (method : String) (index : Nat) (list : List Instruction) :
    FailsWith [.inconsistent] (discardBehind method index list) := by
  induction list generalizing index with
  | nil => exact .error List.mem_cons_self
  | cons i rest ih =>
    rw [discardBehind]
    split
    · exact .ok _ _
    · exact .ite (ih (index + 1)) (.error List.mem_cons_self)

theorem Code.failsWith_remove (code : Code) (method : String) (place : Nat) :
    FailsWith [.inconsistent] (code.remove method place) := by
  rw [remove]
  split
  · exact .error List.mem_cons_self
  · split
    · exact .error List.mem_cons_self
    · exact .ok _ _

theorem failsWith_anchorCallee (method : Method) (code : Code) (anchor : Nat) :
    FailsWith [.inconsistent, .invalidDescriptor] (anchorCallee method code anchor) := by
  rw [anchorCallee]
  split
  · exact .error List.mem_cons_self
  · refine ((MethodDescriptor.failsWith_parse _).mono (by decide)).bind fun d => ?_
    split
    · exact .ok _ _
    · exact .error List.mem_cons_self
  · exact .error List.mem_cons_self

theorem failsWith_checkCoordinates (method : Method) (anchor : Nat) :
    FailsWith [.inconsistent, .invalidDescriptor] (checkCoordinates method anchor) := by
  refine .ite (.error List.mem_cons_self) ?_
  refine ((MethodDescriptor.failsWith_parse _).mono (by decide)).bind fun d => ?_
  exact .ite (.ok _ _) (.error List.mem_cons_self)

theorem failsWith_freeSlot [Build] (method : Method) (code : Code) (anchor : Nat)
    (kind : ValueKind) :
    FailsWith [.inconsistent, .invalidDescriptor, .overflow]
      (freeSlot method code anchor kind) := by
  refine (method.failsWith_parameterSlots.mono (by decide)).bind fun slots => ?_
  exact .ite (.ok _ _) (.error List.mem_cons_self)

theorem stopsWith_splice [Build] (method : Method) (anchor : Nat) (injection : Injection) :
    StopsWith [.inconsistent, .invalidDescriptor, .unresolvedField, .poolFull, .overflow]
      (splice method anchor injection) := by
  have hresult : ∀ {α : Type} {e : Except Fault α},
      FailsWith [.inconsistent, .invalidDescriptor, .overflow] e →
        StopsWith [.inconsistent, .invalidDescriptor, .unresolvedField, .poolFull, .overflow]
          (Step.ofExcept e : Step Draft α) :=
    fun h => (stopsWith_ofExcept h).mono (by decide)
  refine (stopsWith_current _).bind fun draft => ?_
  refine (hresult ((failsWith_anchorCallee method draft.code anchor).mono (by decide))).bind
    fun callee => ?_
  refine (hresult ((failsWith_checkCoordinates method anchor).mono (by decide))).bind fun _ => ?_
  refine (hresult (failsWith_freeSlot method draft.code anchor _)).bind fun slot => ?_
  refine (stopsWith_note _ _ _).bind fun _ => ?_
  refine ((stopsWith_injectedSequence injection slot _).mono (by decide)).bind fun sequence => ?_
  refine (Draft.stopsWith_setCode _ _).bind fun _ => ?_
  refine (hresult ((failsWith_discardBehind _ _ _).mono (by decide))).bind fun removed => ?_
  refine (hresult ((Code.failsWith_remove _ _ _).mono (by decide))).bind fun spliced => ?_
  refine (Draft.stopsWith_setCode _ _).bind fun _ => ?_
  exact (stopsWith_note _ _ _).bind fun _ => .pure _ _

/-! ### The places of a graft -/

theorem ClassFile.failsWith_name (c : ClassFile) : FailsWith [.malformed] c.name :=
  c.pool.failsWith_className c.thisClass

theorem FieldRecords.stopsWith_scan {σ : Type} (c : ClassFile) (remapper : Remapper)
    (wanted : List String) : StopsWith [.malformed] (scan c remapper wanted : Step σ _) := by
  refine (stopsWith_ofExcept c.failsWith_name).bind fun owner => ?_
  -- The records collected so far vary, the fault does not depend on them.
  generalize c.fields = fields
  generalize ([] : FieldRecords) = records
  induction fields generalizing records with
  | nil => exact .pure _ _
  | cons field rest ih =>
    rw [scanFields]
    split
    · exact (stopsWith_note _ _ _).bind fun _ => ih _
    · exact ih _

theorem stopsWith_findMethod {σ : Type} (c : ClassFile) (mode : NamingMode) (remapper : Remapper)
    (canonical : String) :
    StopsWith [.malformed, .methodNotFound]
      (findMethod c mode remapper canonical : Step σ Nat) := by
  refine ((stopsWith_ofExcept c.failsWith_name).mono (by decide)).bind fun owner => ?_
  dsimp only
  split
  · exact .throw (by simp [Fault.kind])
  · exact (stopsWith_note _ _ _).bind fun _ => .pure _ _

theorem stopsWith_findAnchor {σ : Type} (method : Method) (mode : NamingMode) (remapper : Remapper)
    (callee : String) :
    StopsWith [.anchorNotFound] (findAnchor method mode remapper callee : Step σ Nat) := by
  rw [findAnchor]
  split
  · exact .throw List.mem_cons_self
  · exact (stopsWith_note _ _ _).bind fun _ => .pure _ _

theorem failsWith_elim {α : Type} (o : Option α) {fault : Fault} (kind : FaultKind)
    (h : fault.kind = kind) : FailsWith [kind] (o.elim (.error fault) .ok) := by
  cases o with
  | none => exact .error (h ▸ List.mem_cons_self)
  | some x => exact .ok _ x

end ClassGraft
