/-
The survey of stack depths is exact.

A survey succeeds exactly where there is an assignment of depths to the positions that control
reaches (`StackDepth.survey_exact`), and then finds that assignment and the greatest depth in it.
The loop keeps an invariant (`StackDepth.Invariant`): every settled depth is one that control
arrives with, and behind every settled instruction that is not pending all edges are settled.  One
entry leaves the list of pending instructions in each round, and none enters twice, so the loop ends
on its own in as many rounds as there are instructions (`StackDepth.ends_explore`).
-/
import ClassGraft.Proofs.ControlFlow

namespace ClassGraft

namespace StackDepth

variable {code : Code} {pool : ConstantPool} {method : String} {depth : Nat → Nat}

namespace Progress

/-- Whether a depth on entry is settled. -/
def At (s : Progress) (p d : Nat) : Prop := s.depths[p]? = some (some d)

/-- How many instructions are pending or not settled. -/
def left (s : Progress) : Nat := s.depths.toList.count none + s.pending.toList.length

variable {s s' s'' : Progress} {source p d target : Nat} {edges : List (Nat × Nat)}

theorem At.unique {d' : Nat} (h : s.At p d) (h' : s.At p d') : d = d' :=
  Option.some.inj (Option.some.inj (h.symm.trans h'))

/-- What arriving at `edges` does: nothing that is settled changes, all of them are settled, and
what is settled anew is pending. -/
structure Enters (edges : List (Nat × Nat)) (s s' : Progress) : Prop where
  size : s'.depths.size = s.depths.size
  kept : ∀ p d, s.At p d → s'.At p d
  settled : ∀ p d, (p, d) ∈ edges → s'.At p d
  only : ∀ p d, s'.At p d → s.At p d ∨ (p, d) ∈ edges ∧ p ∈ s'.pending.toList
  pending : ∀ p ∈ s.pending.toList, p ∈ s'.pending.toList
  queued : ∀ p ∈ s'.pending.toList, p ∈ s.pending.toList ∨ ∃ d, s'.At p d
  left : s'.left = s.left

theorem Enters.refl (s : Progress) : Enters [] s s :=
  ⟨rfl, fun _ _ h => h, by simp, fun _ _ h => .inl h, fun _ h => h, fun _ h => .inl h, rfl⟩

theorem Enters.trans {edges' : List (Nat × Nat)} (h : Enters edges s s')
    (h' : Enters edges' s' s'') : Enters (edges ++ edges') s s'' where
  size := h'.size.trans h.size
  kept := fun p d hp => h'.kept p d (h.kept p d hp)
  settled := by
    intro p d hp
    rcases List.mem_append.mp hp with hp | hp
    · exact h'.kept p d (h.settled p d hp)
    · exact h'.settled p d hp
  only := by
    intro p d hp
    rcases h'.only p d hp with hp | ⟨hp, hpending⟩
    · rcases h.only p d hp with hp | ⟨hp, hpending⟩
      · exact .inl hp
      · exact .inr ⟨List.mem_append_left _ hp, h'.pending p hpending⟩
    · exact .inr ⟨List.mem_append_right _ hp, hpending⟩
  pending := fun p hp => h'.pending p (h.pending p hp)
  queued := by
    intro p hp
    rcases h'.queued p hp with hp | hp
    · rcases h.queued p hp with hp | ⟨d, hp⟩
      · exact .inl hp
      · exact .inr ⟨d, h'.kept p d hp⟩
    · exact .inr hp
  left := h'.left.trans h.left

/-- The greatest depth so far has no part in it. -/
theorem Enters.deepened (h : Enters edges s s') (maxStack maxStack' : Nat) :
    Enters edges { s with maxStack } { s' with maxStack := maxStack' } :=
  ⟨h.size, h.kept, h.settled, h.only, h.pending, h.queued, h.left⟩

theorem enter_eq_ok_iff : s.enter method source target d = .ok s' ↔
    s.depths[target]? = some none ∧ s' = { s with
        depths := s.depths.setIfInBounds target (some d), pending := s.pending.push target } ∨
      s.At target d ∧ s' = s := by
  rw [enter, At]
  rcases s.depths[target]? with _ | _ | existing
  · simp
  · simp [eq_comm]
  · by_cases h : existing = d
    · simp [h, eq_comm]
    · simp [h]

/-- Settling a depth settles nothing else. -/
theorem getElem?_settled_iff (hnone : s.depths[target]? = some none) {e : Nat} :
    (s.depths.setIfInBounds target (some d))[p]? = some (some e) ↔
      p = target ∧ e = d ∨ p ≠ target ∧ s.At p e := by
  rw [Array.getElem?_setIfInBounds]
  by_cases hp : target = p
  · subst hp
    rw [if_pos rfl, if_pos (Array.getElem?_eq_some_iff.mp hnone).1]
    simp [eq_comm]
  · rw [if_neg hp, At]
    simp [Ne.symm hp]

theorem count_settled (hnone : s.depths[target]? = some none) :
    (s.depths.setIfInBounds target (some d)).toList.count none + 1 =
      s.depths.toList.count none := by
  obtain ⟨hlt, hget⟩ := Array.getElem?_eq_some_iff.mp hnone
  rw [← Array.length_toList] at hlt
  rw [← Array.getElem_toList] at hget
  have hpos : 0 < s.depths.toList.count none :=
    List.count_pos_iff.mpr (hget ▸ List.getElem_mem hlt)
  simp only [Array.toList_setIfInBounds, List.count_set hlt, hget, beq_self_eq_true, if_true,
    show (some d == none) = false from rfl, Bool.false_eq_true, if_false]
  omega

theorem enters_of_enter (h : s.enter method source target d = .ok s') :
    Enters [(target, d)] s s' ∧ s'.maxStack = s.maxStack := by
  rcases enter_eq_ok_iff.mp h with ⟨hnone, rfl⟩ | ⟨hat, rfl⟩
  · refine ⟨⟨Array.size_setIfInBounds, ?kept, ?settled, ?only, ?pending, ?queued, ?left⟩, rfl⟩
    case kept =>
      intro p e hp
      refine (getElem?_settled_iff hnone).mpr (.inr ⟨?_, hp⟩)
      rintro rfl
      rw [At, hnone] at hp
      exact absurd hp (by simp)
    case settled =>
      intro p e hp
      obtain ⟨rfl, rfl⟩ := Prod.mk.inj (List.mem_singleton.mp hp)
      exact (getElem?_settled_iff hnone).mpr (.inl ⟨rfl, rfl⟩)
    case only =>
      intro p e hp
      rcases (getElem?_settled_iff hnone).mp hp with ⟨rfl, rfl⟩ | ⟨-, hp⟩
      · exact .inr ⟨List.mem_singleton_self _, by simp⟩
      · exact .inl hp
    case pending =>
      intro p hp
      simp [hp]
    case queued =>
      intro p hp
      simp only [Worklist.toList_push, List.mem_append, List.mem_singleton] at hp
      rcases hp with hp | rfl
      · exact .inl hp
      · exact .inr ⟨d, (getElem?_settled_iff hnone).mpr (.inl ⟨rfl, rfl⟩)⟩
    case left =>
      -- One more is pending and one less not settled.
      have hcount := count_settled (d := d) hnone
      simp only [left, Worklist.toList_push, List.length_append, List.length_singleton]
      omega
  · refine ⟨⟨rfl, fun _ _ h => h, ?_, fun _ _ h => .inl h, fun _ h => h, fun _ h => .inl h, rfl⟩,
      rfl⟩
    intro p e hp
    obtain ⟨rfl, rfl⟩ := Prod.mk.inj (List.mem_singleton.mp hp)
    exact hat

theorem enters_of_enterAll (h : s.enterAll method source edges = .ok s') :
    Enters edges s s' ∧ s'.maxStack = s.maxStack := by
  induction edges generalizing s with
  | nil =>
    obtain rfl := Except.ok.inj h
    exact ⟨Enters.refl s, rfl⟩
  | cons e edges ih =>
    rw [enterAll, List.foldlM_cons, Bytes.bind_eq_ok_iff] at h
    obtain ⟨s₁, hone, hrest⟩ := h
    obtain ⟨hone, hmax⟩ := enters_of_enter hone
    obtain ⟨hrest, hmax'⟩ := ih hrest
    exact ⟨hone.trans hrest, hmax'.trans hmax⟩

/-- Whether nothing that is settled differs from an assignment. -/
def Agrees (depth : Nat → Nat) (s : Progress) : Prop := ∀ p d, s.At p d → d = depth p

theorem Agrees.of_enters (h : s.Agrees depth) (hs : Enters edges s s')
    (hedges : ∀ p d, (p, d) ∈ edges → d = depth p) : s'.Agrees depth := by
  intro p d hp
  rcases hs.only p d hp with hp | ⟨hp, -⟩
  · exact h p d hp
  · exact hedges p d hp

theorem exists_enter (method : String) (source : Nat) (h : s.Agrees depth)
    (htarget : target < s.depths.size)
    (hd : d = depth target) : ∃ s', s.enter method source target d = .ok s' := by
  simp only [enter_eq_ok_iff]
  rcases hat : s.depths[target]? with _ | _ | existing
  · rw [Array.getElem?_eq_none_iff] at hat
    omega
  · exact ⟨_, .inl ⟨rfl, rfl⟩⟩
  · obtain rfl := (h target existing hat).trans hd.symm
    exact ⟨s, .inr ⟨hat, rfl⟩⟩

theorem exists_enterAll (method : String) (source : Nat) (h : s.Agrees depth)
    (hedges : ∀ p d, (p, d) ∈ edges → p < s.depths.size ∧ d = depth p) :
    ∃ s', s.enterAll method source edges = .ok s' := by
  induction edges generalizing s with
  | nil => exact ⟨s, rfl⟩
  | cons e edges ih =>
    obtain ⟨hlt, hd⟩ := hedges e.1 e.2 List.mem_cons_self
    obtain ⟨s₁, hone⟩ := exists_enter method source h hlt hd
    have henters := (enters_of_enter hone).1
    have hrest : ∀ p d, (p, d) ∈ edges → p < s₁.depths.size ∧ d = depth p := by
      intro p d hp
      rw [henters.size]
      exact hedges p d (List.mem_cons_of_mem _ hp)
    obtain ⟨s', hs'⟩ := ih (h.of_enters henters (by
      intro p d hp
      obtain ⟨rfl, rfl⟩ := Prod.mk.inj (List.mem_singleton.mp hp)
      exact hd)) hrest
    refine ⟨s', ?_⟩
    rw [enterAll, List.foldlM_cons, Bytes.bind_eq_ok_iff]
    exact ⟨s₁, hone, hs'⟩

theorem enters_of_enterHandlers {handlers : List Handler}
    (h : handlers.foldlM
      (fun s handler => do
        let s ← s.enter method handler.start handler.entry 1
        return { s with maxStack := max s.maxStack 1 }) s = .ok s') :
    Enters (handlers.map fun handler => (handler.entry, 1)) s s' ∧
      s'.maxStack = if handlers = [] then s.maxStack else max s.maxStack 1 := by
  induction handlers generalizing s with
  | nil =>
    obtain rfl := Except.ok.inj h
    exact ⟨Enters.refl s, rfl⟩
  | cons handler handlers ih =>
    simp only [List.foldlM_cons, Bytes.bind_eq_ok_iff] at h
    obtain ⟨_, ⟨s₁, hone, hs₁⟩, hrest⟩ := h
    obtain rfl := Except.ok.inj hs₁
    obtain ⟨hone, hmax⟩ := enters_of_enter hone
    obtain ⟨hrest, hmax'⟩ := ih hrest
    refine ⟨(hone.deepened s.maxStack (max s₁.maxStack 1)).trans hrest, ?_⟩
    rw [hmax', ← hmax, if_neg (List.cons_ne_nil _ _)]
    split
    · rfl
    · exact max_eq_left (le_max_right _ _)

theorem exists_enterHandlers (method : String) {handlers : List Handler} (h : s.Agrees depth)
    (hhandlers : ∀ handler ∈ handlers, handler.entry < s.depths.size ∧ depth handler.entry = 1) :
    ∃ s', handlers.foldlM
      (fun s handler => do
        let s ← s.enter method handler.start handler.entry 1
        return { s with maxStack := max s.maxStack 1 }) s = .ok s' := by
  induction handlers generalizing s with
  | nil => exact ⟨s, rfl⟩
  | cons handler handlers ih =>
    obtain ⟨⟨hlt, hd⟩, hrest⟩ := List.forall_mem_cons.mp hhandlers
    obtain ⟨s₁, hone⟩ := exists_enter method handler.start h hlt hd.symm
    have henters := (enters_of_enter hone).1.deepened s.maxStack (max s₁.maxStack 1)
    obtain ⟨s', hs'⟩ := ih (h.of_enters henters (by
      intro p d hp
      obtain ⟨rfl, rfl⟩ := Prod.mk.inj (List.mem_singleton.mp hp)
      exact hd.symm)) (by
        rw [henters.size]
        exact hrest)
    refine ⟨s', ?_⟩
    simp only [List.foldlM_cons, Bytes.bind_eq_ok_iff]
    exact ⟨_, ⟨s₁, hone, rfl⟩, hs'⟩

theorem visit_eq_ok_iff [Build] {list : Array Instruction} {i : Instruction}
    (hi : list[p]? = some i)
    (hd : s.At p d) : s.visit pool method list p = .ok s' ↔ ∃ deep, i.Passes pool d deep ∧
      { s with maxStack := max s.maxStack deep }.enterAll method p (i.edges p d deep) = .ok s' := by
  rw [visit, hi, hd]
  simp only [Bytes.bind_eq_ok_iff, after_eq_ok_iff]

theorem left_of_visit [Build] {list : Array Instruction} (h : s.visit pool method list p = .ok s') :
    s'.left = s.left := by
  unfold visit at h
  split at h
  · rw [Bytes.bind_eq_ok_iff] at h
    obtain ⟨deep, -, h⟩ := h
    exact (enters_of_enterAll h).1.left
  · obtain rfl := Except.ok.inj h
    rfl

theorem left_of_pop? {pending : Worklist Nat} (h : s.pending.pop? = some (p, pending)) :
    s.left = { s with pending }.left + 1 := by
  rw [left, left, Worklist.toList_of_pop?_eq_some h, List.length_cons]
  rfl

end Progress

/-! ### The loop -/

open Progress

variable {s s' : Progress}

/-- The loop without a bound on its rounds, and what it ends with. -/
inductive Ends [Build] (pool : ConstantPool) (method : String) (list : Array Instruction) :
    Progress → Except Fault Progress → Prop
  | done {s : Progress} (h : s.pending.pop? = none) : Ends pool method list s (.ok s)
  | failed {s : Progress} {p : Nat} {pending : Worklist Nat} {fault : Fault}
      (h : s.pending.pop? = some (p, pending))
      (hvisit : { s with pending }.visit pool method list p = .error fault) :
      Ends pool method list s (.error fault)
  | round {s s' : Progress} {p : Nat} {pending : Worklist Nat} {result : Except Fault Progress}
      (h : s.pending.pop? = some (p, pending))
      (hvisit : { s with pending }.visit pool method list p = .ok s')
      (hrest : Ends pool method list s' result) : Ends pool method list s result

/-- The loop ends by itself where there is as much fuel as is left to do. -/
theorem ends_explore [Build] {list : Array Instruction} {fuel : Nat} (h : s.left ≤ fuel) :
    Ends pool method list s (explore pool method list fuel s) := by
  -- Each round takes one from what is left, so with no fuel nothing is pending.
  induction fuel generalizing s with
  | zero =>
    refine .done ?_
    cases hpop : s.pending.pop? with
    | none => rfl
    | some x =>
      have := left_of_pop? hpop
      omega
  | succ fuel ih =>
    rw [explore]
    cases hpop : s.pending.pop? with
    | none => exact .done hpop
    | some x =>
      obtain ⟨p, pending⟩ := x
      simp only
      have hleft := left_of_pop? hpop
      cases hvisit : Progress.visit pool method list { s with pending } p with
      | error fault => exact .failed hpop hvisit
      | ok s' =>
        have := left_of_visit hvisit
        exact .round hpop hvisit (ih (by omega))

/-- The edges that lead into a body. -/
def roots (code : Code) : List (Nat × Nat) :=
  (0, 0) :: code.handlers.map fun handler => (handler.entry, 1)

theorem mem_roots_iff {p d : Nat} : (p, d) ∈ roots code ↔
    p = 0 ∧ d = 0 ∨ ∃ handler ∈ code.handlers, p = handler.entry ∧ d = 1 := by
  simp [roots, eq_comm]

/-- A depth that the stack has at a handler or behind an instruction. -/
def IsHeight [Build] (code : Code) (pool : ConstantPool) (m : Nat) : Prop :=
  code.handlers ≠ [] ∧ m = 1 ∨ ∃ p d i, code.Arrives pool p d ∧
    code.instructions[p]? = some i ∧ i.Passes pool d m

/-- What holds between the rounds of a survey. -/
structure Invariant [Build] (code : Code) (pool : ConstantPool) (s : Progress) : Prop where
  size : s.depths.size = code.instructions.length
  roots : ∀ p d, (p, d) ∈ roots code → s.At p d
  sound : ∀ p d, s.At p d → code.Arrives pool p d
  queued : ∀ p ∈ s.pending.toList, ∃ d, s.At p d
  done : ∀ p d, s.At p d → p ∉ s.pending.toList → ∃ i after, code.instructions[p]? = some i ∧
    i.Passes pool d after ∧ after ≤ s.maxStack ∧ ∀ q e, i.Leads p d after q e → s.At q e
  handlers_le : code.handlers ≠ [] → 1 ≤ s.maxStack
  greatest : s.maxStack = 0 ∨ IsHeight code pool s.maxStack

theorem not_at_unvisited (n p d : Nat) : ¬(unvisited n).At p d := by
  intro hp
  rw [At, unvisited, Array.getElem?_replicate] at hp
  split at hp
  · exact absurd hp (by simp)
  · exact absurd hp (by simp)

namespace Invariant

theorem agrees [Build] (h : Invariant code pool s) (hdepth : code.IsAssignment pool depth) :
    s.Agrees depth :=
  fun p d hp => hdepth.eq_of_arrives (h.sound p d hp)

/-- The invariant holds when all roots have been entered. -/
theorem of_enterRoots [Build] (pool : ConstantPool)
    (hs : enterRoots method code.handlers (unvisited code.instructions.length) = .ok s) :
    Invariant code pool s ∧ s.left = code.instructions.length := by
  have hnone := not_at_unvisited code.instructions.length
  have hleft : (unvisited code.instructions.length).left = code.instructions.length := by
    simp [left, unvisited]
  rw [enterRoots, Bytes.bind_eq_ok_iff] at hs
  obtain ⟨s₁, hstart, hhandlers⟩ := hs
  obtain ⟨hstart, hmax⟩ := enters_of_enter hstart
  obtain ⟨hhandlers, hmax'⟩ := enters_of_enterHandlers hhandlers
  have henters : Enters (StackDepth.roots code) _ s := hstart.trans hhandlers
  have hpending : ∀ p d, s.At p d → p ∈ s.pending.toList := by
    intro p d hp
    rcases henters.only p d hp with hp | ⟨-, hp⟩
    · exact absurd hp (hnone p d)
    · exact hp
  refine ⟨⟨?size, henters.settled, ?sound, ?queued, ?done, ?handlers_le, ?greatest⟩,
    henters.left.trans hleft⟩
  case size => rw [henters.size, unvisited, Array.size_replicate]
  case sound =>
    intro p d hp
    rcases henters.only p d hp with hp | ⟨hp, -⟩
    · exact absurd hp (hnone p d)
    · rcases mem_roots_iff.mp hp with ⟨rfl, rfl⟩ | ⟨handler, hh, rfl, rfl⟩
      · exact .start
      · exact .handler hh
  case queued =>
    intro p hp
    rcases henters.queued p hp with hp | hp
    · exact absurd hp (by simp [unvisited])
    · exact hp
  case done => exact fun p d hp hnot => absurd (hpending p d hp) hnot
  case handlers_le =>
    intro hne
    rw [hmax', if_neg hne]
    exact le_max_right _ _
  case greatest =>
    by_cases hne : code.handlers = []
    · rw [hmax', if_pos hne, hmax]
      exact .inl rfl
    · rw [hmax', if_neg hne, hmax]
      exact .inr (.inl ⟨hne, rfl⟩)

/-- A round keeps the invariant. -/
theorem visit [Build] (h : Invariant code pool s) {p : Nat} {pending : Worklist Nat}
    (hpop : s.pending.pop? = some (p, pending))
    (hvisit : { s with pending }.visit pool method code.instructions.toArray p = .ok s') :
    Invariant code pool s' := by
  have hlist := Worklist.toList_of_pop?_eq_some hpop
  obtain ⟨d, hd⟩ := h.queued p (by rw [hlist]; exact List.mem_cons_self)
  have hlt : p < code.instructions.length := h.size ▸ (Array.getElem?_eq_some_iff.mp hd).1
  have hi : code.instructions.toArray[p]? = some code.instructions[p] := by
    rw [List.getElem?_toArray, List.getElem?_eq_getElem hlt]
  have hd' : At { s with pending } p d := hd
  obtain ⟨deep, hpass, hedges⟩ := (visit_eq_ok_iff hi hd').mp hvisit
  obtain ⟨henters, hmax⟩ := enters_of_enterAll hedges
  rw [List.getElem?_toArray] at hi
  have hmax : s'.maxStack = max s.maxStack deep := hmax
  have hleads : ∀ q e, (q, e) ∈ code.instructions[p].edges p d deep ↔
      code.instructions[p].Leads p d deep q e := fun _ _ => Instruction.mem_edges_iff
  refine ⟨henters.size.trans h.size, ?roots, ?sound, ?queued, ?done, ?handlers_le, ?greatest⟩
  case roots => exact fun q e hq => henters.kept q e (h.roots q e hq)
  case sound =>
    intro q e hq
    rcases henters.only q e hq with hq | ⟨hq, -⟩
    · exact h.sound q e hq
    · exact .step (h.sound p d hd) hi hpass ((hleads q e).mp hq)
  case queued =>
    intro q hq
    rcases henters.queued q hq with hq | hq
    · obtain ⟨e, he⟩ := h.queued q (by rw [hlist]; exact List.mem_cons_of_mem p hq)
      exact ⟨e, henters.kept q e he⟩
    · exact hq
  case done =>
    -- What is settled and not pending is the visited instruction or was done before.
    intro q e hq hnot
    by_cases hqp : q = p
    · subst hqp
      obtain rfl := hq.unique (henters.kept q d hd)
      refine ⟨_, deep, hi, hpass, ?_, fun r f hr => henters.settled r f ((hleads r f).mpr hr)⟩
      rw [hmax]
      exact le_max_right _ _
    · rcases henters.only q e hq with hq | ⟨-, hq⟩
      · have hnot' : q ∉ s.pending.toList := by
          rw [hlist, List.mem_cons, not_or]
          exact ⟨hqp, fun hq => hnot (henters.pending q hq)⟩
        obtain ⟨i, after, hi, hpass, hle, hleads⟩ := h.done q e hq hnot'
        refine ⟨i, after, hi, hpass, ?_, fun r f hr => henters.kept r f (hleads r f hr)⟩
        rw [hmax]
        exact hle.trans (le_max_left _ _)
      · exact absurd hq hnot
  case handlers_le =>
    intro hne
    rw [hmax]
    exact (h.handlers_le hne).trans (le_max_left _ _)
  case greatest =>
    rw [hmax]
    rcases max_choice s.maxStack deep with hchoice | hchoice
    · rw [hchoice]
      exact h.greatest
    · rw [hchoice]
      exact .inr (.inr ⟨p, d, _, h.sound p d hd, hi, hpass⟩)

/-- The loop keeps the invariant and leaves nothing pending. -/
theorem explore [Build] {fuel : Nat} (h : Invariant code pool s) (hleft : s.left ≤ fuel)
    (hs : explore pool method code.instructions.toArray fuel s = .ok s') :
    Invariant code pool s' ∧ s'.pending.toList = [] := by
  induction fuel generalizing s with
  | zero =>
    obtain rfl := Except.ok.inj hs
    refine ⟨h, List.eq_nil_of_length_eq_zero ?_⟩
    rw [left] at hleft
    omega
  | succ fuel ih =>
    rw [StackDepth.explore] at hs
    cases hpop : s.pending.pop? with
    | none =>
      rw [hpop] at hs
      obtain rfl := Except.ok.inj hs
      exact ⟨h, Worklist.toList_of_pop?_eq_none hpop⟩
    | some x =>
      obtain ⟨p, pending⟩ := x
      rw [hpop] at hs
      obtain ⟨s₁, hvisit, hs⟩ := Bytes.bind_eq_ok_iff.mp hs
      have hleft₁ := left_of_visit hvisit
      have hleft₂ := left_of_pop? hpop
      exact ih (h.visit hpop hvisit) (by omega) hs

/-- Where there is an assignment, the loop succeeds. -/
theorem exists_explore [Build] (h : Invariant code pool s) (hdepth : code.IsAssignment pool depth)
    (method : String) (fuel : Nat) :
    ∃ s', StackDepth.explore pool method code.instructions.toArray fuel s = .ok s' := by
  induction fuel generalizing s with
  | zero => exact ⟨s, rfl⟩
  | succ fuel ih =>
    rw [StackDepth.explore]
    cases hpop : s.pending.pop? with
    | none => exact ⟨s, rfl⟩
    | some x =>
      obtain ⟨p, pending⟩ := x
      obtain ⟨d, hd⟩ := h.queued p (by
        rw [Worklist.toList_of_pop?_eq_some hpop]
        exact List.mem_cons_self)
      have hreaches := (h.sound p d hd).reaches
      have hlt := hdepth.inside p hreaches
      have hi : code.instructions[p]? = some code.instructions[p] := List.getElem?_eq_getElem hlt
      obtain ⟨deep, hpass, hleads⟩ := hdepth.passes p _ hreaches hi
      -- The assignment tells the depth on each edge, so no two of them contradict each other.
      obtain rfl := h.agrees hdepth p d hd
      have hedges : ∀ q e, (q, e) ∈ code.instructions[p].edges p (depth p) deep →
          q < s.depths.size ∧ e = depth q := by
        intro q e hq
        have hq := Instruction.mem_edges_iff.mp hq
        exact ⟨h.size ▸ hdepth.inside q (.step hreaches hi hq), (hleads q e hq).symm⟩
      obtain ⟨s₁, hs₁⟩ := exists_enterAll method p
        (show Agrees depth ⟨s.depths, pending, max s.maxStack deep⟩ from h.agrees hdepth) hedges
      have hd' : At { s with pending } p (depth p) := hd
      have hi' : code.instructions.toArray[p]? = some code.instructions[p] := by
        rw [List.getElem?_toArray]
        exact hi
      have hvisit : { s with pending }.visit pool method code.instructions.toArray p = .ok s₁ :=
        (visit_eq_ok_iff hi' hd').mpr ⟨deep, hpass, hs₁⟩
      obtain ⟨s', hs'⟩ := ih (h.visit hpop hvisit)
      exact ⟨s', Bytes.bind_eq_ok_iff.mpr ⟨s₁, hvisit, hs'⟩⟩

/-- When nothing is pending, exactly the depths that control arrives with are settled. -/
theorem at_iff [Build] (h : Invariant code pool s) (hpending : s.pending.toList = []) {p d : Nat} :
    s.At p d ↔ code.Arrives pool p d := by
  constructor
  · exact h.sound p d
  · -- The roots are settled, and with nothing pending every settled depth has been led on.
    intro hp
    induction hp with
    | start => exact h.roots 0 0 (mem_roots_iff.mpr (.inl ⟨rfl, rfl⟩))
    | handler hh => exact h.roots _ 1 (mem_roots_iff.mpr (.inr ⟨_, hh, rfl, rfl⟩))
    | step _ hi hpass hq ih =>
      obtain ⟨i, after, hi', hpass', -, hleads⟩ := h.done _ _ ih (by simp [hpending])
      obtain rfl := Option.some.inj (hi.symm.trans hi')
      obtain rfl := hpass.unique hpass'
      exact hleads _ _ hq

end Invariant

/-! ### The survey -/

theorem survey_eq_ok_iff [Build] (hne : code.instructions ≠ []) {r : StackDepths} :
    survey code pool method = .ok r ↔ ∃ s s',
      enterRoots method code.handlers (unvisited code.instructions.length) = .ok s ∧
      explore pool method code.instructions.toArray code.instructions.length s = .ok s' ∧
      r = ⟨s'.maxStack, s'.depths⟩ := by
  have hempty : code.instructions.toArray.isEmpty = false := by
    rw [List.isEmpty_toArray, List.isEmpty_eq_false_iff]
    exact hne
  simp only [survey, hempty, Bool.false_eq_true, if_false, Bytes.bind_eq_ok_iff,
    List.size_toArray]
  constructor
  · rintro ⟨s, hs, s', hs', hr⟩
    exact ⟨s, s', hs, hs', (Except.ok.inj hr).symm⟩
  · rintro ⟨s, s', hs, hs', rfl⟩
    exact ⟨s, hs, s', hs', rfl⟩

/-- A survey that succeeds settles exactly the depths that control arrives with. -/
theorem survey_spec [Build] (hne : code.instructions ≠ []) {r : StackDepths}
    (h : survey code pool method = .ok r) :
    r.depths.size = code.instructions.length ∧
      (∀ p d, r.depths[p]? = some (some d) ↔ code.Arrives pool p d) ∧
      (∀ p d, code.Arrives pool p d → ∃ i after, code.instructions[p]? = some i ∧
        i.Passes pool d after) ∧
      IsGreatest {m | IsHeight code pool m} r.maxStack := by
  obtain ⟨s, s', hs, hs', rfl⟩ := (survey_eq_ok_iff hne).mp h
  obtain ⟨hinv, hleft⟩ := Invariant.of_enterRoots pool hs
  obtain ⟨hinv, hpending⟩ := hinv.explore hleft.le hs'
  have hdone : ∀ p d, code.Arrives pool p d → ∃ i after, code.instructions[p]? = some i ∧
      i.Passes pool d after ∧ after ≤ s'.maxStack := by
    intro p d hp
    obtain ⟨i, after, hi, hpass, hle, -⟩ :=
      hinv.done p d ((hinv.at_iff hpending).mpr hp) (by simp [hpending])
    exact ⟨i, after, hi, hpass, hle⟩
  refine ⟨hinv.size, fun p d => hinv.at_iff hpending, ?_, ?_, ?_⟩
  · intro p d hp
    obtain ⟨i, after, hi, hpass, -⟩ := hdone p d hp
    exact ⟨i, after, hi, hpass⟩
  · rcases hinv.greatest with hzero | hheight
    · -- The first instruction leaves some depth behind, which can only be 0.
      obtain ⟨i, after, hi, hpass, hle⟩ := hdone 0 0 .start
      obtain rfl : after = s'.maxStack := by omega
      exact .inr ⟨0, 0, i, .start, hi, hpass⟩
    · exact hheight
  · rintro m (⟨hhandlers, rfl⟩ | ⟨p, d, i, hp, hi, hpass⟩)
    · exact hinv.handlers_le hhandlers
    · obtain ⟨i', after, hi', hpass', hle⟩ := hdone p d hp
      obtain rfl := Option.some.inj (hi.symm.trans hi')
      obtain rfl := hpass.unique hpass'
      exact hle

/-- Where there is an assignment, the survey succeeds. -/
theorem exists_survey [Build] (hne : code.instructions ≠ []) (hdepth : code.IsAssignment pool depth)
    (method : String) : ∃ r, survey code pool method = .ok r := by
  have hsize : (unvisited code.instructions.length).depths.size = code.instructions.length :=
    Array.size_replicate
  have hagrees : (unvisited code.instructions.length).Agrees depth :=
    fun p d hp => absurd hp (not_at_unvisited _ p d)
  obtain ⟨s₁, hs₁⟩ := exists_enter method 0 hagrees
    (show 0 < _ by rw [hsize]; exact hdepth.inside 0 .start) hdepth.start.symm
  have henters := (enters_of_enter hs₁).1
  have hagrees₁ : s₁.Agrees depth := by
    refine hagrees.of_enters henters fun p d hp => ?_
    obtain ⟨rfl, rfl⟩ := Prod.mk.inj (List.mem_singleton.mp hp)
    exact hdepth.start.symm
  obtain ⟨s, hs⟩ := exists_enterHandlers method hagrees₁ fun handler hh =>
    ⟨by rw [henters.size, hsize]; exact hdepth.inside _ (.handler hh), hdepth.handlers handler hh⟩
  have hroots : enterRoots method code.handlers (unvisited code.instructions.length) = .ok s :=
    Bytes.bind_eq_ok_iff.mpr ⟨s₁, hs₁, hs⟩
  obtain ⟨s', hs'⟩ := (Invariant.of_enterRoots pool hroots).1.exists_explore hdepth method
    code.instructions.length
  exact ⟨_, (survey_eq_ok_iff hne).mpr ⟨s, s', hroots, hs', rfl⟩⟩

/-- The depths that a survey settles are an assignment. -/
theorem isAssignment_of_survey [Build] (hne : code.instructions ≠ []) {r : StackDepths}
    (h : survey code pool method = .ok r) :
    code.IsAssignment pool fun p => (r.depths[p]?.join).getD 0 := by
  obtain ⟨-, hdepths, hpass, -⟩ := survey_spec hne h
  refine Code.isAssignment_of_arrives (fun p d hp => ?_) hpass
  rw [(hdepths p d).mpr hp]
  rfl

/-- A survey finds the depths of an assignment for the instructions that control reaches, and none
for the others. -/
theorem survey_depths [Build] (hne : code.instructions ≠ []) {r : StackDepths}
    (h : survey code pool method = .ok r) (hdepth : code.IsAssignment pool depth) {p : Nat}
    (hp : p < code.instructions.length) :
    (code.Reaches p → r.depths[p]? = some (some (depth p))) ∧
      (¬code.Reaches p → r.depths[p]? = some none) := by
  obtain ⟨hsize, hdepths, -, -⟩ := survey_spec hne h
  refine ⟨fun hreaches => (hdepths p _).mpr (hdepth.arrives hreaches), fun hnot => ?_⟩
  rcases hget : r.depths[p]? with _ | _ | d
  · rw [Array.getElem?_eq_none_iff] at hget
    omega
  · rfl
  · exact absurd ((hdepths p d).mp hget).reaches hnot

/-- The heights are those of the instructions that control reaches with the depths of an assignment.
-/
theorem isHeight_iff [Build] (hdepth : code.IsAssignment pool depth) {m : Nat} :
    IsHeight code pool m ↔
    code.handlers ≠ [] ∧ m = 1 ∨ ∃ p i, code.Reaches p ∧ code.instructions[p]? = some i ∧
      i.Passes pool (depth p) m := by
  simp only [IsHeight, hdepth.arrives_iff]
  refine or_congr_right ⟨?_, ?_⟩
  · rintro ⟨p, _, i, ⟨hp, rfl⟩, hi, hpass⟩
    exact ⟨p, i, hp, hi, hpass⟩
  · rintro ⟨p, i, hp, hi, hpass⟩
    exact ⟨p, _, i, ⟨hp, rfl⟩, hi, hpass⟩

/-- A survey of a body with instructions succeeds exactly if there is an assignment of depths.  Then
it finds those depths for the instructions that control reaches, and none for the others, and its
deepest stack is the greatest depth at a handler or behind an instruction that control reaches.  The
loop in it ends by itself in any case. -/
theorem survey_exact [Build] (code : Code) (pool : ConstantPool) (method : String)
    (hne : code.instructions ≠ []) :
    ((∃ r, survey code pool method = .ok r) ↔ ∃ depth, code.IsAssignment pool depth) ∧
      (∀ r depth, survey code pool method = .ok r → code.IsAssignment pool depth →
        r.depths.size = code.instructions.length ∧
        (∀ p < code.instructions.length, (code.Reaches p → r.depths[p]? = some (some (depth p))) ∧
          (¬code.Reaches p → r.depths[p]? = some none)) ∧
        IsGreatest {m | code.handlers ≠ [] ∧ m = 1 ∨ ∃ p i, code.Reaches p ∧
          code.instructions[p]? = some i ∧ i.Passes pool (depth p) m} r.maxStack) ∧
      ∀ s, enterRoots method code.handlers (unvisited code.instructions.length) = .ok s →
        Ends pool method code.instructions.toArray s
          (explore pool method code.instructions.toArray code.instructions.length s) := by
  refine ⟨⟨?_, ?_⟩, ?_, ?_⟩
  · rintro ⟨r, hr⟩
    exact ⟨_, isAssignment_of_survey hne hr⟩
  · rintro ⟨depth, hdepth⟩
    exact exists_survey hne hdepth method
  · intro r depth hr hdepth
    obtain ⟨hsize, -, -, hgreatest⟩ := survey_spec hne hr
    refine ⟨hsize, fun p hp => survey_depths hne hr hdepth hp, ?_⟩
    have hset : {m | IsHeight code pool m} = {m | code.handlers ≠ [] ∧ m = 1 ∨ ∃ p i,
        code.Reaches p ∧ code.instructions[p]? = some i ∧ i.Passes pool (depth p) m} := by
      ext m
      exact isHeight_iff hdepth
    rw [← hset]
    exact hgreatest
  · intro s hs
    exact ends_explore (Invariant.of_enterRoots pool hs).2.le

/-- A body that branches back to its start. -/
def loopBody : Code where
  maxStack := 1
  maxLocals := 0
  instructions := [.other 4 [], .jump 154 0, .exit none]
  handlers := []
  attributes := []

attribute [local instance] Build.checked

theorem survey_loopBody : loopBody.instructions ≠ [] ∧
    survey loopBody .empty "m" = .ok ⟨1, #[some 0, some 1, some 0]⟩ ∧
    ∃ depth, loopBody.IsAssignment .empty depth := by
  have hne : loopBody.instructions ≠ [] := by decide
  have hsurvey : survey loopBody .empty "m" = .ok ⟨1, #[some 0, some 1, some 0]⟩ := by
    decide +kernel
  exact ⟨hne, hsurvey, (survey_exact loopBody .empty "m" hne).1.mp ⟨_, hsurvey⟩⟩

end StackDepth

end ClassGraft
