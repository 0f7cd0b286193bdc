/-
What a graft that succeeds has done.

The steps of a graft are turned inside out one by one: a splice puts a handler call behind the
anchor and takes a `pop` out (`exists_splice_iff`), the members that the call names resolve in the
grown pool (`IsSplice.resolve`), measuring only changes the declared sizes (`exists_remeasure_iff`),
and a patched class is the class with the new body and the new pool
(`Transformer.exists_patch_iff`).  So a proper class stays proper (`ClassFile.Proper.patch`).
-/
import ClassGraft.Graft.Transformer
import ClassGraft.Proofs.Editing

namespace ClassGraft

/-! ### The handler call -/

/-- The members that a handler call names. -/
structure HandlerMembers where
  /-- The static field that holds the handler. -/
  holder : MemberRef
  world : MemberRef
  player : MemberRef
  /-- The method of the handler. -/
  handler : MemberRef

namespace HandlerMembers

/-- The call that names the members. -/
def call (m : HandlerMembers) (slot : UInt16) (kind : ValueKind) : Instructions :=
  handlerCall slot kind m.holder m.world m.player m.handler

/-- Whether the members are those that an injection asks for. -/
structure AreOf (m : HandlerMembers) (injection : Injection) : Prop where
  holder : m.holder = ⟨m.holder.index, injection.config.handlerClass,
    injection.config.handlerField, injection.config.handlerType⟩
  world : ∃ field, injection.fields.find (injection.mode.resolve injection.config.worldField) =
      .ok field ∧ checkReference field = .ok () ∧
    m.world = ⟨m.world.index, injection.owner, field.name, field.descriptor⟩
  player : ∃ field, injection.fields.find (injection.mode.resolve injection.config.playerField) =
      .ok field ∧ checkReference field = .ok () ∧
    m.player = ⟨m.player.index, injection.owner, field.name, field.descriptor⟩
  handler : m.handler = ⟨m.handler.index, injection.config.handlerClass,
    injection.config.handlerMethod,
    GraftConfig.handlerDescriptor m.world.descriptor m.player.descriptor⟩

/-- Whether the indices of the members stand for them in a pool. -/
structure Resolve (m : HandlerMembers) (pool : ConstantPool) : Prop where
  holder : pool.memberRef m.holder.index = .ok m.holder
  world : pool.memberRef m.world.index = .ok m.world
  player : pool.memberRef m.player.index = .ok m.player
  handler : pool.memberRef m.handler.index = .ok m.handler

theorem length_call (m : HandlerMembers) (slot : UInt16) (kind : ValueKind) :
    (m.call slot kind).length = 11 := rfl

theorem targets_call {m : HandlerMembers} {slot : UInt16} {kind : ValueKind} :
    ∀ i ∈ m.call slot kind, i.targets = [] := by
  intro i hi
  simp only [call, handlerCall, List.mem_cons, List.not_mem_nil, or_false] at hi
  rcases hi with rfl | rfl | rfl | rfl | rfl | rfl | rfl | rfl | rfl | rfl | rfl
  all_goals rfl

theorem legible_call [Build] {m : HandlerMembers} {pool : ConstantPool} (h : m.Resolve pool)
    (slot : UInt16) (kind : ValueKind) : ∀ i ∈ m.call slot kind, i.Legible pool :=
  Instruction.legible_handlerCall h.holder h.world h.player h.handler

end HandlerMembers

section Members

variable {pool pool' pool'' : ConstantPool} {constant : UInt16 → UInt16 → Constant}
  {owner name descriptor : String} {m : MemberRef}

/-- A reference to a field or a method, of which `constant` makes a constant that is added where it
is missing. -/
def memberOf (constant : UInt16 → UInt16 → Constant) (owner name descriptor : String) :
    PoolEdit MemberRef := do
  return ⟨← ConstantPool.memberIndex constant owner name descriptor, owner, name, descriptor⟩

/-- A member is made up of an index and of what the index has been asked for. -/
theorem memberOf_eq_ok_iff : memberOf constant owner name descriptor pool = .ok m pool' ↔
    ConstantPool.memberIndex constant owner name descriptor pool = .ok m.index pool' ∧
      m = ⟨m.index, owner, name, descriptor⟩ := by
  rw [memberOf, Step.bind_eq_ok_iff]
  constructor
  · rintro ⟨index, pool₁, hindex, h⟩
    obtain ⟨rfl, rfl⟩ := Step.pure_eq_ok_iff.mp h
    exact ⟨hindex, rfl⟩
  · rintro ⟨hindex, hm⟩
    exact ⟨m.index, pool', hindex, Step.pure_eq_ok_iff.mpr ⟨hm.symm, rfl⟩⟩

theorem validate_of_memberOf (hconstant : ConstantPool.MakesMembers constant)
    (h : memberOf constant owner name descriptor pool = .ok m pool')
    (hvalid : pool.validate = .ok ()) : pool'.validate = .ok () :=
  ConstantPool.validate_of_memberIndex hconstant (memberOf_eq_ok_iff.mp h).1 hvalid

/-- A member that has been asked for resolves, where slots can be counted. -/
theorem memberRef_of_memberOf (hconstant : ConstantPool.MakesMembers constant)
    (h : memberOf constant owner name descriptor pool = .ok m pool')
    (hext : pool'.Extends pool'') (hcount : pool''.count ≤ ConstantPool.maxSlots) :
    pool''.memberRef m.index = .ok m := by
  obtain ⟨hindex, hm⟩ := memberOf_eq_ok_iff.mp h
  have hcount' := hext.count_le.trans hcount
  rw [hm]
  exact hext.memberRef (ConstantPool.memberRef_of_memberIndex hconstant hindex hcount').2

theorem confined_memberOf (constant : UInt16 → UInt16 → Constant)
    (owner name descriptor : String) :
    ConstantPool.Confined (memberOf constant owner name descriptor) :=
  (ConstantPool.confined_memberIndex constant owner name descriptor).bind fun _ => .pure _

end Members

/-- The members of a handler call that hands over two fields. -/
def Injection.members (injection : Injection) (world player : FieldRecord) :
    PoolEdit HandlerMembers := do
  let config := injection.config
  let holder ← fieldMember config.handlerClass config.handlerField config.handlerType
  let worldRef ← fieldMember injection.owner world.name world.descriptor
  let playerRef ← fieldMember injection.owner player.name player.descriptor
  let handler ← methodMember config.handlerClass config.handlerMethod
    (GraftConfig.handlerDescriptor world.descriptor player.descriptor)
  return ⟨holder, worldRef, playerRef, handler⟩

/-- A handler call is put together once both fields are known and hold references. -/
theorem injectedSequence_eq_ok_iff {injection : Injection} {slot : UInt16} {kind : ValueKind}
    {sequence : Instructions} {s s' : Traced Draft} :
    injectedSequence injection slot kind s = .ok sequence s' ↔ ∃ world player,
      injection.fields.find (injection.mode.resolve injection.config.worldField) = .ok world ∧
      injection.fields.find (injection.mode.resolve injection.config.playerField) = .ok player ∧
      checkReference world = .ok () ∧ checkReference player = .ok () ∧
      ∃ m pool, injection.members world player s.value.pool = .ok m pool ∧
        sequence = m.call slot kind ∧ s' = { s with value := { s.value with pool } } := by
  have hmembers : ∀ world player : FieldRecord, (do
      let config := injection.config
      let holder ← fieldMember config.handlerClass config.handlerField config.handlerType
      let worldRef ← fieldMember injection.owner world.name world.descriptor
      let playerRef ← fieldMember injection.owner player.name player.descriptor
      let handler ← methodMember config.handlerClass config.handlerMethod
        (GraftConfig.handlerDescriptor world.descriptor player.descriptor)
      return handlerCall slot kind holder worldRef playerRef handler) =
      (injection.members world player >>= fun m => pure (m.call slot kind)) := by
    intro world player
    simp only [Injection.members, bind_assoc, pure_bind]
    rfl
  simp only [injectedSequence, hmembers, Step.bind_eq_ok_iff, Step.ofExcept_eq_ok_iff,
    Draft.onPool_eq_ok_iff, Step.pure_eq_ok_iff]
  constructor
  · rintro ⟨world, _, ⟨hworld, rfl⟩, player, _, ⟨hplayer, rfl⟩, _, _, ⟨hworldType, rfl⟩, _, _,
      ⟨hplayerType, rfl⟩, pool, ⟨m, _, hm, rfl, rfl⟩, rfl⟩
    exact ⟨world, player, hworld, hplayer, hworldType, hplayerType, m, _, hm, rfl, rfl⟩
  · rintro ⟨world, player, hworld, hplayer, hworldType, hplayerType, m, pool, hm, rfl, rfl⟩
    exact ⟨world, s, ⟨hworld, rfl⟩, player, s, ⟨hplayer, rfl⟩, (), s, ⟨hworldType, rfl⟩, (), s,
      ⟨hplayerType, rfl⟩, pool, ⟨m, pool, hm, rfl, rfl⟩, rfl⟩

namespace Injection

variable {injection : Injection} {world player : FieldRecord} {pool pool' : ConstantPool}
  {m : HandlerMembers}

theorem confined_members (injection : Injection) (world player : FieldRecord) :
    ConstantPool.Confined (injection.members world player) :=
  (confined_memberOf .fieldRef _ _ _).bind fun _ =>
    (confined_memberOf .fieldRef _ _ _).bind fun _ =>
      (confined_memberOf .fieldRef _ _ _).bind fun _ =>
        (confined_memberOf .methodRef _ _ _).bind fun _ => .pure _

/-- The members are asked for one after the other. -/
theorem exists_of_members (h : injection.members world player pool = .ok m pool') :
    ∃ pool₁ pool₂ pool₃, memberOf .fieldRef injection.config.handlerClass
        injection.config.handlerField injection.config.handlerType pool = .ok m.holder pool₁ ∧
      memberOf .fieldRef injection.owner world.name world.descriptor pool₁ = .ok m.world pool₂ ∧
      memberOf .fieldRef injection.owner player.name player.descriptor pool₂ = .ok m.player pool₃ ∧
      memberOf .methodRef injection.config.handlerClass injection.config.handlerMethod
        (GraftConfig.handlerDescriptor world.descriptor player.descriptor) pool₃ =
          .ok m.handler pool' := by
  simp only [members, Step.bind_eq_ok_iff, Step.pure_eq_ok_iff] at h
  obtain ⟨holder, pool₁, hholder, world, pool₂, hworld, player, pool₃, hplayer, handler, _,
    hhandler, rfl, rfl⟩ := h
  exact ⟨pool₁, pool₂, pool₃, hholder, hworld, hplayer, hhandler⟩

theorem validate_of_members (h : injection.members world player pool = .ok m pool')
    (hvalid : pool.validate = .ok ()) : pool'.validate = .ok () := by
  obtain ⟨pool₁, pool₂, pool₃, hholder, hworld, hplayer, hhandler⟩ := exists_of_members h
  have hvalid₁ := validate_of_memberOf ConstantPool.makesMembers_fieldRef hholder hvalid
  have hvalid₂ := validate_of_memberOf ConstantPool.makesMembers_fieldRef hworld hvalid₁
  have hvalid₃ := validate_of_memberOf ConstantPool.makesMembers_fieldRef hplayer hvalid₂
  exact validate_of_memberOf ConstantPool.makesMembers_methodRef hhandler hvalid₃

/-- A member that resolves goes on to do so while the pool grows. -/
theorem resolve_of_members (h : injection.members world player pool = .ok m pool')
    (hcount : pool'.count ≤ ConstantPool.maxSlots) : m.Resolve pool' := by
  obtain ⟨pool₁, pool₂, pool₃, hholder, hworld, hplayer, hhandler⟩ := exists_of_members h
  have hext₃ := (confined_memberOf _ _ _ _).appends hhandler
  have hext₂ := ((confined_memberOf _ _ _ _).appends hplayer).trans hext₃
  have hext₁ := ((confined_memberOf _ _ _ _).appends hworld).trans hext₂
  exact ⟨memberRef_of_memberOf ConstantPool.makesMembers_fieldRef hholder hext₁ hcount,
    memberRef_of_memberOf ConstantPool.makesMembers_fieldRef hworld hext₂ hcount,
    memberRef_of_memberOf ConstantPool.makesMembers_fieldRef hplayer hext₃ hcount,
    memberRef_of_memberOf ConstantPool.makesMembers_methodRef hhandler (.refl pool') hcount⟩

theorem areOf_of_members (h : injection.members world player pool = .ok m pool')
    (hworld : injection.fields.find (injection.mode.resolve injection.config.worldField) =
      .ok world)
    (hplayer : injection.fields.find (injection.mode.resolve injection.config.playerField) =
      .ok player)
    (hworldType : checkReference world = .ok ()) (hplayerType : checkReference player = .ok ()) :
    m.AreOf injection := by
  obtain ⟨pool₁, pool₂, pool₃, hholder, hworldRef, hplayerRef, hhandler⟩ := exists_of_members h
  obtain ⟨-, hworldRef⟩ := memberOf_eq_ok_iff.mp hworldRef
  obtain ⟨-, hplayerRef⟩ := memberOf_eq_ok_iff.mp hplayerRef
  refine ⟨(memberOf_eq_ok_iff.mp hholder).2, ⟨world, hworld, hworldType, hworldRef⟩,
    ⟨player, hplayer, hplayerType, hplayerRef⟩, ?_⟩
  rw [hworldRef, hplayerRef]
  exact (memberOf_eq_ok_iff.mp hhandler).2

end Injection

/-! ### The splice -/

/-- The `pop` that is found stands behind instructions that do nothing. -/
theorem discardBehind_eq_ok_iff {method : String} {index p : Nat} {list : List Instruction} :
    discardBehind method index list = .ok p ↔ ∃ nops rest : List Instruction,
      list = nops ++ .pop :: rest ∧ (∀ i ∈ nops, i.isNop) ∧ p = index + nops.length := by
  -- The first instruction is the `pop`, or one more that does nothing, or neither.
  induction list generalizing index with
  | nil => simp [discardBehind]
  | cons i rest ih =>
    rw [discardBehind]
    by_cases hpop : i = .pop
    · rw [if_pos hpop, Except.ok.injEq]
      constructor
      · rintro rfl
        exact ⟨[], rest, by rw [hpop, List.nil_append], by simp, rfl⟩
      · rintro ⟨nops, rest', hlist, hnops, rfl⟩
        cases nops with
        | nil => rfl
        | cons j nops =>
          obtain ⟨rfl, -⟩ := List.cons.inj hlist
          exact absurd (hnops i (by simp)) (by simp [hpop, Instruction.isNop])
    · rw [if_neg hpop]
      by_cases hnop : i.isNop
      · rw [if_pos hnop, ih]
        constructor
        · rintro ⟨nops, rest', rfl, hnops, rfl⟩
          exact ⟨i :: nops, rest', rfl, List.forall_mem_cons.mpr ⟨hnop, hnops⟩,
            by rw [List.length_cons]; omega⟩
        · rintro ⟨nops, rest', hlist, hnops, rfl⟩
          cases nops with
          | nil => exact absurd (List.cons.inj hlist).1 hpop
          | cons j nops =>
            obtain ⟨rfl, rfl⟩ := List.cons.inj hlist
            exact ⟨nops, rest', rfl, (List.forall_mem_cons.mp hnops).2,
              by rw [List.length_cons]; omega⟩
      · rw [if_neg hnop]
        simp only [reduceCtorEq, false_iff]
        rintro ⟨nops, rest', hlist, hnops, -⟩
        cases nops with
        | nil => exact hpop (List.cons.inj hlist).1
        | cons j nops =>
          obtain ⟨rfl, -⟩ := List.cons.inj hlist
          exact hnop (hnops i (by simp))

/-- The anchor is a call with an `int` result. -/
theorem anchorCallee_eq_ok_iff {method : Method} {code : Code} {anchor : Nat}
    {callee : MemberRef} {kind : ValueKind} :
    anchorCallee method code anchor = .ok (callee, kind) ↔ kind = .int ∧ ∃ dispatch d,
      code.instructions[anchor]? = some (.invoke callee dispatch) ∧
        MethodDescriptor.parse callee.descriptor = .ok d ∧ d.resultKind = some .int := by
  rw [anchorCallee]
  rcases code.instructions[anchor]? with _ | i
  · simp
  · cases i with
    | invoke m dispatch =>
      simp only [Bytes.bind_eq_ok_iff, Bytes.ite_throw_eq_ok_iff, Option.some.injEq,
        Instruction.invoke.injEq]
      constructor
      · rintro ⟨d, hd, hresult, h⟩
        obtain ⟨rfl, rfl⟩ := Prod.mk.inj (Except.ok.inj h)
        exact ⟨rfl, dispatch, d, ⟨rfl, rfl⟩, hd, hresult⟩
      · rintro ⟨rfl, _, d, ⟨rfl, rfl⟩, hd, hresult⟩
        exact ⟨d, hd, hresult, rfl⟩
    | _ => simp

/-- What a splice that succeeds has found and done. -/
structure IsSplice [Build] (method : Method) (anchor : Nat) (injection : Injection)
    (spliced : Spliced) (draft draft' : Draft) (m : HandlerMembers) : Prop where
  callee : ∃ callee dispatch d, draft.code.instructions[anchor]? = some (.invoke callee dispatch) ∧
    MethodDescriptor.parse callee.descriptor = .ok d ∧ d.resultKind = some .int
  coordinates : checkCoordinates method anchor = .ok ()
  kind : spliced.kind = .int
  slot : freeSlot method draft.code anchor .int = .ok spliced.slot
  start : spliced.start = anchor + 1
  stop : spliced.stop = anchor + 12
  asked : ∃ world player,
    injection.fields.find (injection.mode.resolve injection.config.worldField) = .ok world ∧
    injection.fields.find (injection.mode.resolve injection.config.playerField) = .ok player ∧
    checkReference world = .ok () ∧ checkReference player = .ok () ∧
    injection.members world player draft.pool = .ok m draft'.pool
  removed : discardBehind method.name (anchor + 12)
    ((draft.code.insert (anchor + 1) (m.call spliced.slot .int)).instructions.drop (anchor + 12)) =
      .ok spliced.removed
  code : ∃ i, (draft.code.insert (anchor + 1) (m.call spliced.slot .int)).remove method.name
    spliced.removed = .ok (i, draft'.code)

/-- A splice succeeds exactly if its parts do; what is logged does not matter. -/
theorem exists_splice_iff [Build] {method : Method} {anchor : Nat} {injection : Injection}
    {spliced : Spliced} {s : Traced Draft} {draft' : Draft} :
    (∃ log, splice method anchor injection s = .ok spliced ⟨draft', log⟩) ↔
      ∃ m, IsSplice method anchor injection spliced s.value draft' m := by
  simp only [splice, Step.bind_eq_ok_iff, Step.current_eq_ok_iff, Step.ofExcept_eq_ok_iff,
    Step.note_eq_ok_iff, Draft.setCode_eq_ok_iff, Step.pure_eq_ok_iff]
  constructor
  · rintro ⟨log, draft, _, ⟨rfl, rfl⟩, ⟨callee, kind⟩, _, ⟨hanchor, rfl⟩, _, _, ⟨hcoordinates, rfl⟩,
      slot, _, ⟨hslot, rfl⟩, _, s₁, rfl, sequence, s₂, hsequence, _, s₃, rfl, removed, _,
      ⟨hremoved, rfl⟩, ⟨i, code⟩, _, ⟨hcode, rfl⟩, _, s₄, rfl, _, _, rfl, rfl, h⟩
    obtain ⟨rfl, -⟩ := Traced.mk.inj h
    obtain ⟨world, player, hworld, hplayer, hworldType, hplayerType, m, pool, hm, rfl, rfl⟩ :=
      injectedSequence_eq_ok_iff.mp hsequence
    obtain ⟨rfl, hcall⟩ := anchorCallee_eq_ok_iff.mp hanchor
    exact ⟨m, ⟨callee, hcall⟩, hcoordinates, rfl, hslot, rfl, rfl,
      ⟨world, player, hworld, hplayer, hworldType, hplayerType, hm⟩, hremoved, i, hcode⟩
  · rintro ⟨m, ⟨callee, hcall⟩, hcoordinates, hkind, hslot, hstart, hstop, hasked, hremoved, i,
      hcode⟩
    obtain ⟨slot, kind, start, stop, removed⟩ := spliced
    obtain rfl : kind = .int := hkind
    obtain rfl : start = anchor + 1 := hstart
    obtain rfl : stop = anchor + 12 := hstop
    obtain ⟨world, player, hworld, hplayer, hworldType, hplayerType, hm⟩ := hasked
    have hcallee : anchorCallee method s.value.code anchor = .ok (callee, .int) :=
      anchorCallee_eq_ok_iff.mpr ⟨rfl, hcall⟩
    exact ⟨_, s.value, s, ⟨rfl, rfl⟩, (callee, .int), s, ⟨hcallee, rfl⟩, (), s, ⟨hcoordinates, rfl⟩,
      slot, s, ⟨hslot, rfl⟩, (), _, rfl, _, _, injectedSequence_eq_ok_iff.mpr ⟨world, player,
        hworld, hplayer, hworldType, hplayerType, m, draft'.pool, hm, rfl, rfl⟩, (), _, rfl,
      removed, _, ⟨hremoved, rfl⟩, (i, draft'.code), _, ⟨hcode, rfl⟩, (), _, rfl, (), _, rfl, rfl,
      rfl⟩

theorem splice_spec [Build] {method : Method} {anchor : Nat} {injection : Injection}
    {spliced : Spliced}
    {s s' : Traced Draft} (h : splice method anchor injection s = .ok spliced s') :
    ∃ m, IsSplice method anchor injection spliced s.value s'.value m :=
  exists_splice_iff.mp ⟨s'.log, h⟩

namespace IsSplice

variable {method : Method} {anchor : Nat} {injection : Injection} {spliced : Spliced}
  {draft draft' : Draft} {m : HandlerMembers}

/-- The handler call names the members that are asked for. -/
theorem members [Build] (h : IsSplice method anchor injection spliced draft draft' m) :
    m.AreOf injection := by
  obtain ⟨world, player, hworld, hplayer, hworldType, hplayerType, hm⟩ := h.asked
  exact Injection.areOf_of_members hm hworld hplayer hworldType hplayerType

theorem extension [Build] (h : IsSplice method anchor injection spliced draft draft' m) :
    draft.pool.Extends draft'.pool := by
  obtain ⟨world, player, -, -, -, -, hm⟩ := h.asked
  exact (injection.confined_members world player).appends hm

theorem valid [Build] (h : IsSplice method anchor injection spliced draft draft' m)
    (hvalid : draft.pool.validate = .ok ()) : draft'.pool.validate = .ok () := by
  obtain ⟨world, player, -, -, -, -, hm⟩ := h.asked
  exact Injection.validate_of_members hm hvalid

/-- The members resolve, where slots can be counted. -/
theorem resolve [Build] (h : IsSplice method anchor injection spliced draft draft' m)
    (hpool : draft.pool.count ≤ ConstantPool.maxSlots) :
    draft'.pool.count ≤ ConstantPool.maxSlots ∧ m.Resolve draft'.pool := by
  obtain ⟨world, player, -, -, -, -, hm⟩ := h.asked
  have hcount : draft'.pool.count ≤ ConstantPool.maxSlots :=
    ConstantPool.left_eq_of_ok hm ▸ (injection.confined_members world player).room _ hpool
  exact ⟨hcount, Injection.resolve_of_members hm hcount⟩

end IsSplice

/-- A spliced body is proper in the grown pool, which is proper. -/
theorem IsSplice.proper [Build] {method : Method} {anchor : Nat} {injection : Injection}
    {spliced : Spliced} {draft draft' : Draft} {m : HandlerMembers}
    (h : IsSplice method anchor injection spliced draft draft' m)
    (hpool : draft.pool.Proper) (hcode : draft.code.Proper draft.pool) :
    draft.pool.Grown draft'.pool ∧ draft'.code.Proper draft'.pool := by
  obtain ⟨i, hremove⟩ := h.code
  obtain ⟨hcount, hresolve⟩ := h.resolve hpool.count_le
  have hgrown := hpool.grown h.extension hcount (h.valid hpool.valid)
  have hinsert := (hcode.of_extends h.extension).insert (anchor + 1)
    (HandlerMembers.legible_call hresolve spliced.slot .int)
  refine ⟨hgrown, hinsert.remove ?_ hremove⟩
  show 1 < (Instructions.insert _ _ _).length
  rw [Instructions.length_insert, HandlerMembers.length_call]
  omega

/-! ### Measuring -/

/-- Measuring surveys and encodes the body and changes its declared sizes only; what is logged does
not matter. -/
theorem exists_remeasure_iff [Build] {method : Method} {maxima : Maxima} {s : Traced Draft}
    {draft : Draft} : (∃ log, remeasure method s = .ok maxima ⟨draft, log⟩) ↔
      ∃ depths encoded slots,
        StackDepth.survey s.value.code s.value.pool method.name = .ok depths ∧
        encode method.name s.value.code.instructions = .ok encoded ∧
        method.parameterSlots = .ok slots ∧
        maxima = ⟨UInt16.ofNat depths.maxStack, UInt16.ofNat (s.value.code.localWatermark slots),
          encoded.bytes.length⟩ ∧
        draft = { s.value with code := { s.value.code with
          maxStack := maxima.maxStack, maxLocals := maxima.maxLocals } } := by
  simp only [remeasure, Step.bind_eq_ok_iff, Step.current_eq_ok_iff, Step.ofExcept_eq_ok_iff,
    Step.note_eq_ok_iff, Draft.setCode_eq_ok_iff, Step.pure_eq_ok_iff]
  constructor
  · rintro ⟨log, draft, _, ⟨rfl, rfl⟩, depths, _, ⟨hdepths, rfl⟩, encoded, _, ⟨hencoded, rfl⟩, _,
      s₁, rfl, slots, _, ⟨hslots, rfl⟩, _, s₂, rfl, _, s₃, rfl, rfl, h⟩
    exact ⟨depths, encoded, slots, hdepths, hencoded, hslots, rfl, (Traced.mk.inj h).1.symm⟩
  · rintro ⟨depths, encoded, slots, hdepths, hencoded, hslots, rfl, rfl⟩
    exact ⟨_, s.value, s, ⟨rfl, rfl⟩, depths, s, ⟨hdepths, rfl⟩, encoded, s, ⟨hencoded, rfl⟩, (), _,
      rfl, slots, _, ⟨hslots, rfl⟩, (), _, rfl, (), _, rfl, rfl, rfl⟩

theorem remeasure_spec [Build] {method : Method} {maxima : Maxima} {s s' : Traced Draft}
    (h : remeasure method s = .ok maxima s') : ∃ depths encoded slots,
      StackDepth.survey s.value.code s.value.pool method.name = .ok depths ∧
      encode method.name s.value.code.instructions = .ok encoded ∧
      method.parameterSlots = .ok slots ∧
      maxima = ⟨UInt16.ofNat depths.maxStack, UInt16.ofNat (s.value.code.localWatermark slots),
        encoded.bytes.length⟩ ∧
      s'.value = { s.value with code := { s.value.code with
        maxStack := maxima.maxStack, maxLocals := maxima.maxLocals } } :=
  exists_remeasure_iff.mp ⟨s'.log, h⟩

/-! ### The places -/

/-- An entry that is found among the entries with their places is the first one, at its place. -/
theorem find?_zipIdx_eq_some_iff {α : Type} {p : α → Bool} {xs : List α} {x : α} {n : Nat} :
    xs.zipIdx.find? (fun y => p y.1) = some (x, n) ↔
      xs.findIdx? p = some n ∧ xs[n]? = some x := by
  rw [List.find?_eq_some_iff_getElem, List.findIdx?_eq_some_iff_getElem]
  simp only [List.getElem_zipIdx, List.length_zipIdx, Nat.zero_add, Prod.mk.injEq]
  constructor
  · rintro ⟨hp, k, hk, ⟨rfl, rfl⟩, hbefore⟩
    exact ⟨⟨hk, hp, fun j hj => by simpa using hbefore j hj⟩, List.getElem?_eq_getElem hk⟩
  · rintro ⟨⟨hn, hp, hbefore⟩, hx⟩
    obtain ⟨_, rfl⟩ := List.getElem?_eq_some_iff.mp hx
    exact ⟨hp, n, hn, ⟨rfl, rfl⟩, fun j hj => by simpa using hbefore j hj⟩

/-- The method that is found is the first one of the wanted name. -/
theorem exists_findMethod_iff {σ : Type} {c : ClassFile} {mode : NamingMode}
    {remapper : Remapper} {canonical : String} {place : Nat} {s : Traced σ} :
    (∃ s', findMethod c mode remapper canonical s = .ok place s') ↔
      ∃ owner, c.name = .ok owner ∧ (c.methods.findIdx? fun method =>
        remapper.methodName owner method.name method.descriptor == mode.resolve canonical) =
          some place := by
  constructor
  · rintro ⟨s', h⟩
    simp only [findMethod, Step.bind_eq_ok_iff, Step.ofExcept_eq_ok_iff] at h
    obtain ⟨owner, _, ⟨howner, rfl⟩, h⟩ := h
    refine ⟨owner, howner, ?_⟩
    generalize hfound : List.find? _ c.methods.zipIdx = found at h
    rcases found with _ | ⟨method, n⟩
    · exact (Step.throw_eq_ok_iff.mp h).elim
    · simp only [Step.bind_eq_ok_iff, Step.pure_eq_ok_iff] at h
      obtain ⟨_, _, -, rfl, -⟩ := h
      exact (find?_zipIdx_eq_some_iff.mp hfound).1
  · rintro ⟨owner, howner, h⟩
    have hplace := (List.findIdx?_eq_some_iff_getElem.mp h).1
    have hfound := find?_zipIdx_eq_some_iff.mpr ⟨h, List.getElem?_eq_getElem hplace⟩
    simp only [findMethod, howner, Step.ofExcept, pure_bind, hfound]
    exact ⟨_, rfl⟩

/-- The anchor that is found is the first call of the wanted callee. -/
theorem exists_findAnchor_iff {σ : Type} {method : Method} {mode : NamingMode}
    {remapper : Remapper} {callee : String} {anchor : Nat} {s : Traced σ} :
    (∃ s', findAnchor method mode remapper callee s = .ok anchor s') ↔
      ∃ code, method.code? = some code ∧
        code.instructions.findIdx? (Instruction.callsName remapper (mode.resolve callee)) =
          some anchor := by
  rw [← Option.bind_eq_some_iff]
  constructor
  · rintro ⟨s', h⟩
    simp only [findAnchor] at h
    generalize hfound : method.code?.bind _ = found at h ⊢
    rcases found with _ | index
    · exact (Step.throw_eq_ok_iff.mp h).elim
    · simp only [Step.bind_eq_ok_iff, Step.pure_eq_ok_iff] at h
      obtain ⟨_, _, -, rfl, -⟩ := h
      rfl
  · intro hfound
    simp only [findAnchor, hfound]
    exact ⟨_, rfl⟩

/-- The fields that are wanted are recorded alike whatever has been logged before. -/
theorem FieldRecords.scanFields_again {σ τ : Type} {owner : String} {remapper : Remapper}
    {wanted : List String} {fields : List Field} {records found : FieldRecords} {s s' : Traced σ}
    (h : scanFields owner remapper wanted fields records s = .ok found s') (t : Traced τ) :
    ∃ t', scanFields owner remapper wanted fields records t = .ok found t' := by
  induction fields generalizing records s t with
  | nil =>
    obtain ⟨rfl, -⟩ := Step.pure_eq_ok_iff.mp h
    exact ⟨t, Step.pure_eq_ok_iff.mpr ⟨rfl, rfl⟩⟩
  | cons field rest ih =>
    rw [scanFields] at h ⊢
    dsimp only at h ⊢
    split
    · next hwanted =>
      rw [if_pos hwanted] at h
      obtain ⟨_, s₁, -, h⟩ := Step.bind_eq_ok_iff.mp h
      obtain ⟨t', ht'⟩ := ih h { t with log := t.log ++ [_] }
      exact ⟨t', Step.bind_eq_ok_iff.mpr ⟨(), _, rfl, ht'⟩⟩
    · next hwanted =>
      rw [if_neg hwanted] at h
      exact ih h t

theorem FieldRecords.scan_again {σ τ : Type} {c : ClassFile} {remapper : Remapper}
    {wanted : List String} {found : FieldRecords} {s s' : Traced σ}
    (h : scan c remapper wanted s = .ok found s') (t : Traced τ) :
    ∃ t', scan c remapper wanted t = .ok found t' := by
  simp only [scan, Step.bind_eq_ok_iff, Step.ofExcept_eq_ok_iff] at h ⊢
  obtain ⟨owner, _, ⟨howner, rfl⟩, hfields⟩ := h
  obtain ⟨t', ht'⟩ := scanFields_again hfields t
  exact ⟨t', owner, t, ⟨howner, rfl⟩, ht'⟩

/-! ### The patch -/

namespace Transformer

/-- What a patch that succeeds has found and done. -/
structure IsPatch [Build] (t : Transformer) (mode : NamingMode) (report : GraftReport)
    (c c' : ClassFile)
    (place : Nat) (method : Method) (code : Code) (injection : Injection) (spliced : Spliced)
    (maxima : Maxima) (draft : Draft) : Prop where
  asked : injection.config = t.config ∧ injection.mode = mode ∧ c.name = .ok injection.owner
  scanned : ∃ s s' : Traced ClassFile, FieldRecords.scan c t.remapper
    [mode.resolve t.config.worldField, mode.resolve t.config.playerField] s =
      .ok injection.fields s'
  located : ∃ s s' : Traced ClassFile,
    findMethod c mode t.remapper t.config.targetMethod s = .ok place s'
  atPlace : c.methods[place]? = some method
  anchored : ∃ s s' : Traced ClassFile,
    findAnchor method mode t.remapper t.config.anchorCallee s = .ok report.anchor s'
  body : method.code? = some code
  grafted : ∃ log log', graft method report.anchor injection ⟨⟨code, c.pool⟩, log⟩ =
    .ok (spliced, maxima) ⟨draft, log'⟩
  result : c' = { c.withCode place draft.code with pool := draft.pool }
  reported : report = ⟨injection.owner, method.name, method.descriptor, report.anchor, spliced.slot,
    spliced.stop - spliced.start, spliced.removed, maxima.maxStack, maxima.maxLocals⟩

theorem elim_eq_ok_iff {α : Type} {o : Option α} {fault : Fault} {x : α} :
    o.elim (.error fault) Except.ok = .ok x ↔ o = some x := by
  cases o <;> simp

theorem graft_eq_ok_iff [Build] {method : Method} {anchor : Nat} {injection : Injection}
    {spliced : Spliced} {maxima : Maxima} {s s' : Traced Draft} :
    graft method anchor injection s = .ok (spliced, maxima) s' ↔
      ∃ s₁, splice method anchor injection s = .ok spliced s₁ ∧
        remeasure method s₁ = .ok maxima s' := by
  simp only [graft, Step.bind_eq_ok_iff, Step.pure_eq_ok_iff, Prod.mk.injEq]
  constructor
  · rintro ⟨_, s₁, hsplice, _, _, hmaxima, ⟨rfl, rfl⟩, rfl⟩
    exact ⟨s₁, hsplice, hmaxima⟩
  · rintro ⟨s₁, hsplice, hmaxima⟩
    exact ⟨spliced, s₁, hsplice, maxima, s', hmaxima, ⟨rfl, rfl⟩, rfl⟩

/-- A graft looks only at the name of a method and at what its descriptor says of coordinates and
slots. -/
theorem graft_congr [Build] {method method' : Method} {anchor : Nat}
    (hname : method.name = method'.name)
    (hcoordinates : checkCoordinates method anchor = checkCoordinates method' anchor)
    (hslots : method.parameterSlots = method'.parameterSlots) (injection : Injection) :
    graft method anchor injection = graft method' anchor injection := by
  have hcallee (code : Code) :
      anchorCallee method code anchor = anchorCallee method' code anchor := by
    rw [anchorCallee, anchorCallee, hname]
  have hfree (code : Code) (kind : ValueKind) :
      freeSlot method code anchor kind = freeSlot method' code anchor kind := by
    rw [freeSlot, freeSlot, hslots, hname]
  simp only [graft, splice, remeasure, hcallee, hfree, hcoordinates, hname, hslots]

/-- A graft does the same whatever has been logged before. -/
theorem graft_again [Build] {method : Method} {anchor : Nat} {injection : Injection}
    {x : Spliced × Maxima} {draft draft' : Draft} {log log' : List LogLine}
    (h : graft method anchor injection ⟨draft, log⟩ = .ok x ⟨draft', log'⟩)
    (before : List LogLine) :
    ∃ after, graft method anchor injection ⟨draft, before⟩ = .ok x ⟨draft', after⟩ := by
  obtain ⟨spliced, maxima⟩ := x
  obtain ⟨s₁, hsplice, hmaxima⟩ := graft_eq_ok_iff.mp h
  obtain ⟨m, hspliced⟩ := splice_spec hsplice
  have hmeasured := exists_remeasure_iff.mp ⟨log', hmaxima⟩
  obtain ⟨log₁, hsplice⟩ := exists_splice_iff (s := ⟨draft, before⟩).mpr ⟨m, hspliced⟩
  obtain ⟨after, hmaxima⟩ := exists_remeasure_iff (s := ⟨s₁.value, log₁⟩).mpr hmeasured
  exact ⟨after, graft_eq_ok_iff.mpr ⟨_, hsplice, hmaxima⟩⟩

/-- A patch succeeds exactly if its parts do; what is logged does not matter. -/
theorem exists_patch_iff [Build] {t : Transformer} {mode : NamingMode} {report : GraftReport}
    {c c' : ClassFile} {log : List LogLine} :
    (∃ log', t.patch mode ⟨c, log⟩ = .ok report ⟨c', log'⟩) ↔
      ∃ place method code injection spliced maxima draft,
        t.IsPatch mode report c c' place method code injection spliced maxima draft := by
  simp only [patch, Step.bind_eq_ok_iff, Step.current_eq_ok_iff, Step.ofExcept_eq_ok_iff,
    Step.note_eq_ok_iff, Step.replace_eq_ok_iff, Step.pure_eq_ok_iff]
  constructor
  · rintro ⟨log', _, _, ⟨rfl, rfl⟩, owner, _, ⟨howner, rfl⟩, _, s₁, rfl, fields, s₂, hfields, place,
      s₃, hplace, method, _, ⟨hmethod, rfl⟩, anchor, s₄, hanchor, code, _, ⟨hcode, rfl⟩,
      ⟨⟨spliced, maxima⟩, draft⟩, s₅, hgraft, _, s₆, rfl, _, s₇, rfl, rfl, hc⟩
    obtain ⟨hgraft, -⟩ := Step.within_eq_ok_iff.mp hgraft
    exact ⟨place, method, code, ⟨t.config, mode, owner, fields⟩, spliced, maxima, draft,
      ⟨rfl, rfl, howner⟩, ⟨_, _, hfields⟩, ⟨_, _, hplace⟩, elim_eq_ok_iff.mp hmethod,
      ⟨_, _, hanchor⟩, elim_eq_ok_iff.mp hcode, ⟨_, _, hgraft⟩,
      (congrArg Traced.value hc).symm, rfl⟩
  · rintro ⟨place, method, code, ⟨config, mode, owner, fields⟩, spliced, maxima, draft, h⟩
    obtain ⟨rfl, rfl, howner⟩ := h.asked
    obtain rfl := h.result
    obtain ⟨_, s₃, hlocated⟩ := h.located
    obtain ⟨_, s₄, hanchored⟩ := h.anchored
    obtain ⟨_, _, hgraft⟩ := h.grafted
    obtain ⟨_, _, hfields⟩ := h.scanned
    obtain ⟨s₂, hfields⟩ := FieldRecords.scan_again hfields ⟨c, log ++ [_]⟩
    obtain ⟨s₃, hplace⟩ :=
      exists_findMethod_iff (s := s₂).mpr (exists_findMethod_iff.mp ⟨s₃, hlocated⟩)
    obtain ⟨s₄, hanchor⟩ :=
      exists_findAnchor_iff (s := s₃).mpr (exists_findAnchor_iff.mp ⟨s₄, hanchored⟩)
    obtain ⟨log₅, hgraft⟩ := graft_again hgraft s₄.log
    exact ⟨_, c, _, ⟨rfl, rfl⟩, owner, _, ⟨howner, rfl⟩, (), _, rfl, fields, s₂, hfields, place, s₃,
      hplace, method, s₃, ⟨elim_eq_ok_iff.mpr h.atPlace, rfl⟩, report.anchor, s₄, hanchor, code, s₄,
      ⟨elim_eq_ok_iff.mpr h.body, rfl⟩, ((spliced, maxima), draft), ⟨s₄.value, log₅⟩,
      Step.within_eq_ok_iff.mpr ⟨hgraft, rfl⟩, (), _, rfl, (), _, rfl, h.reported.symm, rfl⟩

theorem patch_spec [Build] {t : Transformer} {mode : NamingMode} {report : GraftReport}
    {c c' : ClassFile} {log log' : List LogLine}
    (h : t.patch mode ⟨c, log⟩ = .ok report ⟨c', log'⟩) :
    ∃ place method code injection spliced maxima draft,
      t.IsPatch mode report c c' place method code injection spliced maxima draft :=
  exists_patch_iff.mp ⟨log', h⟩

/-- The draft of a patch is a spliced body with new declared sizes. -/
theorem IsPatch.exists_splice [Build] {t : Transformer} {mode : NamingMode} {report : GraftReport}
    {c c' : ClassFile} {place : Nat} {method : Method} {code : Code} {injection : Injection}
    {spliced : Spliced} {maxima : Maxima} {draft : Draft}
    (h : t.IsPatch mode report c c' place method code injection spliced maxima draft) :
    ∃ body m, IsSplice method report.anchor injection spliced ⟨code, c.pool⟩ ⟨body, draft.pool⟩ m ∧
      draft.code = { body with maxStack := maxima.maxStack, maxLocals := maxima.maxLocals } := by
  obtain ⟨_, _, hgraft⟩ := h.grafted
  obtain ⟨s, hsplice, hmaxima⟩ := graft_eq_ok_iff.mp hgraft
  obtain ⟨m, hspliced⟩ := splice_spec hsplice
  obtain ⟨_, _, _, -, -, -, -, hdraft⟩ := remeasure_spec hmaxima
  have hdraft : draft = { s.value with code := { s.value.code with
      maxStack := maxima.maxStack, maxLocals := maxima.maxLocals } } := hdraft
  rw [hdraft]
  exact ⟨s.value.code, m, hspliced, rfl⟩

/-- At its place the patched method has the body of the draft. -/
theorem IsPatch.getElem?_methods [Build] {t : Transformer} {mode : NamingMode}
    {report : GraftReport}
    {c c' : ClassFile} {place : Nat} {method : Method} {code : Code} {injection : Injection}
    {spliced : Spliced} {maxima : Maxima} {draft : Draft}
    (h : t.IsPatch mode report c c' place method code injection spliced maxima draft) :
    c'.methods[place]? = some (method.withCode draft.code) := by
  rw [h.result]
  show (c.methods.modify place _)[place]? = _
  rw [List.getElem?_modify_eq, h.atPlace]
  rfl

theorem IsPatch.code?_eq [Build] {t : Transformer} {mode : NamingMode} {report : GraftReport}
    {c c' : ClassFile} {place : Nat} {method : Method} {code : Code} {injection : Injection}
    {spliced : Spliced} {maxima : Maxima} {draft : Draft}
    (h : t.IsPatch mode report c c' place method code injection spliced maxima draft) :
    c'.methods[place]?.bind Method.code? = some draft.code := by
  rw [h.getElem?_methods, Option.bind_some, Method.code?_withCode h.body]

/-- A handler call has eleven instructions. -/
theorem IsPatch.inserted_eq [Build] {t : Transformer} {mode : NamingMode} {report : GraftReport}
    {c c' : ClassFile} {place : Nat} {method : Method} {code : Code} {injection : Injection}
    {spliced : Spliced} {maxima : Maxima} {draft : Draft}
    (h : t.IsPatch mode report c c' place method code injection spliced maxima draft) :
    report.inserted = 11 := by
  obtain ⟨_, _, hspliced, -⟩ := h.exists_splice
  rw [h.reported]
  show spliced.stop - spliced.start = 11
  rw [hspliced.stop, hspliced.start]
  omega

end Transformer

theorem Method.proper_of_code? [Build] {method : Method} {pool : ConstantPool}
    (h : method.Proper pool)
    {code : Code} (hcode : method.code? = some code) : code.Proper pool := by
  obtain ⟨a, ha, hbody⟩ := List.exists_of_findSome?_eq_some hcode
  have hproper := h.attributes a ha
  cases a with
  | code nameIndex body =>
    obtain rfl := Option.some.inj hbody
    exact hproper.2
  | other => exact absurd hbody (by simp [MethodAttribute.code?])

/-- A patched class is proper if the class was. -/
theorem ClassFile.Proper.patch [Build] {t : Transformer} {mode : NamingMode} {report : GraftReport}
    {c c' : ClassFile} {log log' : List LogLine} (hc : c.Proper)
    (h : t.patch mode ⟨c, log⟩ = .ok report ⟨c', log'⟩) : c'.Proper := by
  obtain ⟨place, method, code, injection, spliced, maxima, draft, hpatch⟩ :=
    Transformer.patch_spec h
  obtain ⟨body, m, hspliced, hdraft⟩ := hpatch.exists_splice
  have hmethod := hc.methods method (List.mem_of_getElem? hpatch.atPlace)
  obtain ⟨hgrown, hbody⟩ :=
    hspliced.proper hc.pool (by exact Method.proper_of_code? hmethod hpatch.body)
  rw [hpatch.result, hdraft]
  exact hc.withCode hgrown (hbody.resized _ _) place

end ClassGraft
