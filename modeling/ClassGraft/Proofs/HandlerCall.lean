/-
What a handler call does to the stack.

An instruction has the same effect in a pool that has grown (`Instruction.Passes.of_extends`).  A
straight run of instructions is passed one after the other (`Instructions.Pass`), and a handler call
takes one slot from the stack in all, the result that it stores (`HandlerMembers.pass_call`).  It
needs no slot below that one on its way (`HandlerMembers.height_call`).
-/
import ClassGraft.Proofs.ControlFlow
import ClassGraft.Proofs.Descriptors
import ClassGraft.Proofs.Grafting
import ClassGraft.Proofs.SlotCounts

namespace ClassGraft

variable {pool pool' : ConstantPool}

/-! ### Effects in a grown pool -/

theorem StackEffect.ofBytes_of_extends [Build] (h : pool.Extends pool') {op : Opcode}
    {operands : Bytes} {effect : StackEffect} (heffect : ofBytes pool op operands = .ok effect) :
    ofBytes pool' op operands = .ok effect := by
  unfold ofBytes at heffect ⊢
  -- Only field accesses and calls ask the pool.
  by_cases hfield : Opcode.getstatic ≤ op ∧ op ≤ Opcode.putfield
  · rw [if_pos hfield] at heffect ⊢
    simp only [Bytes.bind_eq_ok_iff] at heffect ⊢
    obtain ⟨index, hindex, field, hm, heffect⟩ := heffect
    exact ⟨index, hindex, field, h.memberRef hm, heffect⟩
  · rw [if_neg hfield] at heffect ⊢
    by_cases hcall : Opcode.invokevirtual ≤ op ∧ op ≤ Opcode.invokeinterface
    · rw [if_pos hcall] at heffect ⊢
      simp only [Bytes.bind_eq_ok_iff] at heffect ⊢
      obtain ⟨index, hindex, method, hm, heffect⟩ := heffect
      exact ⟨index, hindex, method, h.memberRef hm, heffect⟩
    · rw [if_neg hcall] at heffect ⊢
      by_cases hdynamic : op = Opcode.invokedynamic
      · rw [if_pos hdynamic] at heffect ⊢
        simp only [Bytes.bind_eq_ok_iff] at heffect ⊢
        obtain ⟨index, hindex, descriptor, hd, heffect⟩ := heffect
        exact ⟨index, hindex, descriptor, h.callSite hd, heffect⟩
      · rw [if_neg hdynamic] at heffect ⊢
        exact heffect

theorem Instruction.Passes.of_extends [Build] (h : pool.Extends pool') {i : Instruction}
    {before after : Nat} (hpass : i.Passes pool before after) : i.Passes pool' before after := by
  obtain ⟨effect, heffect, hpass⟩ := hpass
  refine ⟨effect, ?_, hpass⟩
  cases i with
  | other op operands => exact StackEffect.ofBytes_of_extends h heffect
  | _ => exact heffect

/-! ### Straight runs -/

/-- Instructions that are passed one after the other. -/
def Instructions.Pass [Build] (pool : ConstantPool) : Instructions → Nat → Nat → Prop
  | [], before, after => after = before
  | i :: rest, before, after =>
    ∃ between, i.Passes pool before between ∧ Instructions.Pass pool rest between after

/-- Control that reaches a straight run of instructions comes out behind it, and has passed it. -/
theorem Code.IsAssignment.pass [Build] {code : Code} {depth : Nat → Nat}
    (h : code.IsAssignment pool depth) {run : Instructions} {p : Nat} (hp : code.Reaches p)
    (hrun : ∀ k < run.length, code.instructions[p + k]? = run[k]?)
    (hflow : ∀ i ∈ run, i.flow = .sequential) :
    code.Reaches (p + run.length) ∧
      Instructions.Pass pool run (depth p) (depth (p + run.length)) := by
  -- What is left of the run begins at the next position.
  induction run generalizing p with
  | nil => exact ⟨hp, rfl⟩
  | cons i rest ih =>
    obtain ⟨hi, hrest⟩ := List.forall_mem_cons.mp hflow
    have hget : code.instructions[p]? = some i := hrun 0 (Nat.succ_pos _)
    obtain ⟨between, hpass, hleads⟩ := h.passes p i hp hget
    have hbehind : i.Leads p (depth p) between (p + 1) between := .behind (.inl hi)
    obtain ⟨hreach, hpassRest⟩ := ih (.step hp hget hbehind) (fun k hk => by
      rw [Nat.add_assoc, Nat.add_comm 1 k, hrun (k + 1) (Nat.succ_lt_succ hk),
        List.getElem?_cons_succ]) hrest
    rw [List.length_cons, Nat.add_comm rest.length 1, ← Nat.add_assoc]
    refine ⟨hreach, between, hpass, ?_⟩
    rwa [hleads _ _ hbehind] at hpassRest

/-! ### The handler call -/

theorem Instruction.Passes.eq [Build] {i : Instruction} {before after : Nat}
    (h : i.Passes pool before after) {pops pushes : Nat}
    (heffect : i.stackEffect pool = .ok ⟨pops, pushes⟩) :
    pops ≤ before ∧ after = before - pops + pushes := by
  obtain ⟨effect', heffect', hpops, hafter, -⟩ := h
  obtain rfl := Except.ok.inj (heffect.symm.trans heffect')
  exact ⟨hpops, hafter⟩

theorem Instruction.Passes.loadLocal [Build] {index : UInt16} {kind : ValueKind}
    {before after : Nat} (h : (Instruction.loadLocal index kind).Passes pool before after) :
    after = before + kind.width :=
  (h.eq rfl).2

theorem Instruction.Passes.storeLocal [Build] {index : UInt16} {kind : ValueKind}
    {before after : Nat} (h : (Instruction.storeLocal index kind).Passes pool before after) :
    after + kind.width = before := by
  obtain ⟨hle, hafter⟩ := h.eq rfl
  omega

/-- A field that is handed to the handler is of a reference type. -/
theorem checkReference_eq_ok_iff {field : FieldRecord} : checkReference field = .ok () ↔
    ∃ t, FieldType.parse field.descriptor = .ok t ∧ t.kind = .reference := by
  simp only [checkReference, Bytes.bind_eq_ok_iff, Bytes.ite_throw_eq_ok_iff]
  constructor
  · rintro ⟨t, ht, hkind, -⟩
    exact ⟨t, ht, hkind⟩
  · rintro ⟨t, ht, hkind⟩
    exact ⟨t, ht, hkind, rfl⟩

theorem StackEffect.ofLoad_eq_ok_iff {descriptor : String} {isStatic : Bool}
    {effect : StackEffect} :
    ofLoad descriptor isStatic = .ok effect ↔ ∃ t, FieldType.parse descriptor = .ok t ∧
      effect = ⟨if isStatic then 0 else 1, t.slots⟩ := by
  rw [ofLoad]
  exact Bytes.bind_pure_eq_ok_iff

/-- Control comes back from a call. -/
theorem Instruction.flow_invoke (callee : MemberRef) (dispatch : Dispatch) :
    (Instruction.invoke callee dispatch).flow = .sequential := by
  have hflow : ((Opcode.info? dispatch.opcode).map OpcodeInfo.flow).getD .sequential =
      .sequential := by
    cases dispatch
    all_goals cbv
  exact hflow

/-- Control goes through every access to a local. -/
theorem Instruction.flow_localInstruction (index : UInt16) (kind : ValueKind) (stores : Bool) :
    (Decoded.localInstruction ⟨kind, stores, none⟩ index).flow = .sequential := by
  have hopcode : (Decoded.localInstruction ⟨kind, stores, none⟩ index).flowOpcode =
      if index ≤ 3 then
        (if stores then Opcode.storeShort kind else Opcode.loadShort kind) + index.toUInt8
      else if stores then Opcode.store kind else Opcode.load kind := by
    cases stores
    all_goals rfl
  rw [flow, hopcode]
  -- Four locals have opcodes of their own for each kind of value.
  by_cases hle : index ≤ 3
  · rw [if_pos hle]
    rcases uint16_cases hle with rfl | rfl | rfl | rfl
    all_goals
      cases stores
      all_goals
        cases kind
        all_goals cbv
  · rw [if_neg hle]
    cases stores
    all_goals
      cases kind
      all_goals cbv

theorem FieldType.slots_of_reference {t : FieldType} (h : t.kind = .reference) : t.slots = 1 := by
  rw [slots, h]
  rfl

namespace HandlerMembers

variable {m : HandlerMembers} {injection : Injection} {slot : UInt16} {before after : Nat}

/-- The handler takes itself, its two references, three coordinates and the result. -/
theorem effect_handler [Build] (hm : m.AreOf injection) :
    (Instruction.invoke m.handler .virtual).stackEffect pool = .ok ⟨7, 0⟩ := by
  obtain ⟨world, -, hworld, hworldRef⟩ := hm.world
  obtain ⟨player, -, hplayer, hplayerRef⟩ := hm.player
  obtain ⟨w, hw, hwKind⟩ := checkReference_eq_ok_iff.mp hworld
  obtain ⟨p, hp, hpKind⟩ := checkReference_eq_ok_iff.mp hplayer
  have hd : MethodDescriptor.parse m.handler.descriptor =
      .ok ⟨[w, p, .int, .int, .int, .boolean], none⟩ := by
    rw [hm.handler, hworldRef, hplayerRef]
    exact GraftConfig.parse_handlerDescriptor hw hp
  rw [Instruction.stackEffect, StackEffect.ofCall, Bytes.bind_eq_ok_iff]
  refine ⟨_, hd, Bytes.bind_eq_ok_iff.mpr ⟨7, ?_, rfl⟩⟩
  -- Six parameters of one slot each, and the receiver.
  have hcount : MethodDescriptor.slotCount ⟨[w, p, .int, .int, .int, .boolean], none⟩ true = 7 := by
    simp only [MethodDescriptor.slotCount, List.map, FieldType.slots_of_reference hwKind,
      FieldType.slots_of_reference hpKind]
    rfl
  show MethodDescriptor.callSlots _ true = _
  rw [MethodDescriptor.callSlots_eq, hcount]
  exact Slots.hold_of_lt (by decide)

theorem effect_field [Build] {field : FieldRecord} (h : checkReference field = .ok ())
    (index : UInt16)
    (owner : String) : (Instruction.loadField ⟨index, owner, field.name, field.descriptor⟩
      false).stackEffect pool = .ok ⟨1, 1⟩ := by
  obtain ⟨t, ht, hkind⟩ := checkReference_eq_ok_iff.mp h
  exact StackEffect.ofLoad_eq_ok_iff.mpr ⟨t, ht, by rw [FieldType.slots_of_reference hkind]; rfl⟩

/-- Where the holder of the handler is passed, it is one reference. -/
theorem passes_holder [Build] (hm : m.AreOf injection)
    (h : (Instruction.loadField m.holder true).Passes pool before after) : after = before + 1 := by
  obtain ⟨effect, heffect, -⟩ := id h
  obtain ⟨t, ht, rfl⟩ := StackEffect.ofLoad_eq_ok_iff.mp heffect
  rw [hm.holder] at ht
  obtain ⟨-, rfl⟩ := h.eq heffect
  rw [FieldType.slots_of_reference (GraftConfig.kind_of_parse_handlerType ht)]
  rfl

/-- A handler call takes what it stores from the stack, and nothing else. -/
theorem pass_call [Build] (hm : m.AreOf injection)
    (h : Instructions.Pass pool (m.call slot .int) before after) : after + 1 = before := by
  obtain ⟨d₁, hstore, d₂, hholder, d₃, hthis, d₄, hworld, d₅, hthis', d₆, hplayer, d₇, hx, d₈, hy,
    d₉, hz, d₁₀, hresult, d₁₁, hcall, rfl⟩ := h
  obtain ⟨world, -, hw, hworldRef⟩ := hm.world
  obtain ⟨player, -, hp, hplayerRef⟩ := hm.player
  rw [hworldRef] at hworld
  rw [hplayerRef] at hplayer
  -- The depths on the way; the handler takes all seven slots that have been pushed.
  have hstore : d₁ + 1 = before := hstore.storeLocal
  have hholder : d₂ = d₁ + 1 := passes_holder hm hholder
  have hthis : d₃ = d₂ + 1 := hthis.loadLocal
  have hworld := hworld.eq (effect_field hw _ _)
  have hthis' : d₅ = d₄ + 1 := hthis'.loadLocal
  have hplayer := hplayer.eq (effect_field hp _ _)
  have hx : d₇ = d₆ + 1 := hx.loadLocal
  have hy : d₈ = d₇ + 1 := hy.loadLocal
  have hz : d₉ = d₈ + 1 := hz.loadLocal
  have hresult : d₁₀ = d₉ + 1 := hresult.loadLocal
  have hcall := hcall.eq (effect_handler hm)
  omega

/-- What the instructions of a handler call do to the stack, one after the other. -/
def effects : List StackEffect :=
  [⟨1, 0⟩, ⟨0, 1⟩, ⟨0, 1⟩, ⟨1, 1⟩, ⟨0, 1⟩, ⟨1, 1⟩, ⟨0, 1⟩, ⟨0, 1⟩, ⟨0, 1⟩, ⟨0, 1⟩, ⟨7, 0⟩]

/-- How many slots the stack has before each instruction of a handler call, and behind the last one,
above those that it had before the anchor pushed its result. -/
def height (k : Nat) : Nat := [1, 0, 1, 2, 2, 3, 3, 4, 5, 6, 7].getD k 0

/-- No instruction of a handler call does anything else. -/
theorem effect_call [Build] (hm : m.AreOf injection) {k : Nat} {i : Instruction}
    {effect : StackEffect}
    (hi : (m.call slot .int)[k]? = some i) (h : i.stackEffect pool = .ok effect) :
    effects[k]? = some effect := by
  obtain ⟨world, -, hw, hworldRef⟩ := hm.world
  obtain ⟨player, -, hp, hplayerRef⟩ := hm.player
  have hlt : k < 11 := (List.getElem?_eq_some_iff.mp hi).1
  interval_cases k
  all_goals obtain rfl := Option.some.inj hi
  case «1» =>
    obtain ⟨t, ht, rfl⟩ := StackEffect.ofLoad_eq_ok_iff.mp h
    rw [hm.holder] at ht
    rw [FieldType.slots_of_reference (GraftConfig.kind_of_parse_handlerType ht)]
    rfl
  case «3» =>
    rw [hworldRef] at h
    exact congrArg some (Except.ok.inj ((effect_field hw _ _).symm.trans h))
  case «5» =>
    rw [hplayerRef] at h
    exact congrArg some (Except.ok.inj ((effect_field hp _ _).symm.trans h))
  case «10» => exact congrArg some (Except.ok.inj ((effect_handler hm).symm.trans h))
  -- The rest reads and writes locals of one slot.
  all_goals exact congrArg some (Except.ok.inj h)

/-- A handler call needs no slot but the one that the anchor has pushed. -/
theorem height_call [Build] (hm : m.AreOf injection) {k : Nat} {i : Instruction}
    {effect : StackEffect}
    (hi : (m.call slot .int)[k]? = some i) (h : i.stackEffect pool = .ok effect) :
    effect.pops ≤ height k ∧ height (k + 1) + effect.pops = height k + effect.pushes := by
  have htable : ∀ k < 11, ∀ effect ∈ effects[k]?,
      effect.pops ≤ height k ∧ height (k + 1) + effect.pops = height k + effect.pushes := by
    decide
  exact htable k (List.getElem?_eq_some_iff.mp hi).1 effect (effect_call hm hi h)

/-- The effect of every instruction of a handler call is known if the name of the handler's class
can stand in a descriptor. -/
theorem exists_effect_call [Build] (hm : m.AreOf injection)
    (hne : injection.config.handlerClass ≠ "")
    (hsemicolon : ';' ∉ injection.config.handlerClass.toList) :
    ∀ i ∈ m.call slot .int, ∃ effect, i.stackEffect pool = .ok effect := by
  obtain ⟨world, -, hw, hworldRef⟩ := hm.world
  obtain ⟨player, -, hp, hplayerRef⟩ := hm.player
  have hholder : FieldType.parse m.holder.descriptor =
      .ok (.object injection.config.handlerClass) := by
    rw [hm.holder]
    exact GraftConfig.parse_handlerType hne hsemicolon
  intro i hmem
  obtain ⟨k, hi⟩ := List.mem_iff_getElem?.mp hmem
  have hlt : k < 11 := (List.getElem?_eq_some_iff.mp hi).1
  interval_cases k
  all_goals obtain rfl := Option.some.inj hi
  case «1» => exact ⟨_, StackEffect.ofLoad_eq_ok_iff.mpr ⟨_, hholder, rfl⟩⟩
  case «3» =>
    rw [hworldRef]
    exact ⟨_, effect_field hw _ _⟩
  case «5» =>
    rw [hplayerRef]
    exact ⟨_, effect_field hp _ _⟩
  case «10» => exact ⟨_, effect_handler hm⟩
  all_goals exact ⟨_, rfl⟩

/-- Control goes through a handler call. -/
theorem flow_call (m : HandlerMembers) (slot : UInt16) :
    ∀ i ∈ m.call slot .int, i.flow = .sequential := by
  simp only [call, handlerCall, List.forall_mem_cons, List.not_mem_nil, false_implies, implies_true,
    and_true]
  have hload : ∀ index kind, (Instruction.loadLocal index kind).flow = .sequential :=
    fun index kind => Instruction.flow_localInstruction index kind false
  have hstatic : ∀ field, (Instruction.loadField field true).flow = .sequential :=
    fun _ => (by cbv :
      ((Opcode.info? Opcode.getstatic).map OpcodeInfo.flow).getD .sequential = .sequential)
  have hfield : ∀ field, (Instruction.loadField field false).flow = .sequential :=
    fun _ => (by cbv :
      ((Opcode.info? Opcode.getfield).map OpcodeInfo.flow).getD .sequential = .sequential)
  exact ⟨Instruction.flow_localInstruction slot .int true, hstatic _, hload _ _, hfield _,
    hload _ _, hfield _, hload _ _, hload _ _, hload _ _, hload _ _, Instruction.flow_invoke _ _⟩

end HandlerMembers

end ClassGraft
