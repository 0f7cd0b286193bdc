/-
Renamed bodies.

A descriptor is read alike before and after a renaming (`Renaming.parse_fieldType`,
`Renaming.parse_methodDescriptor`), so an instruction has the effect and the encoding of the renamed
one.  Positions do not depend on names: bodies are edited, measured, surveyed and encoded like the
renamed ones (`Renaming.code_insert`, `Renaming.remove`, `Renaming.survey`, `Renaming.encode`).
-/
import ClassGraft.Proofs.Renaming

namespace ClassGraft

namespace Renaming

variable (r : Renaming)

/-! ### Descriptors -/

/-- What is read from texts that a renaming leaves alone is read from renamed texts alike. -/
theorem agree_parse {α : Type} {parse : String → Except Fault α} {kind : FaultKind}
    (hkind : ∀ s, FailsWith [kind] (parse s)) (hfixed : ∀ s x, parse s = .ok x → r.text s = s)
    (s : String) : Agree Eq (parse s) (parse (r.text s)) := by
  cases h : parse s with
  | ok x =>
    rw [hfixed s x h, h]
    exact .ok rfl
  | error fault =>
    cases h' : parse (r.text s) with
    | ok x =>
      -- A renamed text that can be read is the text itself.
      have hsame := hfixed _ x h'
      rw [r.text_text] at hsame
      rw [← hsame, h] at h'
      exact absurd h' (by simp)
    | error fault' =>
      have hfault := List.mem_singleton.mp (hkind s fault h)
      have hfault' := List.mem_singleton.mp (hkind _ fault' h')
      exact .error (hfault.trans hfault'.symm)

theorem parse_fieldType (s : String) :
    Agree Eq (FieldType.parse s) (FieldType.parse (r.text s)) :=
  r.agree_parse FieldType.failsWith_parse r.fieldType s

theorem parse_methodDescriptor (s : String) :
    Agree Eq (MethodDescriptor.parse s) (MethodDescriptor.parse (r.text s)) :=
  r.agree_parse MethodDescriptor.failsWith_parse r.methodDescriptor s

/-! ### Effects -/

theorem ofLoad (descriptor : String) (isStatic : Bool) :
    Agree Eq (StackEffect.ofLoad descriptor isStatic)
      (StackEffect.ofLoad (r.text descriptor) isStatic) :=
  (r.parse_fieldType descriptor).bind_eq fun _ => .ok rfl

theorem ofStore (descriptor : String) (isStatic : Bool) :
    Agree Eq (StackEffect.ofStore descriptor isStatic)
      (StackEffect.ofStore (r.text descriptor) isStatic) :=
  (r.parse_fieldType descriptor).bind_eq fun _ => .ok rfl

theorem ofCall [Build] (descriptor : String) (hasReceiver : Bool) :
    Agree Eq (StackEffect.ofCall descriptor hasReceiver)
      (StackEffect.ofCall (r.text descriptor) hasReceiver) :=
  (r.parse_methodDescriptor descriptor).bind_eq fun _ => .refl _

theorem ofBytes [Build] {p : ConstantPool} (hp : p.IsCanonical) (op : Opcode) (operands : Bytes) :
    Agree Eq (StackEffect.ofBytes p op operands) (StackEffect.ofBytes (r.pool p) op operands) := by
  rw [StackEffect.ofBytes.eq_def, StackEffect.ofBytes.eq_def]
  refine .ite ?fields (.ite ?calls (.ite ?dynamicCalls (.refl _)))
  case fields =>
    refine (Agree.refl _).bind_eq fun index => (memberRef hp index).bind ?_
    rintro field _ rfl
    exact .ite (r.ofLoad _ _) (.ite (r.ofLoad _ _) (.ite (r.ofStore _ _) (r.ofStore _ _)))
  case calls =>
    refine (Agree.refl _).bind_eq fun index => (memberRef hp index).bind ?_
    rintro method _ rfl
    exact r.ofCall _ _
  case dynamicCalls =>
    refine (Agree.refl _).bind_eq fun index => (callSite hp index).bind ?_
    rintro descriptor _ rfl
    exact r.ofCall _ _

theorem stackEffect [Build] {p : ConstantPool} (hp : p.IsCanonical) (i : Instruction) :
    Agree Eq (i.stackEffect p) ((r.instruction i).stackEffect (r.pool p)) := by
  cases i with
  | loadField field isStatic => exact r.ofLoad _ _
  | storeField field isStatic => exact r.ofStore _ _
  | invoke method dispatch => exact r.ofCall _ _
  | other op operands => exact r.ofBytes hp op operands
  | _ => exact .refl _

/-! ### Instructions -/

@[simp] theorem flow_instruction (i : Instruction) : (r.instruction i).flow = i.flow := by
  cases i <;> rfl

@[simp] theorem targets_instruction (i : Instruction) :
    (r.instruction i).targets = i.targets := by
  cases i <;> rfl

@[simp] theorem edges_instruction (i : Instruction) (index before after : Nat) :
    (r.instruction i).edges index before after = i.edges index before after := by
  unfold Instruction.edges
  rw [flow_instruction, targets_instruction]

@[simp] theorem localAccess_instruction (i : Instruction) :
    (r.instruction i).localAccess = i.localAccess := by
  cases i <;> rfl

@[simp] theorem isNop_instruction (i : Instruction) : (r.instruction i).isNop = i.isNop := by
  cases i <;> rfl

@[simp] theorem size_instruction (i : Instruction) (offset : Nat) :
    (r.instruction i).size offset = i.size offset := by
  cases i <;> rfl

theorem instruction_eq_pop_iff {i : Instruction} : r.instruction i = .pop ↔ i = .pop := by
  cases i <;> simp [instruction]

theorem instruction_mapTargets (f : Nat → Nat) (i : Instruction) :
    r.instruction (i.mapTargets f) = (r.instruction i).mapTargets f := by
  cases i <;> rfl

theorem map_instruction_mapTargets (f : Nat → Nat) (list : Instructions) :
    (list.map r.instruction).map (Instruction.mapTargets f) =
      (list.map (Instruction.mapTargets f)).map r.instruction := by
  rw [List.map_map, List.map_map]
  refine List.map_congr_left fun i _ => ?_
  exact (r.instruction_mapTargets f i).symm

/-! ### Code arrays -/

theorem offsetsFrom_map (offset : Nat) (list : Instructions) :
    Layout.offsetsFrom offset (list.map r.instruction) = Layout.offsetsFrom offset list := by
  induction list generalizing offset with
  | nil => rfl
  | cons i rest ih =>
    rw [List.map_cons, Layout.offsetsFrom, Layout.offsetsFrom, size_instruction, ih]

theorem ofInstructions_map (list : Instructions) :
    Layout.ofInstructions (list.map r.instruction) = Layout.ofInstructions list := by
  rw [Layout.ofInstructions, Layout.ofInstructions, offsetsFrom_map]

section Sites

variable (name name' : String) (index offset : Nat) (layout : Layout)

omit r in
theorem agree_displacement (target : Nat) :
    Agree Eq (Site.displacement ⟨name, index, offset⟩ layout target)
      (Site.displacement ⟨name', index, offset⟩ layout target) := by
  rw [Site.displacement, Site.displacement]
  refine .ite ?_ (.error rfl)
  cases layout.offset? target with
  | none => exact .error rfl
  | some o => exact .ok rfl

omit r in
theorem agree_near (target : Nat) :
    Agree Eq (Site.near ⟨name, index, offset⟩ layout target)
      (Site.near ⟨name', index, offset⟩ layout target) :=
  (agree_displacement name name' index offset layout target).bind_eq fun _ =>
    .ite (.ok rfl) (.error rfl)

omit r in
theorem agree_far (target : Nat) :
    Agree Eq (Site.far ⟨name, index, offset⟩ layout target)
      (Site.far ⟨name', index, offset⟩ layout target) :=
  (agree_displacement name name' index offset layout target).bind_eq fun _ => .ok rfl

theorem encodeAt [Build] (i : Instruction) :
    Agree Eq (i.encodeAt layout ⟨name, index, offset⟩)
      ((r.instruction i).encodeAt layout ⟨name', index, offset⟩) := by
  have hfar := agree_far name name' index offset layout
  cases i with
  | invoke method dispatch =>
    have htail : Agree Eq (Instruction.interfaceTail method.descriptor)
        (Instruction.interfaceTail (r.text method.descriptor)) :=
      (r.parse_methodDescriptor _).bind_eq fun _ =>
        (Agree.refl _).bind_eq fun _ => .ite (.ok rfl) (.error rfl)
    rw [instruction, Instruction.encodeAt, Instruction.encodeAt]
    split
    · exact htail.bind_eq fun _ => .ok rfl
    · exact .ok rfl
  | jump opcode target =>
    show Agree Eq _ (Instruction.encodeAt layout _ (.jump opcode target))
    rw [Instruction.encodeAt, Instruction.encodeAt]
    refine .ite ?_ ?_
    · exact (hfar target).bind_eq fun _ => .ok rfl
    · exact (agree_near name name' index offset layout target).bind_eq fun _ => .ok rfl
  | tableSwitch default low targets =>
    refine (hfar default).bind_eq fun _ => .ite ?_ (.error rfl)
    exact (Agree.concatMapM hfar targets).bind_eq fun _ => .ok rfl
  | lookupSwitch default pairs =>
    refine (hfar default).bind_eq fun _ => ?_
    refine (Agree.concatMapM ?_ pairs).bind_eq fun _ => .ok rfl
    exact fun pair => (hfar pair.2).bind_eq fun _ => .ok rfl
  | _ => exact .ok rfl

end Sites

/-- Renamed instructions are encoded as the same bytes. -/
theorem encode [Build] (name name' : String) (list : Instructions) :
    Agree Eq (ClassGraft.encode name list)
      (ClassGraft.encode name' (list.map r.instruction)) := by
  have hfrom : ∀ layout index offset done, Agree Eq
      (encodeFrom name layout index offset list done)
      (encodeFrom name' layout index offset (list.map r.instruction) done) := by
    intro layout
    induction list with
    | nil => exact fun _ _ _ => .ok rfl
    | cons i rest ih =>
      intro index offset done
      rw [List.map_cons, encodeFrom, encodeFrom, size_instruction]
      exact (r.encodeAt name name' index offset layout i).bind_eq fun bytes => ih _ _ _
  rw [ClassGraft.encode, ClassGraft.encode, ofInstructions_map]
  exact .ite ((hfrom _ _ _ _).bind_eq fun _ => .ok rfl) (.error rfl)

/-! ### Edits -/

theorem insert_map (list : Instructions) (place : Nat) (sequence : Instructions) :
    Instructions.insert (list.map r.instruction) place (sequence.map r.instruction) =
      (Instructions.insert list place sequence).map r.instruction := by
  simp only [Instructions.insert, List.length_map, map_instruction_mapTargets, List.map_append,
    List.map_take, List.map_drop]

theorem code_insert (code : Code) (place : Nat) (sequence : Instructions) :
    (r.code code).insert place (sequence.map r.instruction) =
      r.code (code.insert place sequence) := by
  simp only [Code.insert, Code.mapPositions, Renaming.code, insert_map, List.length_map]

theorem isReferenced_code (code : Code) (place : Nat) :
    (r.code code).isReferenced place = code.isReferenced place := by
  have htargets : Instructions.isTarget (code.instructions.map r.instruction) place =
      Instructions.isTarget code.instructions place := by
    rw [Instructions.isTarget, Instructions.isTarget, List.any_map]
    congr 1
    funext i
    rw [Function.comp_apply, targets_instruction]
  show (Instructions.isTarget (code.instructions.map r.instruction) place || _ || _) = _
  rw [htargets]
  rfl

/-- What can be taken out can be taken out of the renamed body. -/
theorem remove (name name' : String) (code : Code) (place : Nat) :
    Agree (fun x y => r.code x.2 = y.2) (code.remove name place)
      ((r.code code).remove name' place) := by
  have hremove : Instructions.remove? (r.code code).instructions place =
      (Instructions.remove? code.instructions place).map fun x =>
        (r.instruction x.1, x.2.map r.instruction) := by
    show Option.map _ (code.instructions.map r.instruction)[place]? = _
    rw [Instructions.remove?, List.getElem?_map, Option.map_map, Option.map_map]
    congr 1
    funext i
    rw [Function.comp_apply, Function.comp_apply]
    show (_, List.map _ ((code.instructions.map r.instruction).eraseIdx place)) = _
    rw [List.eraseIdx_map, map_instruction_mapTargets]
  rw [Code.remove, Code.remove, hremove, isReferenced_code]
  rcases Instructions.remove? code.instructions place with _ | ⟨removed, list⟩
  · exact .error rfl
  · refine .ite (.error rfl) (.ok ?_)
    simp only [Code.withoutInstruction, Code.mapPositions, Renaming.code, List.length_map]

theorem localWatermark_code (code : Code) (slots : Nat) :
    (r.code code).localWatermark slots = code.localWatermark slots := by
  have htouched : (code.instructions.map r.instruction).filterMap Instruction.localAccess =
      code.instructions.filterMap Instruction.localAccess := by
    rw [List.filterMap_map]
    refine List.filterMap_congr fun i _ => ?_
    exact r.localAccess_instruction i
  rw [Code.localWatermark, Code.localWatermark]
  show List.foldl max _ (List.map _
    ((code.instructions.map r.instruction).filterMap Instruction.localAccess)) = _
  rw [htouched]
  rfl

/-! ### Surveys -/

section Survey

open StackDepth

variable {p : ConstantPool} (hp : p.IsCanonical) (name name' : String)

include hp in
theorem after [Build] (index depth : Nat) (i : Instruction) :
    Agree Eq (StackDepth.after p name index i depth)
      (StackDepth.after (r.pool p) name' index (r.instruction i) depth) := by
  refine (r.stackEffect hp i).bind_eq fun effect => .ite ?_ (.error rfl)
  dsimp only
  exact .ite (.ok rfl) (.error rfl)

omit r in
theorem enter (source target depth : Nat) (progress : Progress) :
    Agree Eq (progress.enter name source target depth)
      (progress.enter name' source target depth) := by
  rw [Progress.enter, Progress.enter]
  rcases progress.depths[target]? with _ | _ | existing
  · exact .error rfl
  · exact .ok rfl
  · exact .ite (.ok rfl) (.error rfl)

include hp in
theorem visit [Build] (list : Array Instruction) (progress : Progress) (index : Nat) :
    Agree Eq (progress.visit p name list index)
      (progress.visit (r.pool p) name' (list.map r.instruction) index) := by
  rw [Progress.visit.eq_def, Progress.visit.eq_def, Array.getElem?_map]
  rcases list[index]? with _ | i
  · exact .refl _
  · rcases progress.depths[index]? with _ | _ | depth
    · exact .refl _
    · exact .refl _
    · refine (r.after hp name name' index depth i).bind_eq fun deep => ?_
      show Agree Eq _ (Progress.enterAll name' index _ ((r.instruction i).edges index depth deep))
      rw [edges_instruction]
      refine Agree.foldlM ?_ _ rfl
      rintro q _ ⟨target, d⟩ rfl
      exact enter name name' index target d q

include hp in
theorem explore [Build] (list : Array Instruction) (fuel : Nat) (progress : Progress) :
    Agree Eq (StackDepth.explore p name list fuel progress)
      (StackDepth.explore (r.pool p) name' (list.map r.instruction) fuel progress) := by
  induction fuel generalizing progress with
  | zero => exact .ok rfl
  | succ fuel ih =>
    rw [StackDepth.explore, StackDepth.explore]
    rcases progress.pending.pop? with _ | ⟨index, pending⟩
    · exact .ok rfl
    · exact (r.visit hp name name' list _ index).bind_eq fun q => ih q

omit r in
theorem enterRoots (handlers : List Handler) (progress : Progress) :
    Agree Eq (StackDepth.enterRoots name handlers progress)
      (StackDepth.enterRoots name' handlers progress) := by
  refine (enter name name' 0 0 0 progress).bind_eq fun q => Agree.foldlM ?_ handlers rfl
  rintro q _ handler rfl
  exact (enter name name' _ _ _ q).bind_eq fun _ => .ok rfl

include hp in
/-- A renamed body has the depths of the body. -/
theorem survey [Build] (code : Code) :
    Agree Eq (StackDepth.survey code p name)
      (StackDepth.survey (r.code code) (r.pool p) name') := by
  have hlist : (r.code code).instructions.toArray =
      code.instructions.toArray.map r.instruction := by
    simp [Renaming.code]
  have hsize : (code.instructions.toArray.map r.instruction).size =
      code.instructions.toArray.size := Array.size_map
  have hempty : (code.instructions.toArray.map r.instruction).isEmpty =
      code.instructions.toArray.isEmpty := by
    simp
  rw [StackDepth.survey, StackDepth.survey, hlist, hempty, hsize]
  refine .ite (.ok rfl) ?_
  refine (enterRoots name name' _ _).bind_eq fun q => ?_
  exact (r.explore hp name name' _ _ q).bind_eq fun _ => .ok rfl

end Survey

end Renaming

end ClassGraft
