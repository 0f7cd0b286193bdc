/-
Renumbered bodies.

Targets of instructions and positions in tables are renumbered by one function when a body is
edited (`Instruction.targets_mapTargets`, `Code.tablePositions_mapPositions`), and two renumberings
make one (`Instruction.mapTargets_mapTargets`, `CodeAttribute.mapPositions_mapPositions`).  Some
positions in tables hold on to their instructions, the anchors (`Code.anchors`): what is neither a
target nor an anchor may be taken out (`Code.isReferenced_eq_false_iff`), and an insertion changes
nothing about that (`Code.isReferenced_insert`).
-/
import ClassGraft.Proofs.Editing

namespace ClassGraft

/-! ### Renumbered instructions -/

namespace Instruction

@[simp] theorem mapTargets_mapTargets (f g : Nat → Nat) (i : Instruction) :
    (i.mapTargets f).mapTargets g = i.mapTargets (g ∘ f) := by
  cases i <;> simp [mapTargets, Function.comp_def]

@[simp] theorem targets_mapTargets (f : Nat → Nat) (i : Instruction) :
    (i.mapTargets f).targets = i.targets.map f := by
  cases i <;> simp [mapTargets, targets, Function.comp_def]

@[simp] theorem flow_mapTargets (f : Nat → Nat) (i : Instruction) :
    (i.mapTargets f).flow = i.flow := by
  cases i <;> rfl

@[simp] theorem isNop_mapTargets (f : Nat → Nat) (i : Instruction) :
    (i.mapTargets f).isNop = i.isNop := by
  cases i <;> rfl

@[simp] theorem stackEffect_mapTargets [Build] (pool : ConstantPool) (f : Nat → Nat)
    (i : Instruction) : (i.mapTargets f).stackEffect pool = i.stackEffect pool := by
  cases i <;> rfl

theorem mapTargets_eq_pop_iff {f : Nat → Nat} {i : Instruction} :
    i.mapTargets f = .pop ↔ i = .pop := by
  cases i <;> simp [mapTargets]

end Instruction

theorem Instruction.mapTargets_id (i : Instruction) : i.mapTargets id = i := by
  cases i with
  | tableSwitch default low targets => exact congrArg _ (List.map_id targets)
  | lookupSwitch default pairs => exact congrArg _ (List.map_id pairs)
  | _ => rfl

theorem Instructions.mapTargets_mem_insert {list : Instructions} {i : Instruction} (h : i ∈ list)
    (place : Nat) (sequence : Instructions) :
    i.mapTargets (Renumber.inserted place sequence.length) ∈
      Instructions.insert list place sequence := by
  have hmem := List.mem_map_of_mem (f := Instruction.mapTargets
    (Renumber.inserted place sequence.length)) h
  rw [← List.take_append_drop place (list.map _), List.mem_append] at hmem
  rw [Instructions.insert, List.mem_append, List.mem_append]
  exact hmem.imp_left .inl

/-! ### Positions in a body -/

/-- The position at which an object of the type has been created. -/
def VerificationType.birthplace? : VerificationType → Option Nat
  | .uninitialized position => some position
  | _ => none

/-- The position of a frame and those at which the objects that it mentions have been created. -/
def StackMapFrame.positions (frame : StackMapFrame) : List Nat :=
  frame.target :: frame.kind.types.filterMap VerificationType.birthplace?

def Handler.positions (handler : Handler) : List Nat := [handler.start, handler.stop, handler.entry]

def LocalVariable.positions (entry : LocalVariable) : List Nat := [entry.start, entry.stop]

def CodeAttribute.positions : CodeAttribute → List Nat
  | .lineNumbers _ entries => entries.map LineNumber.start
  | .localVariables _ entries | .localVariableTypes _ entries =>
    entries.flatMap LocalVariable.positions
  | .stackMap _ frames => frames.flatMap StackMapFrame.positions
  | .other _ => []

/-- A frame refers to its own position and to those at which objects have been created. -/
theorem StackMapFrame.references_iff {frame : StackMapFrame} {p : Nat} :
    frame.references p ↔ p ∈ frame.positions := by
  rw [references, Bool.or_eq_true, beq_iff_eq, List.contains_iff_mem, positions, List.mem_cons,
    List.mem_filterMap]
  refine or_congr eq_comm ⟨fun h => ⟨_, h, rfl⟩, ?_⟩
  rintro ⟨t, ht, hborn⟩
  cases t with
  | uninitialized position =>
    obtain rfl := Option.some.inj hborn
    exact ht
  | _ => exact absurd hborn (by simp [VerificationType.birthplace?])

namespace Code

/-- All positions in the tables of a body. -/
def tablePositions (code : Code) : List Nat :=
  code.handlers.flatMap Handler.positions ++ code.attributes.flatMap CodeAttribute.positions

/-- Whether no position lies behind the end of the code. -/
structure InRange (code : Code) : Prop where
  targets : ∀ i ∈ code.instructions, ∀ t ∈ i.targets, t ≤ code.instructions.length
  tables : ∀ p ∈ code.tablePositions, p ≤ code.instructions.length

/-- The positions in tables whose instructions may not be taken out: where handlers start and are
entered, and all those of frames. -/
def anchors (code : Code) : List Nat :=
  code.handlers.flatMap (fun handler => [handler.start, handler.entry]) ++
    code.frames.flatMap StackMapFrame.positions

end Code

theorem CodeAttribute.frames_mapPositions (f : Nat → Nat) (a : CodeAttribute) :
    (a.mapPositions f).frames = a.frames.map (StackMapFrame.mapPositions f) := by
  cases a
  all_goals rfl

/-- All frames of a body are renumbered. -/
theorem Code.frames_mapPositions (f : Nat → Nat) (code : Code) :
    (code.mapPositions f).frames = code.frames.map (StackMapFrame.mapPositions f) := by
  simp only [frames, mapPositions, List.flatMap_map, List.map_flatMap,
    CodeAttribute.frames_mapPositions]

section MapPositions

variable (f : Nat → Nat)

theorem FrameKind.types_mapPositions (kind : FrameKind) :
    (kind.mapPositions f).types = kind.types.map (VerificationType.mapPositions f) := by
  cases kind with
  | full locals stack => exact List.map_append.symm
  | _ => rfl

theorem StackMapFrame.positions_mapPositions (frame : StackMapFrame) :
    (frame.mapPositions f).positions = frame.positions.map f := by
  -- The birthplace of an object moves with its type.
  have hborn : VerificationType.birthplace? ∘ VerificationType.mapPositions f =
      fun t => (VerificationType.birthplace? t).map f := by
    funext t
    cases t
    all_goals rfl
  show f frame.target :: (frame.kind.mapPositions f).types.filterMap _ = _
  rw [FrameKind.types_mapPositions, List.filterMap_map, hborn, positions, List.map_cons,
    List.map_filterMap]

theorem CodeAttribute.positions_mapPositions (a : CodeAttribute) :
    (a.mapPositions f).positions = a.positions.map f := by
  cases a with
  | lineNumbers nameIndex entries =>
    simp only [positions, mapPositions, List.map_map]
    rfl
  | localVariables nameIndex entries =>
    simp only [positions, mapPositions, List.flatMap_map, List.map_flatMap]
    rfl
  | localVariableTypes nameIndex entries =>
    simp only [positions, mapPositions, List.flatMap_map, List.map_flatMap]
    rfl
  | stackMap nameIndex frames =>
    simp only [positions, mapPositions, List.flatMap_map, List.map_flatMap,
      StackMapFrame.positions_mapPositions]
  | other raw => rfl

theorem Code.tablePositions_mapPositions (code : Code) :
    (code.mapPositions f).tablePositions = code.tablePositions.map f := by
  simp only [tablePositions, mapPositions, List.flatMap_map, List.map_append, List.map_flatMap,
    CodeAttribute.positions_mapPositions]
  rfl

theorem Code.anchors_mapPositions (code : Code) :
    (code.mapPositions f).anchors = code.anchors.map f := by
  rw [anchors, Code.frames_mapPositions]
  simp only [anchors, mapPositions, List.flatMap_map, List.map_append, List.map_flatMap,
    StackMapFrame.positions_mapPositions]
  rfl

theorem VerificationType.mapPositions_comp (g : Nat → Nat) : VerificationType.mapPositions g ∘
    VerificationType.mapPositions f = VerificationType.mapPositions (g ∘ f) := by
  funext t
  cases t
  all_goals rfl

theorem FrameKind.mapPositions_mapPositions (g : Nat → Nat) (kind : FrameKind) :
    (kind.mapPositions f).mapPositions g = kind.mapPositions (g ∘ f) := by
  cases kind with
  | oneOperand item =>
    exact congrArg FrameKind.oneOperand (congrFun (VerificationType.mapPositions_comp f g) item)
  | oneOperandExtended item =>
    exact congrArg FrameKind.oneOperandExtended
      (congrFun (VerificationType.mapPositions_comp f g) item)
  | append locals =>
    simp only [mapPositions, List.map_map, VerificationType.mapPositions_comp]
  | full locals stack =>
    simp only [mapPositions, List.map_map, VerificationType.mapPositions_comp]
  | _ => rfl

theorem CodeAttribute.mapPositions_mapPositions (g : Nat → Nat) (a : CodeAttribute) :
    (a.mapPositions f).mapPositions g = a.mapPositions (g ∘ f) := by
  cases a with
  | stackMap nameIndex frames =>
    simp only [mapPositions, List.map_map]
    refine congrArg _ (List.map_congr_left fun frame _ => ?_)
    exact congrArg (StackMapFrame.mk _) (FrameKind.mapPositions_mapPositions f g frame.kind)
  | other raw => rfl
  | _ =>
    simp only [mapPositions, List.map_map]
    rfl

end MapPositions

theorem FrameKind.mapPositions_id (kind : FrameKind) : kind.mapPositions id = kind := by
  have hid : VerificationType.mapPositions id = id := by
    funext t
    cases t
    all_goals rfl
  cases kind with
  | oneOperand item => exact congrArg FrameKind.oneOperand (congrFun hid item)
  | oneOperandExtended item => exact congrArg FrameKind.oneOperandExtended (congrFun hid item)
  | append locals => simp only [mapPositions, hid, List.map_id]
  | full locals stack => simp only [mapPositions, hid, List.map_id]
  | _ => rfl

theorem CodeAttribute.mapPositions_id (a : CodeAttribute) : a.mapPositions id = a := by
  cases a with
  | stackMap nameIndex frames =>
    have hid : StackMapFrame.mapPositions id = id := by
      funext frame
      exact congrArg (StackMapFrame.mk _) (FrameKind.mapPositions_id frame.kind)
    rw [mapPositions, hid, List.map_id]
  | other raw => rfl
  | lineNumbers nameIndex entries => exact congrArg _ (List.map_id entries)
  | localVariables nameIndex entries => exact congrArg _ (List.map_id entries)
  | localVariableTypes nameIndex entries => exact congrArg _ (List.map_id entries)

section DropLines

variable {f : Nat → Nat} {limit limit' : Nat} (a : CodeAttribute)

/-- Lines that go are at the end of the code, wherever that moves. -/
theorem CodeAttribute.mapPositions_dropLinesFrom (h : ∀ p, p < limit ↔ f p < limit') :
    (a.dropLinesFrom limit).mapPositions f = (a.mapPositions f).dropLinesFrom limit' := by
  cases a with
  | lineNumbers nameIndex entries =>
    simp only [dropLinesFrom, mapPositions, List.filter_map]
    refine congrArg (lineNumbers nameIndex) (congrArg (List.map _) ?_)
    refine List.filter_congr fun entry _ => ?_
    exact decide_eq_decide.mpr (h entry.start)
  | _ => rfl

theorem CodeAttribute.dropLinesFrom_mapPositions_dropLinesFrom
    (h : ∀ p, limit ≤ p → limit' ≤ f p) :
    ((a.dropLinesFrom limit).mapPositions f).dropLinesFrom limit' =
      (a.mapPositions f).dropLinesFrom limit' := by
  cases a with
  | lineNumbers nameIndex entries =>
    simp only [dropLinesFrom, mapPositions, List.filter_map, List.filter_filter]
    refine congrArg (lineNumbers nameIndex) (congrArg (List.map _) ?_)
    refine List.filter_congr fun entry _ => ?_
    refine Bool.and_eq_left_iff_imp.mpr fun hlt => decide_eq_true ?_
    exact not_le.mp fun hle => absurd (h _ hle) (not_le.mpr (of_decide_eq_true hlt))
  | _ => rfl

end DropLines

theorem CodeAttribute.positions_dropLinesFrom {limit p : Nat} {a : CodeAttribute}
    (h : p ∈ (a.dropLinesFrom limit).positions) : p ∈ a.positions := by
  cases a with
  | lineNumbers nameIndex entries =>
    exact (List.filter_sublist.map LineNumber.start).subset h
  | _ => exact h

theorem CodeAttribute.frames_dropLinesFrom (limit : Nat) (a : CodeAttribute) :
    (a.dropLinesFrom limit).frames = a.frames := by
  cases a
  all_goals rfl

/-- A removal leaves renumbered positions in the tables. -/
theorem Code.mem_tablePositions_of_remove {code code' : Code} {method : String} {place : Nat}
    {i : Instruction} (h : code.remove method place = .ok (i, code')) {p : Nat}
    (hp : p ∈ code'.tablePositions) : p ∈ code.tablePositions.map (Renumber.removed place) := by
  obtain ⟨-, -, rfl⟩ := Code.remove_eq_ok_iff.mp h
  rw [← Code.tablePositions_mapPositions]
  rw [Code.tablePositions, List.mem_append] at hp ⊢
  -- Handlers are only renumbered; of the attributes, line numbers may have gone.
  refine hp.imp_right fun hp => ?_
  obtain ⟨_, hdropped, hp⟩ := List.mem_flatMap.mp hp
  obtain ⟨a, ha, rfl⟩ := List.mem_map.mp hdropped
  exact List.mem_flatMap.mpr ⟨a, ha, CodeAttribute.positions_dropLinesFrom hp⟩

/-- A body is in range if all positions in it come from one that is, by way of a renumbering that
stays inside. -/
theorem Code.InRange.renumbered {code code' : Code} {f : Nat → Nat} (h : code.InRange)
    (hf : ∀ p ≤ code.instructions.length, f p ≤ code'.instructions.length)
    (htargets : ∀ i ∈ code'.instructions, (∀ t ∈ i.targets, t ≤ code'.instructions.length) ∨
      ∃ j ∈ code.instructions, j.mapTargets f = i)
    (htables : ∀ p ∈ code'.tablePositions, p ∈ code.tablePositions.map f) : code'.InRange where
  targets := by
    intro i hi
    rcases htargets i hi with hinside | ⟨j, hj, rfl⟩
    · exact hinside
    · rw [Instruction.targets_mapTargets]
      exact List.forall_mem_map.mpr fun t ht => hf t (h.targets j hj t ht)
  tables := by
    intro p hp
    obtain ⟨q, hq, rfl⟩ := List.mem_map.mp (htables p hp)
    exact hf q (h.tables q hq)

/-- An insertion in range has room as long as the instructions can be counted. -/
theorem Code.insert?_eq_some {code : Code} (h : code.InRange) {place : Nat}
    (hplace : place ≤ code.instructions.length) {sequence : Instructions}
    (hcount : code.instructions.length + sequence.length < countLimit) :
    code.insert? place sequence = some (code.insert place sequence) := by
  refine if_pos ?_
  rw [Instructions.hasRoom, Bool.and_eq_true, decide_eq_true_eq, List.all_eq_true]
  refine ⟨hplace, fun i hi => List.all_eq_true.mpr fun t ht => decide_eq_true ?_⟩
  have := h.targets i hi t ht
  have := Renumber.inserted_le_add place sequence.length t
  omega

/-! ### What nothing refers to -/

namespace Code

variable {code : Code} {p : Nat} {sequence : Instructions}

theorem mem_anchors_iff : p ∈ code.anchors ↔
    (∃ handler ∈ code.handlers, handler.start = p ∨ handler.entry = p) ∨
      ∃ frame ∈ code.frames, p ∈ frame.positions := by
  simp only [anchors, List.mem_append, List.mem_flatMap, List.mem_cons, List.not_mem_nil, or_false,
    @eq_comm _ p]

/-- Branches, switches and the anchors of tables are all that refers to an instruction. -/
theorem isReferenced_iff : code.isReferenced p ↔
    (∃ i ∈ code.instructions, p ∈ i.targets) ∨ p ∈ code.anchors := by
  rw [isReferenced, Instructions.isTarget, mem_anchors_iff]
  simp only [Bool.or_eq_true, List.any_eq_true, List.contains_iff_mem, beq_iff_eq, or_assoc,
    StackMapFrame.references_iff]

theorem isReferenced_eq_false_iff : code.isReferenced p = false ↔
    (∀ i ∈ code.instructions, p ∉ i.targets) ∧ p ∉ code.anchors := by
  rw [← Bool.not_eq_true, isReferenced_iff, not_or]
  simp only [not_exists, not_and]

/-- Instructions without targets that are put in change nothing about what is referred to. -/
theorem isReferenced_insert (hsequence : ∀ i ∈ sequence, i.targets = []) (place p : Nat) :
    (code.insert place sequence).isReferenced (Renumber.inserted place sequence.length p) = false ↔
      code.isReferenced p = false := by
  have hinj : Function.Injective (Renumber.inserted place sequence.length) :=
    StrictMono.injective fun _ _ => Renumber.inserted_strictMono
  have hanchors : (code.insert place sequence).anchors =
      code.anchors.map (Renumber.inserted place sequence.length) :=
    anchors_mapPositions _ code
  rw [isReferenced_eq_false_iff, isReferenced_eq_false_iff, hanchors,
    List.mem_map_of_injective hinj]
  refine and_congr_left fun _ => ⟨fun h i hi ht => ?_, fun h i hi ht => ?_⟩
  · refine h _ (Instructions.mapTargets_mem_insert hi place sequence) ?_
    rw [Instruction.targets_mapTargets]
    exact List.mem_map_of_mem ht
  · rcases Instructions.mem_insert hi with hi | ⟨j, hj, rfl⟩
    · rw [hsequence i hi] at ht
      exact absurd ht List.not_mem_nil
    · rw [Instruction.targets_mapTargets, List.mem_map_of_injective hinj] at ht
      exact h j hj ht

end Code

end ClassGraft
