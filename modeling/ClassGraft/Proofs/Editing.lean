/-
Bodies that are edited.

What makes a body proper (`Code.Proper`) survives everything that is done to it on the way to a
patched class: the pool may grow (`Code.Proper.of_extends`), legible instructions may be put in
(`Code.Proper.insert`), and an instruction that nothing refers to may be taken out
(`Code.Proper.remove`).  A class stays proper when one of its methods is given a proper body
(`ClassFile.Proper.withCode`).
-/
import ClassGraft.Proofs.Legible
import ClassGraft.Proofs.WholeClass

namespace ClassGraft

variable {pool pool' : ConstantPool}

/-! ### Growing pools -/

theorem CodeAttribute.Proper.of_extends (h : pool.Extends pool') {a : CodeAttribute}
    (ha : a.Proper pool) : a.Proper pool' := by
  cases a with
  | other raw =>
    obtain ⟨name, hname, hkind⟩ := ha
    exact ⟨name, h.utf8 hname, hkind⟩
  | _ => exact ⟨h.utf8 ha.1, ha.2⟩

theorem Code.Proper.of_extends [Build] (h : pool.Extends pool') {code : Code}
    (hcode : code.Proper pool) :
    code.Proper pool' where
  nonempty := hcode.nonempty
  legible := fun i hi => (hcode.legible i hi).of_extends h
  handlers_lt := hcode.handlers_lt
  handlers := hcode.handlers
  attributes_lt := hcode.attributes_lt
  attributes := fun a ha => (hcode.attributes a ha).of_extends h

theorem Field.Proper.of_extends (h : pool.Extends pool') {field : Field} (hf : field.Proper pool) :
    field.Proper pool' :=
  ⟨h.utf8 hf.name, h.utf8 hf.descriptor, hf.attributes_lt⟩

theorem MethodAttribute.Proper.of_extends [Build] (h : pool.Extends pool') {a : MethodAttribute}
    (ha : a.Proper pool) : a.Proper pool' := by
  cases a with
  | code nameIndex body => exact ⟨h.utf8 ha.1, ha.2.of_extends h⟩
  | other raw =>
    obtain ⟨name, hname, hcode⟩ := ha
    exact ⟨name, h.utf8 hname, hcode⟩

theorem Method.Proper.of_extends [Build] (h : pool.Extends pool') {method : Method}
    (hm : method.Proper pool) : method.Proper pool' :=
  ⟨h.utf8 hm.name, h.utf8 hm.descriptor, hm.attributes_lt,
    fun a ha => (hm.attributes a ha).of_extends h⟩

/-! ### Renumbered tables -/

theorem FrameKind.proper_mapPositions {f : Nat → Nat} {kind : FrameKind} (h : kind.Proper) :
    (kind.mapPositions f).Proper := by
  cases kind with
  | append locals =>
    rw [FrameKind.mapPositions, FrameKind.Proper, List.length_map]
    exact h
  | full locals stack =>
    rw [FrameKind.mapPositions, FrameKind.Proper, List.length_map, List.length_map]
    exact h
  | _ => exact h

/-- Renumbering that keeps the order keeps attributes proper. -/
theorem CodeAttribute.Proper.mapPositions {f : Nat → Nat} (hf : Monotone f) {a : CodeAttribute}
    (ha : a.Proper pool) : (a.mapPositions f).Proper pool := by
  have hscopes : ∀ entries : List LocalVariable, (∀ entry ∈ entries, entry.Proper) →
      ∀ entry ∈ entries.map (LocalVariable.mapPositions f), entry.Proper := by
    intro entries hentries
    exact List.forall_mem_map.mpr fun entry hentry => hf (hentries entry hentry)
  cases a with
  | lineNumbers nameIndex entries => exact ⟨ha.1, by rw [List.length_map]; exact ha.2⟩
  | localVariables nameIndex entries =>
    exact ⟨ha.1, by rw [List.length_map]; exact ha.2.1, hscopes entries ha.2.2⟩
  | localVariableTypes nameIndex entries =>
    exact ⟨ha.1, by rw [List.length_map]; exact ha.2.1, hscopes entries ha.2.2⟩
  | stackMap nameIndex frames =>
    refine ⟨ha.1, by rw [List.length_map]; exact ha.2.1, List.forall_mem_map.mpr ?_⟩
    exact fun frame hframe => FrameKind.proper_mapPositions (ha.2.2 frame hframe)
  | other raw => exact ha

theorem CodeAttribute.Proper.dropLinesFrom (limit : Nat) {a : CodeAttribute} (ha : a.Proper pool) :
    (a.dropLinesFrom limit).Proper pool := by
  cases a with
  | lineNumbers nameIndex entries =>
    exact ⟨ha.1, (List.length_filter_le _ _).trans_lt ha.2⟩
  | _ => exact ha

theorem Renumber.monotone_inserted (place count : Nat) : Monotone (Renumber.inserted place count) :=
  StrictMono.monotone fun _ _ => Renumber.inserted_strictMono

theorem Renumber.monotone_removed (place : Nat) : Monotone (Renumber.removed place) :=
  fun _ _ => Renumber.removed_mono

/-- No position moves further than what is put in is long. -/
theorem Renumber.inserted_le_add (place count p : Nat) :
    Renumber.inserted place count p ≤ p + count := by
  rw [Renumber.inserted]
  split
  · exact le_rfl
  · exact Nat.le_add_right p count

/-! ### Insertion -/

theorem Instructions.length_insert (list : Instructions) (place : Nat) (sequence : Instructions) :
    (Instructions.insert list place sequence).length = list.length + sequence.length := by
  simp only [Instructions.insert, List.length_append, List.length_take, List.length_drop,
    List.length_map]
  omega

theorem Instructions.mem_insert {list sequence : Instructions} {place : Nat} {i : Instruction}
    (h : i ∈ Instructions.insert list place sequence) :
    i ∈ sequence ∨ ∃ j ∈ list, j.mapTargets (Renumber.inserted place sequence.length) = i := by
  rw [Instructions.insert, List.mem_append, List.mem_append] at h
  rcases h with (h | h) | h
  · exact .inr (List.mem_map.mp (List.mem_of_mem_take h))
  · exact .inl h
  · exact .inr (List.mem_map.mp (List.mem_of_mem_drop h))

/-- A handler stays proper wherever instructions are put in. -/
theorem Handler.Proper.inserted {count : Nat} {handler : Handler} (h : handler.Proper count)
    (place n : Nat) : (handler.mapPositions (Renumber.inserted place n)).Proper (count + n) := by
  obtain ⟨hrange, hentry⟩ := h
  refine ⟨Renumber.inserted_strictMono hrange, ?_⟩
  exact (Renumber.inserted_le_add place n handler.entry).trans_lt (Nat.add_lt_add_right hentry n)

/-- Legible instructions may be put in anywhere. -/
theorem Code.Proper.insert [Build] {code : Code} (h : code.Proper pool) (place : Nat)
    {sequence : Instructions} (hsequence : ∀ i ∈ sequence, i.Legible pool) :
    (code.insert place sequence).Proper pool where
  nonempty := by
    have hne := List.length_pos_iff.mpr h.nonempty
    refine List.length_pos_iff.mp ?_
    show 0 < (Instructions.insert code.instructions place sequence).length
    rw [Instructions.length_insert]
    omega
  legible := by
    intro i hi
    rcases Instructions.mem_insert hi with hi | ⟨j, hj, rfl⟩
    · exact hsequence i hi
    · exact (legible_mapTargets _ j).mpr (h.legible j hj)
  handlers_lt := by
    show (code.handlers.map _).length < 65536
    rw [List.length_map]
    exact h.handlers_lt
  handlers := by
    refine List.forall_mem_map.mpr fun handler hhandler => ?_
    show (handler.mapPositions _).Proper
      (Instructions.insert code.instructions place sequence).length
    rw [Instructions.length_insert]
    exact (h.handlers handler hhandler).inserted place sequence.length
  attributes_lt := by
    show (code.attributes.map _).length < 65536
    rw [List.length_map]
    exact h.attributes_lt
  attributes := List.forall_mem_map.mpr fun a ha =>
    (h.attributes a ha).mapPositions (Renumber.monotone_inserted _ _)

/-! ### Removal -/

theorem Code.remove_eq_ok_iff {code code' : Code} {method : String} {place : Nat}
    {i : Instruction} : code.remove method place = .ok (i, code') ↔
      code.instructions[place]? = some i ∧ code.isReferenced place = false ∧
        code' = code.withoutInstruction place
          ((code.instructions.eraseIdx place).map
            (Instruction.mapTargets (Renumber.removed place))) := by
  rw [Code.remove, Instructions.remove?]
  cases code.instructions[place]? with
  | none => simp
  | some j =>
    simp only [Option.map_some, Option.some.injEq]
    by_cases h : code.isReferenced place
    · simp [h]
    · simp [h, eq_comm]

/-- No handler starts or is entered at what nothing refers to, nothing goes there, and it has no
frame. -/
theorem Code.not_referenced {code : Code} {place : Nat} (h : code.isReferenced place = false) :
    (∀ handler ∈ code.handlers, handler.start ≠ place ∧ handler.entry ≠ place) ∧
      (∀ i ∈ code.instructions, place ∉ i.targets) ∧
        ∀ frame ∈ code.frames, frame.target ≠ place := by
  rw [Code.isReferenced, Bool.or_eq_false_iff, Bool.or_eq_false_iff, List.any_eq_false,
    Instructions.isTarget, List.any_eq_false, List.any_eq_false] at h
  obtain ⟨⟨htargets, hhandlers⟩, hframes⟩ := h
  refine ⟨fun handler hh => ?_, fun i hi ht => ?_, fun frame hframe htarget => ?_⟩
  · simpa using hhandlers handler hh
  · exact htargets i hi (by simpa using ht)
  · exact hframes frame hframe (by simp [StackMapFrame.references, htarget])

/-- A handler that neither starts nor is entered at the removed instruction stays proper. -/
theorem Handler.Proper.removed {count place : Nat} {handler : Handler}
    (h : handler.Proper count) (hstart : handler.start ≠ place) (hentry : handler.entry ≠ place)
    (hplace : place < count) :
    (handler.mapPositions (Renumber.removed place)).Proper (count - 1) := by
  obtain ⟨hrange, hlt⟩ := h
  refine ⟨?_, ?_⟩
  · -- A handler of one instruction could lose its range only if it started there.
    show Renumber.removed place handler.start < Renumber.removed place handler.stop
    unfold Renumber.removed
    split
    all_goals
      split
      all_goals omega
  · show Renumber.removed place handler.entry < count - 1
    unfold Renumber.removed
    split
    all_goals omega

/-- An instruction that nothing refers to may be taken out, unless it is the only one. -/
theorem Code.Proper.remove [Build] {code code' : Code} (h : code.Proper pool) {method : String}
    {place : Nat} {i : Instruction} (hlen : 1 < code.instructions.length)
    (hremove : code.remove method place = .ok (i, code')) : code'.Proper pool := by
  obtain ⟨hi, hunreferenced, rfl⟩ := Code.remove_eq_ok_iff.mp hremove
  have hplace := (List.getElem?_eq_some_iff.mp hi).1
  have hcount : ((code.instructions.eraseIdx place).map
      (Instruction.mapTargets (Renumber.removed place))).length = code.instructions.length - 1 := by
    rw [List.length_map, List.length_eraseIdx_of_lt hplace]
  obtain ⟨hhandlers, -⟩ := Code.not_referenced hunreferenced
  refine ⟨?nonempty, ?legible, ?handlers_lt, ?handlers, ?attributes_lt, ?attributes⟩
  case nonempty => exact List.length_pos_iff.mp (by rw [Code.withoutInstruction, hcount]; omega)
  case legible =>
    refine List.forall_mem_map.mpr fun j hj => (legible_mapTargets _ j).mpr ?_
    exact h.legible j (List.mem_of_mem_eraseIdx hj)
  case handlers_lt =>
    show (code.handlers.map _).length < 65536
    rw [List.length_map]
    exact h.handlers_lt
  case handlers =>
    refine List.forall_mem_map.mpr fun handler hhandler => ?_
    obtain ⟨hstart, hentry⟩ := hhandlers handler hhandler
    rw [Code.withoutInstruction, hcount]
    exact (h.handlers handler hhandler).removed hstart hentry hplace
  case attributes_lt =>
    show ((code.attributes.map _).map _).length < 65536
    rw [List.length_map, List.length_map]
    exact h.attributes_lt
  case attributes =>
    refine List.forall_mem_map.mpr (List.forall_mem_map.mpr fun a ha => ?_)
    exact ((h.attributes a ha).mapPositions (Renumber.monotone_removed place)).dropLinesFrom _

/-- The declared sizes of a body are free. -/
theorem Code.Proper.resized [Build] {code : Code} (h : code.Proper pool)
    (maxStack maxLocals : UInt16) : ({ code with maxStack, maxLocals } : Code).Proper pool :=
  ⟨h.nonempty, h.legible, h.handlers_lt, h.handlers, h.attributes_lt, h.attributes⟩

/-! ### Methods and classes -/

theorem MethodAttribute.length_replaceCode (body : Code) (attributes : List MethodAttribute) :
    (replaceCode body attributes).length = attributes.length := by
  induction attributes with
  | nil => rfl
  | cons a rest ih =>
    cases a with
    | code => rfl
    | other => rw [replaceCode, List.length_cons, ih, List.length_cons]

theorem MethodAttribute.code?_replaceCode {attributes : List MethodAttribute} {code : Code}
    (h : attributes.findSome? code? = some code) (body : Code) :
    (replaceCode body attributes).findSome? code? = some body := by
  induction attributes with
  | nil => exact absurd h (by simp)
  | cons a rest ih =>
    cases a with
    | code => rfl
    | other raw => exact ih h

/-- A method that has a body takes over another. -/
theorem Method.code?_withCode {method : Method} {code : Code} (h : method.code? = some code)
    (body : Code) : (method.withCode body).code? = some body :=
  MethodAttribute.code?_replaceCode h body

theorem MethodAttribute.proper_replaceCode [Build] {body : Code} (hbody : body.Proper pool)
    {attributes : List MethodAttribute} (h : ∀ a ∈ attributes, a.Proper pool) :
    ∀ a ∈ replaceCode body attributes, a.Proper pool := by
  induction attributes with
  | nil => exact h
  | cons a rest ih =>
    obtain ⟨ha, hrest⟩ := List.forall_mem_cons.mp h
    cases a with
    | code nameIndex => exact List.forall_mem_cons.mpr ⟨⟨ha.1, hbody⟩, hrest⟩
    | other raw => exact List.forall_mem_cons.mpr ⟨ha, ih hrest⟩

theorem Method.Proper.withCode [Build] {method : Method} (h : method.Proper pool) {body : Code}
    (hbody : body.Proper pool) : (method.withCode body).Proper pool where
  name := h.name
  descriptor := h.descriptor
  attributes_lt := by
    rw [Method.withCode, MethodAttribute.length_replaceCode]
    exact h.attributes_lt
  attributes := MethodAttribute.proper_replaceCode hbody h.attributes

/-- A class takes over a proper body with a grown pool. -/
theorem ClassFile.Proper.withCode [Build] {c : ClassFile} (h : c.Proper) {pool : ConstantPool}
    (hpool : c.pool.Grown pool) {body : Code} (hbody : body.Proper pool) (place : Nat) :
    ({ c.withCode place body with pool } : ClassFile).Proper where
  pool := hpool.proper
  thisClass := by
    obtain ⟨name, hname⟩ := h.thisClass
    exact ⟨name, hpool.extension.className hname⟩
  superClass := by
    rcases h.superClass with hzero | ⟨name, hname⟩
    · exact .inl hzero
    · exact .inr ⟨name, hpool.extension.className hname⟩
  interfaces_lt := h.interfaces_lt
  fields_lt := h.fields_lt
  fields := fun field hf => (h.fields field hf).of_extends hpool.extension
  methods_lt := by
    rw [ClassFile.withCode, List.length_modify]
    exact h.methods_lt
  methods := by
    intro method hm
    obtain ⟨n, hn⟩ := List.mem_iff_getElem?.mp hm
    rw [ClassFile.withCode, List.getElem?_modify, Option.map_eq_map, Option.map_eq_some_iff] at hn
    obtain ⟨original, horiginal, rfl⟩ := hn
    have hproper := (h.methods original (List.mem_of_getElem? horiginal)).of_extends hpool.extension
    split
    · exact hproper.withCode hbody
    · exact hproper
  attributes_lt := h.attributes_lt

end ClassGraft
