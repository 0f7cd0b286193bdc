/-
Patches of renamed classes.

A renaming that takes the names of one naming mode to those of another, and leaves those of the
handler alone (`Renaming.Serves`), takes a patch in the one mode to a patch in the other: fields,
method and anchor are found at the same places, the same constants are found or appended, and the
body is spliced and measured alike (`Renaming.patch`).  The built-in names are exchanged between the
two modes, so a class in obfuscated names is patched as the class in canonical names is
(`Transformer.patch_builtin`).
-/
import ClassGraft.Proofs.HandlerCall
import ClassGraft.Proofs.PatchedDepths
import ClassGraft.Proofs.RenamedCode

namespace ClassGraft

/-- Whether a renaming takes what a graft looks for in one naming mode to what it looks for in
another, and leaves the names of the handler alone. -/
structure Renaming.Serves (r : Renaming) (config : GraftConfig) (mode mode' : NamingMode) :
    Prop where
  targetMethod : r.text (mode.resolve config.targetMethod) = mode'.resolve config.targetMethod
  anchorCallee : r.text (mode.resolve config.anchorCallee) = mode'.resolve config.anchorCallee
  worldField : r.text (mode.resolve config.worldField) = mode'.resolve config.worldField
  playerField : r.text (mode.resolve config.playerField) = mode'.resolve config.playerField
  handlerClass : r.text config.handlerClass = config.handlerClass
  handlerField : r.text config.handlerField = config.handlerField
  handlerType : r.text config.handlerType = config.handlerType
  handlerMethod : r.text config.handlerMethod = config.handlerMethod

theorem Renaming.serves_builtin : Renaming.builtin.Serves {} .canonical .obfuscated := by
  constructor <;> decide +kernel

namespace Renaming

open Step

variable (r : Renaming)

theorem beq_text (s t : String) : (r.text s == r.text t) = (s == t) := by
  rw [Bool.eq_iff_iff, beq_iff_eq, beq_iff_eq]
  exact r.text_injective.eq_iff

/-! ### Fields -/

def fieldRecord (record : FieldRecord) : FieldRecord :=
  ⟨r.text record.name, r.text record.descriptor⟩

def records (records : FieldRecords) : FieldRecords :=
  records.map fun x => (r.text x.1, r.fieldRecord x.2)

theorem lookup_records (records : FieldRecords) (name : String) :
    (r.records records).lookup (r.text name) = (records.lookup name).map r.fieldRecord := by
  induction records with
  | nil => rfl
  | cons x rest ih =>
    obtain ⟨key, record⟩ := x
    show ((r.text key, r.fieldRecord record) :: r.records rest).lookup (r.text name) = _
    rw [List.lookup_cons, List.lookup_cons, beq_text, ih]
    cases name == key with
    | true => rfl
    | false => rfl

theorem find (records : FieldRecords) (name : String) :
    Agree (r.fieldRecord · = ·) (records.find name) ((r.records records).find (r.text name)) := by
  rw [FieldRecords.find, FieldRecords.find, lookup_records]
  cases records.lookup name with
  | none => exact .error rfl
  | some field => exact .ok rfl

theorem record (records : FieldRecords) (name : String) (field : FieldRecord) :
    FieldRecords.record (r.records records) (r.text name) (r.fieldRecord field) =
      r.records (FieldRecords.record records name field) := by
  rw [FieldRecords.record, FieldRecords.record, lookup_records, Option.isSome_map]
  split
  · rfl
  · simp [Renaming.records]

variable {σ τ : Type} {S : σ → τ → Prop}

theorem scanFields (owner owner' : String) (wanted : List String) (fields : List Field)
    (records : FieldRecords) :
    Alike (OnValues S) (r.records · = ·)
      (FieldRecords.scanFields owner .identity wanted fields records)
      (FieldRecords.scanFields owner' .identity (wanted.map r.text) (fields.map r.field)
        (r.records records)) := by
  have hwanted : ∀ name, (wanted.map r.text).contains (r.text name) = wanted.contains name := by
    intro name
    rw [Bool.eq_iff_iff, List.contains_iff_mem, List.contains_iff_mem]
    exact List.mem_map_of_injective r.text_injective
  induction fields generalizing records with
  | nil => exact .pure rfl
  | cons field rest ih =>
    have hcontains : (wanted.map r.text).contains
        (Remapper.identity.fieldName owner' (r.field field).name (r.field field).descriptor) =
          wanted.contains (Remapper.identity.fieldName owner field.name field.descriptor) :=
      hwanted field.name
    rw [List.map_cons, FieldRecords.scanFields, FieldRecords.scanFields]
    dsimp only
    rw [hcontains]
    split
    · refine (Alike.note _ _ _ _).bind_eq fun _ => ?_
      have halike := ih (FieldRecords.record records field.name ⟨field.name, field.descriptor⟩)
      rw [← record] at halike
      exact halike
    · exact ih records

/-! ### Places -/

theorem code?_method (method : Method) : (r.method method).code? = method.code?.map r.code := by
  show (method.attributes.map r.methodAttribute).findSome? MethodAttribute.code? =
    (method.attributes.findSome? MethodAttribute.code?).map r.code
  induction method.attributes with
  | nil => rfl
  | cons a rest ih =>
    cases a with
    | code nameIndex body => rfl
    | other raw => exact ih

variable {c : ClassFile} (hc : c.pool.IsCanonical)

include hc in
theorem name : Agree (r.text · = ·) c.name (r.classFile c).name :=
  className hc c.thisClass

include hc in
theorem scan (wanted : List String) :
    Alike (OnValues S) (r.records · = ·) (FieldRecords.scan c .identity wanted)
      (FieldRecords.scan (r.classFile c) .identity (wanted.map r.text)) :=
  (Alike.ofExcept (r.name hc)).bind fun owner owner' _ =>
    r.scanFields owner owner' wanted c.fields []

include hc in
/-- The method is found at the same place. -/
theorem findMethod {mode mode' : NamingMode} {canonical : String}
    (h : r.text (mode.resolve canonical) = mode'.resolve canonical) :
    Alike (OnValues S) Eq (ClassGraft.findMethod c mode .identity canonical)
      (ClassGraft.findMethod (r.classFile c) mode' .identity canonical) := by
  refine (Alike.ofExcept (r.name hc)).bind fun owner owner' _ => ?_
  have hfound : ((r.classFile c).methods.zipIdx.find? fun x =>
      Remapper.identity.methodName owner' x.1.name x.1.descriptor == mode'.resolve canonical) =
        (c.methods.zipIdx.find? fun x =>
          Remapper.identity.methodName owner x.1.name x.1.descriptor == mode.resolve canonical).map
            fun x => (r.method x.1, x.2) := by
    show ((c.methods.map r.method).zipIdx.find? _) = _
    rw [List.zipIdx_map, List.find?_map]
    congr 2
    funext x
    show (r.text x.1.name == mode'.resolve canonical) = (x.1.name == mode.resolve canonical)
    rw [← h, beq_text]
  dsimp only
  rw [hfound]
  rcases c.methods.zipIdx.find? _ with _ | ⟨method, place⟩
  · exact .throw rfl
  · exact (Alike.note _ _ _ _).bind_eq fun _ => .pure rfl

/-- The anchor is found at the same place. -/
theorem findAnchor {mode mode' : NamingMode} {callee : String}
    (h : r.text (mode.resolve callee) = mode'.resolve callee) (method : Method) :
    Alike (OnValues S) Eq (ClassGraft.findAnchor method mode .identity callee)
      (ClassGraft.findAnchor (r.method method) mode' .identity callee) := by
  have hcalls : ∀ i, (r.instruction i).callsName .identity (mode'.resolve callee) =
      i.callsName .identity (mode.resolve callee) := by
    intro i
    cases i with
    | invoke m dispatch =>
      show (r.text m.name == mode'.resolve callee) = (m.name == mode.resolve callee)
      rw [← h, beq_text]
    | _ => rfl
  have hfound : ((r.method method).code?.bind fun code =>
      code.instructions.findIdx? (Instruction.callsName .identity (mode'.resolve callee))) =
        method.code?.bind fun code =>
          code.instructions.findIdx? (Instruction.callsName .identity (mode.resolve callee)) := by
    rw [code?_method, Option.bind_map]
    congr 1
    funext code
    show (code.instructions.map r.instruction).findIdx? _ = _
    rw [List.findIdx?_map]
    congr 1
    funext i
    exact hcalls i
  rw [ClassGraft.findAnchor, ClassGraft.findAnchor, hfound]
  rcases method.code?.bind _ with _ | index
  · exact .throw rfl
  · exact (Alike.note _ _ _ _).bind_eq fun _ => .pure rfl

/-! ### Drafts -/

/-- A draft in a canonical pool and the renamed one. -/
def Drafts (d d' : Draft) : Prop :=
  d.pool.IsCanonical ∧ r.code d.code = d'.code ∧ r.pool d.pool = d'.pool

variable {r}

theorem setCode {code code' : Code} (h : r.code code = code') :
    Alike (OnValues r.Drafts) Eq (Draft.setCode code) (Draft.setCode code') := by
  rintro s t ⟨hpool, -, hpools⟩
  exact .ok rfl ⟨hpool, h, hpools⟩

theorem onPool {α β : Type} {R : α → β → Prop} {m : PoolEdit α} {m' : PoolEdit β}
    (h : Alike r.Pools R m m') :
    Alike (OnValues r.Drafts) R (Draft.onPool m) (Draft.onPool m') := by
  rintro s t ⟨hpool, hcode, hpools⟩
  have hmatched := h (show r.Pools s.value.pool t.value.pool from ⟨hpool, hpools⟩)
  rw [Draft.onPool, Draft.onPool]
  generalize m s.value.pool = x at hmatched ⊢
  generalize m' t.value.pool = y at hmatched ⊢
  cases hmatched with
  | ok hR hS => exact .ok hR ⟨hS.1, hcode, hS.2⟩
  | error h => exact .error h

variable (r)

/-! ### The handler call -/

/-- A field that the handler may be given has a descriptor that a renaming leaves alone. -/
theorem checkReference (field : FieldRecord) :
    Agree (fun _ _ => ∃ t, FieldType.parse field.descriptor = .ok t)
      (ClassGraft.checkReference field) (ClassGraft.checkReference (r.fieldRecord field)) := by
  refine (r.parse_fieldType field.descriptor).bind_of_ok ?_
  rintro t _ ht rfl
  exact .ite (.ok ⟨t, ht⟩) (.error rfl)

theorem text_handlerDescriptor {world player : String} {w p : FieldType}
    (hw : FieldType.parse world = .ok w) (hp : FieldType.parse player = .ok p) :
    r.text (GraftConfig.handlerDescriptor world player) =
      GraftConfig.handlerDescriptor (r.text world) (r.text player) := by
  rw [r.fieldType world w hw, r.fieldType player p hp]
  exact r.methodDescriptor _ _ (GraftConfig.parse_handlerDescriptor hw hp)

theorem map_handlerCall (slot : UInt16) (kind : ValueKind)
    (holder world player handler : MemberRef) :
    (handlerCall slot kind holder world player handler).map r.instruction =
      handlerCall slot kind (r.member holder) (r.member world) (r.member player)
        (r.member handler) := rfl

variable {r} {config : GraftConfig} {mode mode' : NamingMode}

/-- The renamed handler call is put together. -/
theorem injectedSequence (hr : r.Serves config mode mode') (owner : String)
    (fields : FieldRecords) (slot : UInt16) (kind : ValueKind) :
    Alike (OnValues r.Drafts) (fun s s' => s.map r.instruction = s')
      (ClassGraft.injectedSequence ⟨config, mode, owner, fields⟩ slot kind)
      (ClassGraft.injectedSequence ⟨config, mode', r.text owner, r.records fields⟩ slot kind) := by
  have hworld := r.find fields (mode.resolve config.worldField)
  have hplayer := r.find fields (mode.resolve config.playerField)
  rw [hr.worldField] at hworld
  rw [hr.playerField] at hplayer
  refine (Alike.ofExcept hworld).bind ?_
  rintro world _ rfl
  refine (Alike.ofExcept hplayer).bind ?_
  rintro player _ rfl
  refine (Alike.ofExcept (r.checkReference world)).bind ?_
  rintro _ _ ⟨w, hw⟩
  refine (Alike.ofExcept (r.checkReference player)).bind ?_
  rintro _ _ ⟨p, hp⟩
  -- The members of the handler are the same, those of the class are renamed.
  have hholder := r.fieldMember config.handlerClass config.handlerField config.handlerType
  rw [hr.handlerClass, hr.handlerField, hr.handlerType] at hholder
  have hhandler := r.methodMember config.handlerClass config.handlerMethod
    (GraftConfig.handlerDescriptor world.descriptor player.descriptor)
  rw [hr.handlerClass, hr.handlerMethod, r.text_handlerDescriptor hw hp] at hhandler
  refine onPool (hholder.bind ?_)
  rintro holder _ rfl
  refine (r.fieldMember owner world.name world.descriptor).bind ?_
  rintro world' _ rfl
  refine (r.fieldMember owner player.name player.descriptor).bind ?_
  rintro player' _ rfl
  refine hhandler.bind ?_
  rintro handler _ rfl
  exact .pure (r.map_handlerCall slot kind holder world' player' handler)

/-! ### The splice -/

variable (r)

theorem anchorCallee (method : Method) (code : Code) (anchor : Nat) :
    Agree (fun x y => x.2 = y.2) (ClassGraft.anchorCallee method code anchor)
      (ClassGraft.anchorCallee (r.method method) (r.code code) anchor) := by
  have hget : (r.code code).instructions[anchor]? =
      code.instructions[anchor]?.map r.instruction := List.getElem?_map
  rw [ClassGraft.anchorCallee, ClassGraft.anchorCallee, hget]
  rcases code.instructions[anchor]? with _ | i
  · exact .error rfl
  · cases i with
    | invoke callee dispatch =>
      exact (r.parse_methodDescriptor callee.descriptor).bind_eq fun _ =>
        .ite (.ok rfl) (.error rfl)
    | _ => exact .error rfl

theorem checkCoordinates (method : Method) (anchor : Nat) :
    Agree Eq (ClassGraft.checkCoordinates method anchor)
      (ClassGraft.checkCoordinates (r.method method) anchor) := by
  refine .ite (.error rfl) ?_
  exact (r.parse_methodDescriptor method.descriptor).bind_eq fun _ => .ite (.ok rfl) (.error rfl)

theorem parameterSlots [Build] (method : Method) :
    Agree Eq method.parameterSlots (r.method method).parameterSlots :=
  (r.parse_methodDescriptor method.descriptor).bind_eq fun _ => .refl _

theorem freeSlot [Build] (method : Method) (code : Code) (anchor : Nat) (kind : ValueKind) :
    Agree Eq (ClassGraft.freeSlot method code anchor kind)
      (ClassGraft.freeSlot (r.method method) (r.code code) anchor kind) := by
  refine (r.parameterSlots method).bind_eq fun slots => ?_
  dsimp only
  rw [localWatermark_code]
  exact .ite (.ok rfl) (.error rfl)

theorem discardBehind (name name' : String) (index : Nat) (list : Instructions) :
    Agree Eq (ClassGraft.discardBehind name index list)
      (ClassGraft.discardBehind name' index (list.map r.instruction)) := by
  induction list generalizing index with
  | nil => exact .error rfl
  | cons i rest ih =>
    rw [List.map_cons, ClassGraft.discardBehind, ClassGraft.discardBehind, isNop_instruction]
    by_cases hpop : i = .pop
    · rw [if_pos hpop, if_pos (r.instruction_eq_pop_iff.mpr hpop)]
      exact .ok rfl
    · rw [if_neg hpop, if_neg fun h => hpop (r.instruction_eq_pop_iff.mp h)]
      exact .ite (ih (index + 1)) (.error rfl)

variable {r}

/-- The renamed body is spliced at the same places. -/
theorem splice [Build] (hr : r.Serves config mode mode') (owner : String) (fields : FieldRecords)
    (method : Method) (anchor : Nat) :
    Alike (OnValues r.Drafts) Eq
      (ClassGraft.splice method anchor ⟨config, mode, owner, fields⟩)
      (ClassGraft.splice (r.method method) anchor
        ⟨config, mode', r.text owner, r.records fields⟩) := by
  refine Alike.current.bind ?_
  rintro draft ⟨code', pool'⟩ ⟨-, hcode, -⟩
  obtain rfl : r.code draft.code = code' := hcode
  refine (Alike.ofExcept (r.anchorCallee method draft.code anchor)).bind ?_
  rintro ⟨callee, kind⟩ ⟨callee', _⟩ rfl
  refine (Alike.ofExcept (r.checkCoordinates method anchor)).bind_eq fun _ => ?_
  refine (Alike.ofExcept (r.freeSlot method draft.code anchor kind)).bind_eq fun slot => ?_
  refine (Alike.note _ _ _ _).bind_eq fun _ => ?_
  refine (injectedSequence hr owner fields slot kind).bind ?_
  rintro sequence _ rfl
  dsimp only
  rw [List.length_map, code_insert]
  refine (setCode rfl).bind_eq fun _ => ?_
  have hdrop : ((r.code (draft.code.insert (anchor + 1) sequence)).instructions.drop
      (anchor + 1 + sequence.length)) = ((draft.code.insert (anchor + 1) sequence).instructions.drop
        (anchor + 1 + sequence.length)).map r.instruction := List.map_drop.symm
  rw [hdrop]
  refine (Alike.ofExcept (r.discardBehind _ _ _ _)).bind_eq fun removed => ?_
  refine (Alike.ofExcept (r.remove _ _ _ removed)).bind ?_
  rintro ⟨i, spliced⟩ ⟨i', _⟩ rfl
  refine (setCode rfl).bind_eq fun _ => ?_
  exact (Alike.note _ _ _ _).bind_eq fun _ => .pure rfl

/-- The renamed body is measured alike. -/
theorem remeasure [Build] (method : Method) :
    Alike (OnValues r.Drafts) Eq (ClassGraft.remeasure method)
      (ClassGraft.remeasure (r.method method)) := by
  refine Alike.current.bind ?_
  rintro draft ⟨code', pool'⟩ ⟨hpool, hcode, hpools⟩
  obtain rfl : r.code draft.code = code' := hcode
  obtain rfl : r.pool draft.pool = pool' := hpools
  refine (Alike.ofExcept (r.survey hpool _ _ draft.code)).bind_eq fun depths => ?_
  refine (Alike.ofExcept (r.encode _ _ draft.code.instructions)).bind_eq fun encoded => ?_
  refine (setCode rfl).bind_eq fun _ => ?_
  refine (Alike.ofExcept (r.parameterSlots method)).bind_eq fun slots => ?_
  dsimp only
  rw [localWatermark_code]
  refine (setCode rfl).bind_eq fun _ => ?_
  exact (Alike.note _ _ _ _).bind_eq fun _ => .pure rfl

theorem graft [Build] (hr : r.Serves config mode mode') (owner : String) (fields : FieldRecords)
    (method : Method) (anchor : Nat) :
    Alike (OnValues r.Drafts) Eq
      (Transformer.graft method anchor ⟨config, mode, owner, fields⟩)
      (Transformer.graft (r.method method) anchor
        ⟨config, mode', r.text owner, r.records fields⟩) :=
  (splice hr owner fields method anchor).bind_eq fun _ => (remeasure method).bind_eq fun _ =>
    .pure rfl

/-! ### The patch -/

variable (r)

/-- A class with a canonical pool and the renamed one. -/
def Classes (c c' : ClassFile) : Prop := c.pool.IsCanonical ∧ r.classFile c = c'

def report (report : GraftReport) : GraftReport :=
  { report with
    className := r.text report.className
    method := r.text report.method
    descriptor := r.text report.descriptor }

theorem method_withCode (method : Method) (code : Code) :
    r.method (method.withCode code) = (r.method method).withCode (r.code code) := by
  have hreplace : ∀ attributes,
      (MethodAttribute.replaceCode code attributes).map r.methodAttribute =
        MethodAttribute.replaceCode (r.code code) (attributes.map r.methodAttribute) := by
    intro attributes
    induction attributes with
    | nil => rfl
    | cons a rest ih =>
      cases a with
      | code nameIndex body => rfl
      | other raw => exact congrArg (.other raw :: ·) ih
  simp only [Renaming.method, Method.withCode, hreplace]

theorem classFile_withCode (c : ClassFile) (place : Nat) (code : Code) (pool : ConstantPool) :
    r.classFile { c.withCode place code with pool } =
      { (r.classFile c).withCode place (r.code code) with pool := r.pool pool } := by
  have hmethods : (c.methods.modify place (Method.withCode · code)).map r.method =
      (c.methods.map r.method).modify place (Method.withCode · (r.code code)) := by
    refine List.ext_getElem? fun n => ?_
    rw [List.getElem?_map]
    by_cases hn : place = n
    · rw [← hn, List.getElem?_modify_eq, List.getElem?_modify_eq, List.getElem?_map]
      cases c.methods[place]? with
      | none => rfl
      | some method => exact congrArg some (r.method_withCode method code)
    · rw [List.getElem?_modify_ne _ _ hn, List.getElem?_modify_ne _ _ hn, List.getElem?_map]
  simp only [Renaming.classFile, ClassFile.withCode, hmethods]

theorem elim {α : Type} (f : α → α) (o : Option α) {fault fault' : Fault}
    (h : fault.kind = fault'.kind) :
    Agree (f · = ·) (o.elim (.error fault) .ok) ((o.map f).elim (.error fault') .ok) := by
  cases o with
  | none => exact .error h
  | some x => exact .ok rfl

variable {r}

/-- A renamed class is patched alike. -/
theorem patch [Build] (hr : r.Serves config mode mode') :
    Alike (OnValues r.Classes) (r.report · = ·) (Transformer.patch { config } mode)
      (Transformer.patch { config } mode') := by
  refine Alike.current.bind ?_
  rintro c _ ⟨hc, rfl⟩
  refine (Alike.ofExcept (r.name hc)).bind ?_
  rintro owner _ rfl
  refine (Alike.note _ _ _ _).bind_eq fun _ => ?_
  have hscan := @scan r _ _ r.Classes c hc
    [mode.resolve config.worldField, mode.resolve config.playerField]
  rw [List.map_cons, List.map_cons, List.map_nil, hr.worldField, hr.playerField] at hscan
  refine hscan.bind ?_
  rintro fields _ rfl
  refine (r.findMethod hc hr.targetMethod).bind_eq fun place => ?_
  have hget : (r.classFile c).methods[place]? = c.methods[place]?.map r.method :=
    List.getElem?_map
  dsimp only
  rw [hget]
  refine (Alike.ofExcept (elim r.method _ (by rfl))).bind ?_
  rintro method _ rfl
  refine (r.findAnchor hr.anchorCallee method).bind_eq fun anchor => ?_
  rw [code?_method]
  refine (Alike.ofExcept (elim r.code _ (by rfl))).bind ?_
  rintro code _ rfl
  refine (Alike.within (graft hr owner fields method anchor) ⟨hc, rfl, rfl⟩).bind ?_
  rintro ⟨⟨spliced, maxima⟩, draft⟩ ⟨⟨_, _⟩, code', pool'⟩ ⟨heq, hpool, hcode, hpools⟩
  obtain ⟨rfl, rfl⟩ := Prod.mk.inj heq
  obtain rfl : r.code draft.code = code' := hcode
  obtain rfl : r.pool draft.pool = pool' := hpools
  refine (Alike.replace ⟨hpool, r.classFile_withCode c place _ _⟩).bind_eq fun _ => ?_
  exact (Alike.note _ _ _ _).bind_eq fun _ => .pure rfl

end Renaming

namespace Transformer

/-- The default graft takes a class in obfuscated names for the class in canonical names: it
succeeds on the one where it succeeds on the other, gives the renamed class and reports the same
places and sizes, or it fails on both in one way. -/
theorem patch_builtin [Build] (c : ClassFile) (hc : c.pool.IsCanonical) (log log' : List LogLine) :
    match patch {} .canonical ⟨c, log⟩,
      patch {} .obfuscated ⟨Renaming.builtin.classFile c, log'⟩ with
    | .ok report s, .ok report' s' => s'.value = Renaming.builtin.classFile s.value ∧
        report'.anchor = report.anchor ∧ report'.slot = report.slot ∧
        report'.inserted = report.inserted ∧ report'.removed = report.removed ∧
        report'.maxStack = report.maxStack ∧ report'.maxLocals = report.maxLocals
    | .error fault _, .error fault' _ => fault'.kind = fault.kind
    | _, _ => False := by
  have halike := Renaming.patch Renaming.serves_builtin
    (show Step.OnValues Renaming.builtin.Classes ⟨c, log⟩ ⟨Renaming.builtin.classFile c, log'⟩ from
      ⟨hc, rfl⟩)
  generalize patch {} .canonical ⟨c, log⟩ = x at halike ⊢
  generalize patch {} .obfuscated ⟨Renaming.builtin.classFile c, log'⟩ = y at halike ⊢
  cases halike with
  | ok hreport hclass =>
    obtain rfl := hreport
    exact ⟨hclass.2.symm, rfl, rfl, rfl, rfl, rfl, rfl⟩
  | error hkind => exact hkind.symm

attribute [local instance] Build.checked

/-- The class with a plain body in obfuscated names is patched as the one in canonical names is. -/
theorem patch_builtin_plainBody :
    (harvestClass plainBody).pool.IsCanonical ∧ ∃ report log report' log',
      patch {} .canonical ⟨harvestClass plainBody, []⟩ = .ok report ⟨patchedClass plainBody, log⟩ ∧
      patch {} .obfuscated ⟨Renaming.builtin.classFile (harvestClass plainBody), []⟩ =
        .ok report' ⟨Renaming.builtin.classFile (patchedClass plainBody), log'⟩ ∧
      report'.anchor = 0 ∧ report'.slot = 4 := by
  have hcanonical : (harvestClass plainBody).pool.IsCanonical := by
    intro c hc
    simp only [harvestClass, List.mem_cons, reduceCtorEq, Option.some.injEq, false_or,
      List.not_mem_nil, or_false] at hc
    rcases hc with rfl | rfl | rfl | rfl | rfl | rfl | rfl | rfl | rfl | rfl | rfl | rfl | rfl |
      rfl | rfl
    all_goals first | exact ⟨_, rfl⟩ | exact trivial
  obtain ⟨log, hpatch⟩ := patch_plainBody
  have halike := patch_builtin (harvestClass plainBody) hcanonical [] []
  rw [hpatch] at halike
  cases hrenamed : patch {} .obfuscated
      ⟨Renaming.builtin.classFile (harvestClass plainBody), []⟩ with
  | ok report' s' =>
    rw [hrenamed] at halike
    obtain ⟨hclass, hanchor, hslot, -⟩ := halike
    obtain ⟨c', log'⟩ := s'
    obtain rfl : c' = Renaming.builtin.classFile (patchedClass plainBody) := hclass
    exact ⟨hcanonical, _, log, report', log', hpatch, rfl, hanchor, hslot⟩
  | error fault s' =>
    rw [hrenamed] at halike
    exact halike.elim

end Transformer

end ClassGraft
