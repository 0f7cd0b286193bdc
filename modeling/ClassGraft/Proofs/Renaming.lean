/-
Renamed classes.

A renaming exchanges texts in pairs and leaves every descriptor alone (`Renaming`).  It goes through
a class as a whole: through the texts of the pool, the members that instructions refer to, and the
names and descriptors of fields and methods (`Renaming.classFile`).  `Renaming.builtin` exchanges
the canonical names of `builtinNames` with their run-time names.

In a pool whose texts are in their shortest form (`ConstantPool.IsCanonical`) whatever an index
resolves to resolves to the renamed thing in the renamed pool (`Renaming.memberRef`), and what is
asked for is found or appended at the same index (`Renaming.fieldIndex`, `Renaming.methodIndex`).
-/
import ClassGraft.Proofs.Agreement
import ClassGraft.Proofs.Descriptors
import ClassGraft.Proofs.PoolGrowth

namespace ClassGraft

/-- An exchange of texts that leaves descriptors alone. -/
structure Renaming where
  text : String → String
  text_text (s : String) : text (text s) = s
  fieldType (s : String) (t : FieldType) : FieldType.parse s = .ok t → text s = s
  methodDescriptor (s : String) (d : MethodDescriptor) :
    MethodDescriptor.parse s = .ok d → text s = s

namespace Renaming

/-! ### Renamed data -/

/-- The constant with a text renamed; other constants hold no text. -/
def constant (r : Renaming) : Constant → Constant
  | .utf8 bytes =>
    match ModifiedUtf8.decode bytes with
    | .ok s => .utf8 (ModifiedUtf8.encode (r.text s))
    | .error _ => .utf8 bytes
  | c => c

def pool (r : Renaming) (pool : ConstantPool) : ConstantPool :=
  ⟨pool.slots.map (Option.map r.constant)⟩

def member (r : Renaming) (m : MemberRef) : MemberRef :=
  ⟨m.index, r.text m.owner, r.text m.name, r.text m.descriptor⟩

def instruction (r : Renaming) : Instruction → Instruction
  | .loadField field isStatic => .loadField (r.member field) isStatic
  | .storeField field isStatic => .storeField (r.member field) isStatic
  | .invoke method dispatch => .invoke (r.member method) dispatch
  | i => i

def code (r : Renaming) (code : Code) : Code :=
  { code with instructions := code.instructions.map r.instruction }

def methodAttribute (r : Renaming) : MethodAttribute → MethodAttribute
  | .code nameIndex body => .code nameIndex (r.code body)
  | .other raw => .other raw

def field (r : Renaming) (field : Field) : Field :=
  { field with name := r.text field.name, descriptor := r.text field.descriptor }

def method (r : Renaming) (method : Method) : Method :=
  { method with
    name := r.text method.name
    descriptor := r.text method.descriptor
    attributes := method.attributes.map r.methodAttribute }

/-- The class with every text of its pool, every member that its instructions refer to, and the
names and descriptors of its fields and methods renamed. -/
def classFile (r : Renaming) (c : ClassFile) : ClassFile :=
  { c with
    pool := r.pool c.pool
    fields := c.fields.map r.field
    methods := c.methods.map r.method }

/-! ### The built-in names -/

/-- The other one of a pair of `builtinNames`. -/
def exchange (name : String) : String :=
  (builtinNames.lookup name).getD (NamingMode.obfuscated.canonicalName name)

theorem exchange_of_mem {name runtime : String} (h : (name, runtime) ∈ builtinNames) :
    exchange name = runtime ∧ exchange runtime = name := by
  revert h
  simp only [builtinNames, List.mem_cons, Prod.mk.injEq, List.not_mem_nil, or_false]
  rintro (⟨rfl, rfl⟩ | ⟨rfl, rfl⟩ | ⟨rfl, rfl⟩ | ⟨rfl, rfl⟩)
  all_goals exact ⟨by decide +kernel, by decide +kernel⟩

theorem exchange_of_not_mem {s : String} (h : ∀ p ∈ builtinNames, s ≠ p.1 ∧ s ≠ p.2) :
    exchange s = s := by
  have hlookup : builtinNames.lookup s = none := by
    rw [List.lookup_eq_none_iff]
    intro p hp
    simpa using (h p hp).1
  have hfind : (builtinNames.find? fun p => p.2 == s) = none := by
    rw [List.find?_eq_none]
    intro p hp
    simpa using (h p hp).2.symm
  rw [exchange, hlookup, Option.getD_none, NamingMode.canonicalName]
  simp only [hfind]

theorem exchange_exchange (s : String) : exchange (exchange s) = s := by
  by_cases h : ∀ p ∈ builtinNames, s ≠ p.1 ∧ s ≠ p.2
  · rw [exchange_of_not_mem h, exchange_of_not_mem h]
  · -- A name that is exchanged is one of a pair, and is exchanged back.
    simp only [not_forall, not_and_or, not_not] at h
    obtain ⟨⟨name, runtime⟩, hmem, rfl | rfl⟩ := h
    · rw [(exchange_of_mem hmem).1, (exchange_of_mem hmem).2]
    · rw [(exchange_of_mem hmem).2, (exchange_of_mem hmem).1]

/-- What one can read as a descriptor is no built-in name. -/
theorem exchange_of_parse {α : Type} {parse : String → Except Fault α}
    (hparse : ∀ p ∈ builtinNames, (parse p.1).isOk = false ∧ (parse p.2).isOk = false)
    {s : String} {x : α} (h : parse s = .ok x) : exchange s = s := by
  refine exchange_of_not_mem fun p hp => ⟨?_, ?_⟩
  · rintro rfl
    have hnot := (hparse p hp).1
    rw [h] at hnot
    exact absurd hnot (by simp [Except.isOk, Except.toBool])
  · rintro rfl
    have hnot := (hparse p hp).2
    rw [h] at hnot
    exact absurd hnot (by simp [Except.isOk, Except.toBool])

/-- The renaming that exchanges the built-in names in pairs. -/
def builtin : Renaming where
  text := exchange
  text_text := exchange_exchange
  fieldType := fun _ _ h => exchange_of_parse (by decide +kernel) h
  methodDescriptor := fun _ _ h => exchange_of_parse (by decide +kernel) h

end Renaming

/-! ### Constants -/

/-- Whether a text has the form in which it would be written. -/
def Constant.IsCanonical : Constant → Prop
  | .utf8 bytes => ∃ s, ModifiedUtf8.encode s = bytes
  | _ => True

/-- Whether all texts of a pool have the forms in which they would be written. -/
def ConstantPool.IsCanonical (pool : ConstantPool) : Prop :=
  ∀ c, some c ∈ pool.slots.toList → c.IsCanonical

theorem ConstantPool.isCanonical_append {p : ConstantPool} {c : Constant} (hp : p.IsCanonical)
    (hc : c.IsCanonical) : (p.append c).IsCanonical := by
  intro d hd
  rw [ConstantPool.append_eq, List.mem_append, ConstantPool.mem_slotsOf_singleton] at hd
  rcases hd with hd | rfl
  · exact hp d hd
  · exact hc

namespace Renaming

variable (r : Renaming)

theorem text_injective : Function.Injective r.text := by
  intro s t h
  rw [← r.text_text s, h, r.text_text]

@[simp] theorem constant_encode (s : String) :
    r.constant (.utf8 (ModifiedUtf8.encode s)) = .utf8 (ModifiedUtf8.encode (r.text s)) := by
  rw [constant, ModifiedUtf8.decode_encode]

@[simp] theorem kind_constant (c : Constant) : (r.constant c).kind = c.kind := by
  cases c with
  | utf8 bytes =>
    rw [constant]
    split
    · rfl
    · rfl
  | _ => rfl

/-- A canonical constant can be told by the renamed one. -/
theorem constant_inj {c d : Constant} (hc : c.IsCanonical) (hd : d.IsCanonical)
    (h : r.constant c = r.constant d) : c = d := by
  have hkind : c.kind = d.kind := by rw [← r.kind_constant c, h, kind_constant]
  cases c with
  | utf8 bytes =>
    obtain ⟨s, rfl⟩ := hc
    cases d with
    | utf8 bytes' =>
      obtain ⟨t, rfl⟩ := hd
      rw [constant_encode, constant_encode] at h
      -- A text can be told by its bytes.
      have hdecoded := congrArg ModifiedUtf8.decode (Constant.utf8.inj h)
      rw [ModifiedUtf8.decode_encode, ModifiedUtf8.decode_encode] at hdecoded
      rw [r.text_injective (Except.ok.inj hdecoded)]
    | _ => exact absurd hkind (by simp [Constant.kind])
  | _ =>
    cases d with
    | utf8 => exact absurd hkind (by simp [Constant.kind])
    | _ => exact h

/-! ### Pools -/

/-- A canonical pool and the renamed one. -/
def Pools (p q : ConstantPool) : Prop := p.IsCanonical ∧ r.pool p = q

theorem lookup?_pool (p : ConstantPool) (i : UInt16) :
    (r.pool p).lookup? i = (p.lookup? i).map r.constant := by
  show ((p.slots.map (Option.map r.constant))[i.toNat]?).join = (p.slots[i.toNat]?).join.map _
  rw [Array.getElem?_map]
  rcases p.slots[i.toNat]? with _ | _ | c
  · rfl
  · rfl
  · rfl

/-- Tests that do not tell the entries of a list apart find the same one. -/
theorem findIdx?_congr {α : Type} {list : List α} {f g : α → Bool} (h : ∀ x ∈ list, f x = g x) :
    list.findIdx? f = list.findIdx? g := by
  induction list with
  | nil => rfl
  | cons x rest ih =>
    obtain ⟨hx, hrest⟩ := List.forall_mem_cons.mp h
    rw [List.findIdx?_cons, List.findIdx?_cons, hx, ih hrest]

theorem pool_append (p : ConstantPool) (c : Constant) :
    r.pool (p.append c) = (r.pool p).append (r.constant c) := by
  have hwide : (r.constant c).wide = c.wide := by
    rw [Constant.wide, Constant.wide, kind_constant]
  rw [ConstantPool.append, ConstantPool.append, hwide]
  split
  · simp [pool]
  · simp [pool]

variable {r} {p : ConstantPool} (hp : p.IsCanonical)

include hp

theorem lookup (i : UInt16) : Agree (fun c d => c.IsCanonical ∧ r.constant c = d) (p.lookup i)
    ((r.pool p).lookup i) := by
  rw [ConstantPool.lookup, ConstantPool.lookup, lookup?_pool]
  cases hc : p.lookup? i with
  | none => exact .error rfl
  | some c =>
    refine .ok ⟨hp c ?_, rfl⟩
    exact List.mem_of_getElem? (ConstantPool.lookup?_eq_some_iff.mp hc)

theorem utf8 (i : UInt16) : Agree (r.text · = ·) (p.utf8 i) ((r.pool p).utf8 i) := by
  refine (lookup hp i).bind ?_
  rintro c _ ⟨hc, rfl⟩
  cases c with
  | utf8 bytes =>
    obtain ⟨s, rfl⟩ := hc
    rw [constant_encode]
    simp only [ModifiedUtf8.decode_encode]
    exact .ok rfl
  | _ => exact .error rfl

theorem className (i : UInt16) : Agree (r.text · = ·) (p.className i) ((r.pool p).className i) := by
  refine (lookup hp i).bind ?_
  rintro c _ ⟨hc, rfl⟩
  cases c with
  | classRef name => exact utf8 hp name
  | utf8 bytes =>
    obtain ⟨s, rfl⟩ := hc
    rw [constant_encode]
    exact .error rfl
  | _ => exact .error rfl

theorem nameAndType (i : UInt16) :
    Agree (fun x y => r.text x.1 = y.1 ∧ r.text x.2 = y.2) (p.nameAndType i)
      ((r.pool p).nameAndType i) := by
  refine (lookup hp i).bind ?_
  rintro c _ ⟨hc, rfl⟩
  cases c with
  | nameAndType name descriptor =>
    refine (utf8 hp name).bind fun s s' hs => ?_
    exact (utf8 hp descriptor).bind fun t t' ht => .ok ⟨hs, ht⟩
  | utf8 bytes =>
    obtain ⟨s, rfl⟩ := hc
    rw [constant_encode]
    exact .error rfl
  | _ => exact .error rfl

theorem memberRef (i : UInt16) :
    Agree (r.member · = ·) (p.memberRef i) ((r.pool p).memberRef i) := by
  refine (lookup hp i).bind ?_
  rintro c _ ⟨hc, rfl⟩
  cases c with
  | fieldRef owner nat | methodRef owner nat | interfaceMethodRef owner nat =>
    refine (nameAndType hp nat).bind ?_
    rintro ⟨name, descriptor⟩ ⟨_, _⟩ ⟨rfl, rfl⟩
    refine (className hp owner).bind ?_
    rintro s _ rfl
    exact .ok rfl
  | utf8 bytes =>
    obtain ⟨s, rfl⟩ := hc
    rw [constant_encode]
    exact .error rfl
  | _ => exact .error rfl

theorem callSite (i : UInt16) :
    Agree (r.text · = ·) (p.callSite i) ((r.pool p).callSite i) := by
  refine (lookup hp i).bind ?_
  rintro c _ ⟨hc, rfl⟩
  cases c with
  | invokeDynamic bootstrap nat =>
    refine (nameAndType hp nat).bind ?_
    rintro ⟨name, descriptor⟩ ⟨_, _⟩ ⟨rfl, rfl⟩
    exact .ok rfl
  | utf8 bytes =>
    obtain ⟨s, rfl⟩ := hc
    rw [constant_encode]
    exact .error rfl
  | _ => exact .error rfl

/-! ### Asking for constants -/

/-- A canonical constant and the renamed one have the same first index. -/
theorem indexOf?_pool {c : Constant} (hc : c.IsCanonical) :
    (r.pool p).indexOf? (r.constant c) = p.indexOf? c := by
  have hslots : (r.pool p).slots.toList = p.slots.toList.map (Option.map r.constant) :=
    Array.toList_map
  rw [ConstantPool.indexOf?_eq, ConstantPool.indexOf?_eq, hslots, List.findIdx?_map]
  congr 1
  refine findIdx?_congr fun slot hslot => ?_
  rw [Bool.eq_iff_iff, Function.comp_apply, beq_iff_eq, beq_iff_eq]
  cases slot with
  | none => simp
  | some d =>
    rw [Option.map_some, Option.some.injEq, Option.some.injEq]
    constructor
    · exact r.constant_inj (hp d hslot) hc
    · rintro rfl
      rfl

omit hp

open Step

/-- A canonical constant is found or appended where the renamed one is. -/
theorem intern {c : Constant} (hc : c.IsCanonical) :
    Alike r.Pools Eq (ConstantPool.intern c) (ConstantPool.intern (r.constant c)) := by
  rintro p _ ⟨hp, rfl⟩
  rw [ConstantPool.intern_eq, ConstantPool.intern_eq, indexOf?_pool hp hc]
  cases p.indexOf? c with
  | some i => exact .ok rfl ⟨hp, rfl⟩
  | none =>
    have hcount : (r.pool p).count = p.count := Array.size_map
    have hslots : ConstantPool.slotsFor (r.constant c) = ConstantPool.slotsFor c := by
      rw [ConstantPool.slotsFor, ConstantPool.slotsFor, Constant.wide, Constant.wide, kind_constant]
    show Matched _ _ (ConstantPool.push c p) (ConstantPool.push (r.constant c) (r.pool p))
    rw [ConstantPool.push, ConstantPool.push, hcount, hslots]
    split
    · exact .ok rfl ⟨ConstantPool.isCanonical_append hp hc, pool_append r p c⟩
    · exact .error rfl

theorem utf8Index (s : String) :
    Alike r.Pools Eq (ConstantPool.utf8Index s) (ConstantPool.utf8Index (r.text s)) := by
  have halike := intern (r := r) (c := .utf8 (ModifiedUtf8.encode s)) ⟨s, rfl⟩
  rwa [constant_encode] at halike

theorem classIndex (name : String) :
    Alike r.Pools Eq (ConstantPool.classIndex name) (ConstantPool.classIndex (r.text name)) :=
  (utf8Index name).bind_eq fun n => intern (c := .classRef n) trivial

theorem nameAndTypeIndex (name descriptor : String) :
    Alike r.Pools Eq (ConstantPool.nameAndTypeIndex name descriptor)
      (ConstantPool.nameAndTypeIndex (r.text name) (r.text descriptor)) :=
  (utf8Index name).bind_eq fun n => (utf8Index descriptor).bind_eq fun d =>
    intern (c := .nameAndType n d) trivial

theorem fieldIndex (owner name descriptor : String) :
    Alike r.Pools Eq (ConstantPool.fieldIndex owner name descriptor)
      (ConstantPool.fieldIndex (r.text owner) (r.text name) (r.text descriptor)) :=
  (classIndex owner).bind_eq fun o => (nameAndTypeIndex name descriptor).bind_eq fun n =>
    intern (c := .fieldRef o n) trivial

theorem methodIndex (owner name descriptor : String) :
    Alike r.Pools Eq (ConstantPool.methodIndex owner name descriptor)
      (ConstantPool.methodIndex (r.text owner) (r.text name) (r.text descriptor)) :=
  (classIndex owner).bind_eq fun o => (nameAndTypeIndex name descriptor).bind_eq fun n =>
    intern (c := .methodRef o n) trivial

theorem fieldMember (owner name descriptor : String) :
    Alike r.Pools (r.member · = ·) (ClassGraft.fieldMember owner name descriptor)
      (ClassGraft.fieldMember (r.text owner) (r.text name) (r.text descriptor)) :=
  (fieldIndex owner name descriptor).bind_eq fun _ => .pure rfl

theorem methodMember (owner name descriptor : String) :
    Alike r.Pools (r.member · = ·) (ClassGraft.methodMember owner name descriptor)
      (ClassGraft.methodMember (r.text owner) (r.text name) (r.text descriptor)) :=
  (methodIndex owner name descriptor).bind_eq fun _ => .pure rfl

end Renaming

end ClassGraft
