/-
What the indices of a class stand for.

Reading looks up the class, the class above, the names and descriptors of members and the names of
the attributes of methods and bodies, and it checks the constants against each other
(`ClassFile.ReadReferences`).  Other indices are kept as they stand: those of interfaces, of caught
types, of the descriptors of variables, of the names of the attributes of classes and fields, and of
the members that method handles refer to (`ClassFile.KeptReferences`).  The references of a class
that is read are sound exactly if the kept ones are (`ClassFile.references_of_ofBytes`).
-/
import ClassGraft.Proofs.PoolGrowth
import ClassGraft.Proofs.WholeClass

namespace ClassGraft

/-! ### Kinds of constants -/

namespace ConstantPool

/-- Whether the constant behind an index is of a kind. -/
def IsKind (pool : ConstantPool) (kind : ConstantKind) (index : UInt16) : Prop :=
  (pool.lookup? index).map Constant.kind = some kind

instance (pool : ConstantPool) (kind : ConstantKind) (index : UInt16) :
    Decidable (pool.IsKind kind index) :=
  inferInstanceAs (Decidable (_ = _))

variable {pool : ConstantPool} {i : UInt16}

theorem isKind_iff {kind : ConstantKind} :
    pool.IsKind kind i ↔ ∃ found, pool.lookup? i = some found ∧ found.kind = kind :=
  Option.map_eq_some_iff

theorem isKind_of_utf8 {text : String} (h : pool.utf8 i = .ok text) : pool.IsKind .utf8 i := by
  obtain ⟨bytes, hlookup, -⟩ := utf8_eq_ok_iff.mp h
  exact isKind_iff.mpr ⟨_, hlookup, rfl⟩

theorem isKind_of_className {name : String} (h : pool.className i = .ok name) :
    pool.IsKind .classRef i := by
  obtain ⟨n, hlookup, -⟩ := className_eq_ok_iff.mp h
  exact isKind_iff.mpr ⟨_, hlookup, rfl⟩

end ConstantPool

namespace Constant

/-- Whether the indices in a constant stand for constants of the kinds that its own kind calls for.
What a method handle refers to has to exist. -/
def Refers (pool : ConstantPool) : Constant → Prop
  | .utf8 _ | .integer _ | .float _ | .long _ | .double _ => True
  | .classRef name | .module name | .package name => pool.IsKind .utf8 name
  | .string text => pool.IsKind .utf8 text
  | .methodType descriptor => pool.IsKind .utf8 descriptor
  | .nameAndType name descriptor => pool.IsKind .utf8 name ∧ pool.IsKind .utf8 descriptor
  | .fieldRef owner nat | .methodRef owner nat | .interfaceMethodRef owner nat =>
    pool.IsKind .classRef owner ∧ pool.IsKind .nameAndType nat
  | .dynamic _ nat | .invokeDynamic _ nat => pool.IsKind .nameAndType nat
  | .methodHandle kind target => (1 ≤ kind ∧ kind ≤ 9) ∧ ∃ found, pool.lookup? target = some found

/-- Whether a method handle refers to a member of the sort that it handles: the first four kinds
read and write fields, the others call methods. -/
def HandlesMember (pool : ConstantPool) : Constant → Prop
  | .methodHandle kind target =>
    (kind ≤ 4 → pool.IsKind .fieldRef target) ∧
      (5 ≤ kind → pool.IsKind .methodRef target ∨ pool.IsKind .interfaceMethodRef target)
  | _ => True

instance (pool : ConstantPool) : DecidablePred (HandlesMember pool)
  | .methodHandle _ _ => inferInstanceAs (Decidable ((_ → _) ∧ (_ → _ ∨ _)))
  | .utf8 _ | .integer _ | .float _ | .long _ | .double _ | .classRef _ | .string _ | .fieldRef _ _
  | .methodRef _ _ | .interfaceMethodRef _ _ | .nameAndType _ _ | .methodType _ | .dynamic _ _
  | .invokeDynamic _ _ | .module _ | .package _ => .isTrue trivial

/-- The check of a pool looks at all references within it. -/
theorem refers_iff_sound {pool : ConstantPool} {c : Constant} : c.Refers pool ↔ pool.Sound c := by
  cases c with
  | methodHandle kind target => rfl
  | _ => simp [Refers, ConstantPool.Sound, references, ConstantPool.isKind_iff]

end Constant

/-! ### References of a class -/

/-- The index of the name of an attribute. -/
def MethodAttribute.nameIndex : MethodAttribute → UInt16
  | .code nameIndex _ => nameIndex
  | .other raw => raw.nameIndex

namespace CodeAttribute

/-- The index of the name of an attribute. -/
def nameIndex : CodeAttribute → UInt16
  | .lineNumbers nameIndex _ | .localVariables nameIndex _ | .localVariableTypes nameIndex _
  | .stackMap nameIndex _ => nameIndex
  | .other raw => raw.nameIndex

theorem isKind_nameIndex {pool : ConstantPool} {a : CodeAttribute} (h : a.Proper pool) :
    pool.IsKind .utf8 a.nameIndex := by
  cases a with
  | other raw =>
    obtain ⟨name, hname, -⟩ := h
    exact ConstantPool.isKind_of_utf8 hname
  | _ => exact ConstantPool.isKind_of_utf8 h.1

end CodeAttribute

theorem MethodAttribute.isKind_nameIndex [Build] {pool : ConstantPool} {a : MethodAttribute}
    (h : a.Proper pool) : pool.IsKind .utf8 a.nameIndex := by
  cases a with
  | code => exact ConstantPool.isKind_of_utf8 h.1
  | other raw =>
    obtain ⟨name, hname, -⟩ := h
    exact ConstantPool.isKind_of_utf8 hname

namespace ClassFile

/-- All method bodies of a class. -/
def bodies (c : ClassFile) : List Code :=
  c.methods.flatMap fun method => method.attributes.filterMap MethodAttribute.code?

/-- The references that are looked up when a class is read. -/
structure ReadReferences (c : ClassFile) : Prop where
  thisClass : c.pool.IsKind .classRef c.thisClass
  superClass : c.superClass = 0 ∨ c.pool.IsKind .classRef c.superClass
  fields : ∀ field ∈ c.fields,
    c.pool.IsKind .utf8 field.nameIndex ∧ c.pool.IsKind .utf8 field.descriptorIndex
  methods : ∀ method ∈ c.methods,
    c.pool.IsKind .utf8 method.nameIndex ∧ c.pool.IsKind .utf8 method.descriptorIndex
  methodAttributes : ∀ method ∈ c.methods, ∀ a ∈ method.attributes,
    c.pool.IsKind .utf8 a.nameIndex
  codeAttributes : ∀ body ∈ c.bodies, ∀ a ∈ body.attributes, c.pool.IsKind .utf8 a.nameIndex
  constants : ∀ entry ∈ c.pool.toList, entry.2.Refers c.pool

/-- The references that are kept as they stand are right. -/
structure KeptReferences (c : ClassFile) : Prop where
  interfaces : ∀ index ∈ c.interfaces, c.pool.IsKind .classRef index
  classAttributes : ∀ raw ∈ c.attributes, c.pool.IsKind .utf8 raw.nameIndex
  fieldAttributes : ∀ field ∈ c.fields, ∀ raw ∈ field.attributes,
    c.pool.IsKind .utf8 raw.nameIndex
  caughtTypes : ∀ body ∈ c.bodies, ∀ handler ∈ body.handlers,
    handler.catchType = 0 ∨ c.pool.IsKind .classRef handler.catchType
  scopes : ∀ body ∈ c.bodies, ∀ a ∈ body.attributes, ∀ entry ∈ a.scopes,
    c.pool.IsKind .utf8 entry.descriptorIndex
  methodHandles : ∀ entry ∈ c.pool.toList, entry.2.HandlesMember c.pool

/-- Every index of a class stands for a constant of the kind that the format prescribes. -/
structure SoundReferences (c : ClassFile) : Prop extends ReadReferences c, KeptReferences c

theorem Proper.readReferences [Build] {c : ClassFile} (h : c.Proper) : c.ReadReferences where
  thisClass := by
    obtain ⟨name, hname⟩ := h.thisClass
    exact ConstantPool.isKind_of_className hname
  superClass := by
    rcases h.superClass with hzero | ⟨name, hname⟩
    · exact .inl hzero
    · exact .inr (ConstantPool.isKind_of_className hname)
  fields := fun field hfield =>
    ⟨ConstantPool.isKind_of_utf8 (h.fields field hfield).name,
      ConstantPool.isKind_of_utf8 (h.fields field hfield).descriptor⟩
  methods := fun method hmethod =>
    ⟨ConstantPool.isKind_of_utf8 (h.methods method hmethod).name,
      ConstantPool.isKind_of_utf8 (h.methods method hmethod).descriptor⟩
  methodAttributes := fun method hmethod a ha =>
    MethodAttribute.isKind_nameIndex ((h.methods method hmethod).attributes a ha)
  codeAttributes := by
    intro body hbody a ha
    obtain ⟨method, hmethod, hbody⟩ := List.mem_flatMap.mp hbody
    obtain ⟨holder, hholder, hbody⟩ := List.mem_filterMap.mp hbody
    have hproper := (h.methods method hmethod).attributes holder hholder
    cases holder with
    | code nameIndex code =>
      obtain rfl := Option.some.inj hbody
      exact CodeAttribute.isKind_nameIndex (hproper.2.attributes a ha)
    | other => exact absurd hbody (by simp [MethodAttribute.code?])
  constants := by
    rintro ⟨n, c⟩ hentry
    rw [Constant.refers_iff_sound]
    exact ConstantPool.validate_eq_ok_iff.mp h.pool.valid c
      (List.mem_of_getElem? (ConstantPool.mem_toList_iff.mp hentry))

/-- In a class that is read, the references that reading looks up are sound, so that all of them are
if those are that it keeps as they stand. -/
theorem references_of_ofBytes [Build] {c : ClassFile} {bytes : Bytes} (h : ofBytes bytes = .ok c) :
    c.ReadReferences ∧ (c.SoundReferences ↔ c.KeptReferences) := by
  have hread := (proper_of_ofBytes h).1.readReferences
  exact ⟨hread, fun hsound => hsound.toKeptReferences, fun hkept => ⟨hread, hkept⟩⟩

/-- A class whose interface and caught type are at `ofClass`, whose attributes have the name and
whose variable has the descriptor at `ofText`, and whose method handle refers to `ofMember`. -/
def referringBytes (ofClass ofText ofMember : UInt8) : Bytes :=
  [202, 254, 186, 190, 0, 0, 0, 52, 0, 9, 1, 0, 1, 65, 7, 0, 1, 1, 0, 4, 67, 111, 100, 101, 1, 0, 3,
    40, 41, 86, 12, 0, 1, 0, 4, 10, 0, 2, 0, 5, 15, 6, 0, ofMember, 1, 0, 18, 76, 111, 99, 97, 108,
    86, 97, 114, 105, 97, 98, 108, 101, 84, 97, 98, 108, 101, 0, 33, 0, 2, 0, 0, 0, 1, 0, ofClass,
    0, 1, 0, 0, 0, 1, 0, 4, 0, 1, 0, ofText, 0, 0, 0, 0, 0, 1, 0, 8, 0, 1, 0, 4, 0, 1, 0, 3, 0, 0,
    0, 39, 0, 1, 0, 1, 0, 0, 0, 1, 177, 0, 1, 0, 0, 0, 1, 0, 0, 0, ofClass, 0, 1, 0, 8, 0, 0, 0, 12,
    0, 1, 0, 0, 0, 1, 0, 1, 0, ofText, 0, 0, 0, 1, 0, ofText, 0, 0, 0, 0]

/-- The class that `referringBytes` hold. -/
def referringClass (ofClass ofText ofMember : UInt16) : ClassFile where
  minor := 0
  major := 52
  pool := ⟨#[none, some (.utf8 [65]), some (.classRef 1), some (.utf8 [67, 111, 100, 101]),
    some (.utf8 [40, 41, 86]), some (.nameAndType 1 4), some (.methodRef 2 5),
    some (.methodHandle 6 ofMember), some (.utf8 [76, 111, 99, 97, 108, 86, 97, 114, 105, 97, 98,
      108, 101, 84, 97, 98, 108, 101])]⟩
  access := 33
  thisClass := 2
  superClass := 0
  interfaces := [ofClass]
  fields := [⟨0, 1, 4, "A", "()V", [⟨ofText, []⟩]⟩]
  methods := [⟨8, 1, 4, "A", "()V", [.code 3
    { maxStack := 1
      maxLocals := 1
      instructions := [.exit none]
      handlers := [⟨0, 1, 0, ofClass⟩]
      attributes := [.localVariables 8 [⟨0, 1, 1, ofText, 0⟩]] }]⟩]
  attributes := [⟨ofText, []⟩]

attribute [local instance] Build.checked

theorem references_referringClass :
    ofBytes (referringBytes 2 1 6) = .ok (referringClass 2 1 6) ∧
      (referringClass 2 1 6).ReadReferences ∧ (referringClass 2 1 6).SoundReferences := by
  have h : ofBytes (referringBytes 2 1 6) = .ok (referringClass 2 1 6) := by decide +kernel
  have hkept : (referringClass 2 1 6).KeptReferences :=
    ⟨List.forall_mem_singleton.mpr (by decide +kernel), by decide +kernel, by decide +kernel,
      by decide +kernel, by decide +kernel, by decide +kernel⟩
  obtain ⟨hread, hsound⟩ := references_of_ofBytes h
  exact ⟨h, hread, hsound.mpr hkept⟩

/-- The same class is read with constants of other kinds at each of these places. -/
theorem unsound_referringClass :
    ofBytes (referringBytes 1 2 1) = .ok (referringClass 1 2 1) ∧
      ¬(referringClass 1 2 1).pool.IsKind .classRef 1 ∧
      ¬(referringClass 1 2 1).pool.IsKind .utf8 2 ∧
      ¬(Constant.methodHandle 6 1).HandlesMember (referringClass 1 2 1).pool ∧
      ¬(referringClass 1 2 1).SoundReferences := by
  have hclass : ¬(referringClass 1 2 1).pool.IsKind .classRef 1 := by decide +kernel
  refine ⟨by decide +kernel, hclass, by decide +kernel, by decide +kernel, fun h => ?_⟩
  exact hclass (h.interfaces 1 List.mem_cons_self)

end ClassFile

end ClassGraft
