/-
Class files as bytes.

`ClassFile.ofBytes_eq_ok_iff` and `ClassFile.toBytes_eq_ok_iff` put reading and writing in terms of
the same parts.  A class that reading gives is proper (`ClassFile.Proper`), and what is written for
a proper class is read as the class again, its frames in the forms in which they are written
(`ClassFile.ofBytes_of_toBytes`).  The code arrays that stand in the bytes of a class are
`ClassFile.codeArrays`.
-/
import ClassGraft.ClassFile.Writer
import ClassGraft.Proofs.Constants
import ClassGraft.Proofs.MethodBody

namespace ClassGraft

open Reader

variable {pool : ConstantPool}

/-! ### Fields -/

/-- A field as reading gives it. -/
structure Field.Proper (pool : ConstantPool) (field : Field) : Prop where
  name : pool.utf8 field.nameIndex = .ok field.name
  descriptor : pool.utf8 field.descriptorIndex = .ok field.descriptor
  attributes_lt : field.attributes.length < 65536

/-- A proper field is read from exactly the bytes that it is written as, and no other is read. -/
theorem Field.takes_read : (Field.read pool).Takes fun field b =>
    field.Proper pool ∧ field.write = .ok b := by
  intro c field c'
  simp only [Field.read, Field.write, bind_eq_ok_iff, Bytes.bind_eq_ok_iff, u16_eq_ok_iff,
    ofExcept_eq_ok_iff, RawAttribute.takes_read.table _ _ _, pure_eq_ok_iff,
    Bytes.table_iff_ofTableM]
  constructor
  · rintro ⟨access, m₁, hb₁, nameIndex, m₂, hb₂, descriptorIndex, m₃, hb₃, name, _, ⟨hname, rfl⟩,
      descriptor, _, ⟨hdescriptor, rfl⟩, attributes, _, ⟨b₄, ⟨hlt, hattributes⟩, hb₄⟩, rfl, rfl⟩
    exact ⟨_, ⟨⟨hname, hdescriptor, hlt⟩, b₄, hattributes, rfl⟩,
      ((hb₁.append hb₂).append hb₃).append hb₄⟩
  · rintro ⟨b, ⟨⟨hname, hdescriptor, hlt⟩, b₄, hattributes, hb⟩, hadv⟩
    rw [← Except.ok.inj hb] at hadv
    obtain ⟨m₃, hadv, hb₄⟩ := Cursor.advances_append.mp hadv
    obtain ⟨m₂, hadv, hb₃⟩ := Cursor.advances_append.mp hadv
    obtain ⟨m₁, hb₁, hb₂⟩ := Cursor.advances_append.mp hadv
    exact ⟨_, m₁, hb₁, _, m₂, hb₂, _, m₃, hb₃, _, m₃, ⟨hname, rfl⟩, _, m₃, ⟨hdescriptor, rfl⟩, _,
      c', ⟨b₄, ⟨hlt, hattributes⟩, hb₄⟩, rfl, rfl⟩

/-! ### Methods -/

namespace MethodAttribute

/-- An attribute as reading gives it. -/
def Proper [Build] (pool : ConstantPool) : MethodAttribute → Prop
  | .code nameIndex body => pool.utf8 nameIndex = .ok "Code" ∧ body.Proper pool
  | .other raw => ∃ name, pool.utf8 raw.nameIndex = .ok name ∧ name ≠ "Code"

/-- The attribute with the frames of a body in the forms in which they are written. -/
def widened : MethodAttribute → MethodAttribute
  | .code nameIndex body => .code nameIndex body.widened
  | .other raw => .other raw

/-- Whether the contents of an attribute are those of `a`. -/
def IsIn [Build] (pool : ConstantPool) (a : MethodAttribute) (raw : RawAttribute) : Prop :=
  match a with
  | .code nameIndex body => pool.utf8 nameIndex = .ok "Code" ∧ raw.nameIndex = nameIndex ∧
      Code.parse pool raw.info = .ok body
  | .other raw' => (∃ name, pool.utf8 raw.nameIndex = .ok name ∧ name ≠ "Code") ∧ raw' = raw

theorem takes_read [Build] : (MethodAttribute.read pool).Takes fun a b =>
    ∃ raw : RawAttribute, a.IsIn pool raw ∧ raw.write = .ok b := by
  intro c a c'
  simp only [MethodAttribute.read, bind_eq_ok_iff, RawAttribute.takes_read _ _ _,
    ofExcept_eq_ok_iff]
  constructor
  · rintro ⟨raw, m, ⟨b, hraw, hb⟩, name, _, ⟨hname, rfl⟩, h⟩
    by_cases hcode : name = "Code"
    · rw [if_pos hcode] at h
      simp only [bind_eq_ok_iff, ofExcept_eq_ok_iff, pure_eq_ok_iff] at h
      obtain ⟨body, _, ⟨hbody, rfl⟩, rfl, rfl⟩ := h
      exact ⟨b, ⟨raw, ⟨hcode ▸ hname, rfl, hbody⟩, hraw⟩, hb⟩
    · rw [if_neg hcode] at h
      obtain ⟨rfl, rfl⟩ := pure_eq_ok_iff.mp h
      exact ⟨b, ⟨raw, ⟨⟨name, hname, hcode⟩, rfl⟩, hraw⟩, hb⟩
  · rintro ⟨b, ⟨raw, ha, hraw⟩, hb⟩
    cases a with
    | code nameIndex body =>
      obtain ⟨hname, rfl, hbody⟩ := ha
      refine ⟨raw, c', ⟨b, hraw, hb⟩, _, c', ⟨hname, rfl⟩, ?_⟩
      rw [if_pos rfl]
      simp only [bind_eq_ok_iff, ofExcept_eq_ok_iff, pure_eq_ok_iff]
      exact ⟨body, c', ⟨hbody, rfl⟩, rfl, rfl⟩
    | other raw' =>
      obtain ⟨⟨name, hname, hcode⟩, rfl⟩ := ha
      refine ⟨raw', c', ⟨b, hraw, hb⟩, name, c', ⟨hname, rfl⟩, ?_⟩
      rw [if_neg hcode]
      exact pure_eq_ok_iff.mpr ⟨rfl, rfl⟩

theorem proper_of_isIn [Build] {a : MethodAttribute} {raw : RawAttribute} (h : a.IsIn pool raw) :
    a.Proper pool ∧ a.widened = a := by
  cases a with
  | code nameIndex body =>
    obtain ⟨hname, -, hbody⟩ := h
    obtain ⟨hproper, hwidened⟩ := Code.proper_of_parse hbody
    exact ⟨⟨hname, hproper⟩, by rw [widened, hwidened]⟩
  | other raw' =>
    obtain ⟨hname, rfl⟩ := h
    exact ⟨hname, rfl⟩

end MethodAttribute

/-- The code array in an attribute, if it is one that holds a body. -/
def RawAttribute.codeArray? (pool : ConstantPool) (raw : RawAttribute) : Option Bytes :=
  if pool.utf8 raw.nameIndex = .ok "Code" then some (Code.arrayOf raw.info) else none

/-- Whether a code array can be written as it was read: it is short enough, and the padding of its
switches is zero. -/
def Code.Rewritable [Build] (pool : ConstantPool) (array : Bytes) : Prop :=
  array.length ≤ 65535 ∧ Decoded.ZeroPadded pool array

namespace MethodAttribute

/-- An attribute whose code array can be written as it was read is. -/
theorem write_of_isIn [Build] {a : MethodAttribute} {raw : RawAttribute} (h : a.IsIn pool raw)
    (hraw : ∀ array ∈ raw.codeArray? pool, Code.Rewritable pool array) (method : String) :
    a.write method = raw.write := by
  cases a with
  | code nameIndex body =>
    obtain ⟨hname, rfl, hbody⟩ := h
    obtain ⟨hlen, hzero⟩ := hraw (Code.arrayOf raw.info) (if_pos hname)
    rw [write, Code.write_of_parse hbody hlen hzero method]
    rfl
  | other raw' =>
    obtain ⟨-, rfl⟩ := h
    rfl

/-- What is written for a proper attribute is the attribute again. -/
theorem isIn_of_write [Build] {a : MethodAttribute} (h : a.Proper pool) {method : String}
    {b : Bytes} (hb : a.write method = .ok b) :
    ∃ raw : RawAttribute, a.widened.IsIn pool raw ∧ raw.write = .ok b := by
  cases a with
  | code nameIndex body =>
    rw [write, Bytes.bind_eq_ok_iff] at hb
    obtain ⟨info, hinfo, hraw⟩ := hb
    exact ⟨⟨nameIndex, info⟩, ⟨h.1, rfl, Code.parse_of_write h.2 hinfo⟩, hraw⟩
  | other raw => exact ⟨raw, ⟨h, rfl⟩, hb⟩

end MethodAttribute

/-! ### Members as bytes -/

/-- A member of a class whose attributes are kept as bytes: flags, name and descriptor, and the
attributes. -/
abbrev RawMember := Bytes × List RawAttribute

namespace RawMember

def read : Reader RawMember := do
  let head ← Reader.bytes 6
  return (head, ← Reader.table RawAttribute.read)

/-- The bytes of a member. -/
def Form (raw : RawMember) (bytes : Bytes) : Prop :=
  raw.1.length = 6 ∧ ∃ items : Bytes,
    Bytes.Table (fun raw b => RawAttribute.write raw = .ok b) raw.2 items ∧ bytes = raw.1 ++ items

theorem takes_read : RawMember.read.Takes Form := by
  rintro c ⟨head, raws⟩ c'
  simp only [RawMember.read, Form, bind_eq_ok_iff, bytes_eq_ok_iff,
    RawAttribute.takes_read.table _ _ _, pure_eq_ok_iff, Prod.mk.injEq]
  constructor
  · rintro ⟨head, m, ⟨hlen, hhead⟩, raws, _, ⟨items, hraws, hitems⟩, ⟨rfl, rfl⟩, rfl⟩
    exact ⟨_, ⟨hlen, items, hraws, rfl⟩, hhead.append hitems⟩
  · rintro ⟨_, ⟨hlen, items, hraws, rfl⟩, h⟩
    obtain ⟨m, hhead, hitems⟩ := Cursor.advances_append.mp h
    exact ⟨head, m, ⟨hlen, hhead⟩, raws, c', ⟨items, hraws, hitems⟩, ⟨rfl, rfl⟩, rfl⟩

end RawMember

/-- A field is a member. -/
theorem Field.form_of_write {field : Field} (hlt : field.attributes.length < 65536) {b : Bytes}
    (h : field.write = .ok b) : ∃ raw : RawMember, True ∧ raw.Form b := by
  rw [Field.write, Bytes.bind_eq_ok_iff] at h
  obtain ⟨items, hitems, hb⟩ := h
  refine ⟨(Bytes.ofU16 field.access ++ Bytes.ofU16 field.nameIndex ++
    Bytes.ofU16 field.descriptorIndex, field.attributes), trivial, rfl, items, ?_,
    (Except.ok.inj hb).symm⟩
  exact Bytes.table_iff_ofTableM.mpr ⟨hlt, hitems⟩

namespace Method

/-- A method as reading gives it. -/
structure Proper [Build] (pool : ConstantPool) (method : Method) : Prop where
  name : pool.utf8 method.nameIndex = .ok method.name
  descriptor : pool.utf8 method.descriptorIndex = .ok method.descriptor
  attributes_lt : method.attributes.length < 65536
  attributes : ∀ a ∈ method.attributes, a.Proper pool

/-- The method with the frames of its bodies in the forms in which they are written. -/
def widened (method : Method) : Method :=
  { method with attributes := method.attributes.map MethodAttribute.widened }

/-- Flags, name and descriptor as bytes. -/
def head (method : Method) : Bytes :=
  Bytes.ofU16 method.access ++ Bytes.ofU16 method.nameIndex ++ Bytes.ofU16 method.descriptorIndex

theorem length_head (method : Method) : method.head.length = 6 := rfl

/-- Whether a member is that method. -/
structure IsIn [Build] (pool : ConstantPool) (method : Method) (raw : RawMember) : Prop where
  name : pool.utf8 method.nameIndex = .ok method.name
  descriptor : pool.utf8 method.descriptorIndex = .ok method.descriptor
  head : raw.1 = method.head
  attributes : List.Forall₂ (MethodAttribute.IsIn pool) method.attributes raw.2

/-- A method is read from exactly the bytes of a member that it is. -/
theorem takes_read [Build] : (Method.read pool).Takes fun method b =>
    ∃ raw : RawMember, method.IsIn pool raw ∧ raw.Form b := by
  intro c method c'
  simp only [Method.read, bind_eq_ok_iff, u16_eq_ok_iff, MethodAttribute.takes_read.table _ _ _,
    Bytes.table_exists_iff, ofExcept_eq_ok_iff, pure_eq_ok_iff]
  constructor
  · rintro ⟨access, m₁, hb₁, nameIndex, m₂, hb₂, descriptorIndex, m₃, hb₃, attributes, m₄,
      ⟨items, ⟨raws, hattributes, hraws⟩, hb₄⟩, name, _, ⟨hname, rfl⟩, descriptor, _,
      ⟨hdescriptor, rfl⟩, rfl, rfl⟩
    exact ⟨_, ⟨(_, raws), ⟨hname, hdescriptor, rfl, hattributes⟩, length_head _, items, hraws, rfl⟩,
      ((hb₁.append hb₂).append hb₃).append hb₄⟩
  · rintro ⟨_, ⟨⟨head, raws⟩, ⟨hname, hdescriptor, rfl, hattributes⟩, -, items, hraws, rfl⟩, hadv⟩
    obtain ⟨m₃, hadv, hb₄⟩ := Cursor.advances_append.mp hadv
    obtain ⟨m₂, hadv, hb₃⟩ := Cursor.advances_append.mp hadv
    obtain ⟨m₁, hb₁, hb₂⟩ := Cursor.advances_append.mp hadv
    exact ⟨_, m₁, hb₁, _, m₂, hb₂, _, m₃, hb₃, _, c', ⟨items, ⟨raws, hattributes, hraws⟩, hb₄⟩, _,
      c', ⟨hname, rfl⟩, _, c', ⟨hdescriptor, rfl⟩, rfl, rfl⟩

theorem write_eq_ok_iff [Build] {method : Method} {b : Bytes} :
    method.write = .ok b ↔ ∃ items : Bytes,
      Bytes.ofTableM (MethodAttribute.write method.name) method.attributes = .ok items ∧
        b = method.head ++ items := by
  rw [write]
  exact Bytes.bind_pure_eq_ok_iff

theorem proper_of_isIn [Build] {method : Method} {raw : RawMember} {b : Bytes}
    (h : method.IsIn pool raw)
    (hb : raw.Form b) : method.Proper pool ∧ method.widened = method := by
  obtain ⟨-, items, hitems, -⟩ := hb
  have htable : Bytes.Table (fun a b => (a.Proper pool ∧ a.widened = a) ∧
      ∃ raw : RawAttribute, a.IsIn pool raw ∧ raw.write = .ok b) method.attributes items := by
    refine (Bytes.table_exists_iff.mpr ⟨raw.2, h.attributes, hitems⟩).mono ?_
    rintro a - b ⟨raw', hin, hwrite⟩
    exact ⟨MethodAttribute.proper_of_isIn hin, raw', hin, hwrite⟩
  obtain ⟨hattribute, hlt, -⟩ := Bytes.table_and_iff.mp htable
  refine ⟨⟨h.name, h.descriptor, hlt, fun a ha => (hattribute a ha).1⟩, ?_⟩
  rw [widened, List.map_congr_left fun a ha => (hattribute a ha).2, List.map_id']

/-- A method whose code arrays can be written as they were read is written as it was read. -/
theorem write_of_isIn [Build] {method : Method} {raw : RawMember} {b : Bytes}
    (h : method.IsIn pool raw)
    (hraw : ∀ a ∈ raw.2, ∀ array ∈ a.codeArray? pool, Code.Rewritable pool array)
    (hb : raw.Form b) : method.write = .ok b := by
  obtain ⟨-, items, hitems, rfl⟩ := hb
  have htable := Bytes.table_exists_iff.mpr
    ⟨raw.2, h.attributes, Bytes.table_and_iff.mpr ⟨hraw, hitems⟩⟩
  rw [write_eq_ok_iff, h.head]
  refine ⟨items, (Bytes.table_iff_ofTableM.mp (htable.mono ?_)).2, rfl⟩
  rintro a - b ⟨raw', hin, harray, hwrite⟩
  rwa [MethodAttribute.write_of_isIn hin harray]

/-- What is written for a proper method is the method again. -/
theorem isIn_of_write [Build] {method : Method} (h : method.Proper pool) {b : Bytes}
    (hb : method.write = .ok b) : ∃ raw : RawMember, method.widened.IsIn pool raw ∧ raw.Form b := by
  obtain ⟨items, hitems, rfl⟩ := write_eq_ok_iff.mp hb
  have htable := (Bytes.table_iff_ofTableM.mpr ⟨h.attributes_lt, hitems⟩).mono
    fun a ha b hab => MethodAttribute.isIn_of_write (h.attributes a ha) hab
  rw [Bytes.table_exists_iff] at htable
  obtain ⟨raws, hraws, htable⟩ := htable
  refine ⟨(method.head, raws), ⟨h.name, h.descriptor, rfl, ?_⟩, length_head method, items, htable,
    rfl⟩
  exact List.forall₂_map_left_iff.mpr hraws

end Method

/-! ### Classes -/

namespace ClassFile

/-- A class as reading gives it. -/
structure Proper [Build] (c : ClassFile) : Prop where
  pool : c.pool.Proper
  thisClass : ∃ name, c.pool.className c.thisClass = .ok name
  superClass : c.superClass = 0 ∨ ∃ name, c.pool.className c.superClass = .ok name
  interfaces_lt : c.interfaces.length < 65536
  fields_lt : c.fields.length < 65536
  fields : ∀ field ∈ c.fields, field.Proper c.pool
  methods_lt : c.methods.length < 65536
  methods : ∀ method ∈ c.methods, method.Proper c.pool
  attributes_lt : c.attributes.length < 65536

/-- The class with the frames of its methods in the forms in which they are written. -/
def widened (c : ClassFile) : ClassFile := { c with methods := c.methods.map Method.widened }

/-- A class as bytes, from its parts. -/
def assemble (c : ClassFile) (pool fields methods attributes : Bytes) : Bytes :=
  Bytes.ofU32 classMagic ++ (Bytes.ofU16 c.minor ++ (Bytes.ofU16 c.major ++ (pool ++
    (Bytes.ofU16 c.access ++ (Bytes.ofU16 c.thisClass ++ (Bytes.ofU16 c.superClass ++
      (Bytes.ofTable Bytes.ofU16 c.interfaces ++ (fields ++ (methods ++ attributes)))))))))

theorem toBytes_eq_ok_iff [Build] {c : ClassFile} {bytes : Bytes} :
    c.toBytes = .ok bytes ↔ ∃ pool fields methods attributes : Bytes,
      c.pool.write = .ok pool ∧ Bytes.ofTableM Field.write c.fields = .ok fields ∧
      Bytes.ofTableM Method.write c.methods = .ok methods ∧
      Bytes.ofTableM RawAttribute.write c.attributes = .ok attributes ∧
      bytes = c.assemble pool fields methods attributes := by
  simp only [toBytes, Bytes.bind_eq_ok_iff]
  constructor
  · rintro ⟨pool, hpool, fields, hfields, methods, hmethods, attributes, hattributes, hbytes⟩
    refine ⟨pool, fields, methods, attributes, hpool, hfields, hmethods, hattributes, ?_⟩
    rw [← Except.ok.inj hbytes, assemble]
    simp only [List.append_assoc]
  · rintro ⟨pool, fields, methods, attributes, hpool, hfields, hmethods, hattributes, rfl⟩
    refine ⟨pool, hpool, fields, hfields, methods, hmethods, attributes, hattributes, ?_⟩
    rw [assemble]
    simp only [List.append_assoc]
    rfl

theorem readClass_eq_ok_iff {pool : ConstantPool} {index : UInt16} {m m' : Cursor} :
    readClass pool m = .ok index m' ↔
      (∃ name, pool.className index = .ok name) ∧ m.Advances (Bytes.ofU16 index) m' := by
  simp only [readClass, bind_eq_ok_iff, u16_eq_ok_iff, ofExcept_eq_ok_iff, pure_eq_ok_iff]
  constructor
  · rintro ⟨_, _, hb, name, _, ⟨hname, rfl⟩, rfl, rfl⟩
    exact ⟨⟨name, hname⟩, hb⟩
  · rintro ⟨⟨name, hname⟩, hb⟩
    exact ⟨index, m', hb, name, m', ⟨hname, rfl⟩, rfl, rfl⟩

theorem readSuperClass_eq_ok_iff {pool : ConstantPool} {index : UInt16} {m m' : Cursor} :
    readSuperClass pool m = .ok index m' ↔
      (index = 0 ∨ ∃ name, pool.className index = .ok name) ∧
        m.Advances (Bytes.ofU16 index) m' := by
  simp only [readSuperClass, bind_eq_ok_iff, u16_eq_ok_iff]
  constructor
  · rintro ⟨v, m₁, hb, h⟩
    by_cases hv : v = 0
    · rw [if_neg (not_not.mpr hv)] at h
      obtain ⟨rfl, rfl⟩ := pure_eq_ok_iff.mp h
      exact ⟨.inl hv, hb⟩
    · rw [if_pos hv] at h
      simp only [bind_eq_ok_iff, ofExcept_eq_ok_iff, pure_eq_ok_iff] at h
      obtain ⟨name, _, ⟨hname, rfl⟩, rfl, rfl⟩ := h
      exact ⟨.inr ⟨name, hname⟩, hb⟩
  · rintro ⟨hname, hb⟩
    refine ⟨index, m', hb, ?_⟩
    by_cases hindex : index = 0
    · rw [if_neg (not_not.mpr hindex)]
      rfl
    · rw [if_pos hindex]
      obtain ⟨name, hname⟩ := hname.resolve_left hindex
      refine bind_eq_ok_iff.mpr ⟨name, m', ofExcept_eq_ok_iff.mpr ⟨hname, rfl⟩, rfl⟩

/-- The cursor moves over a class by moving over its parts. -/
theorem advances_assemble_iff {c : ClassFile} {pool fields methods attributes : Bytes}
    {m m' : Cursor} :
    m.Advances (c.assemble pool fields methods attributes) m' ↔
      ∃ m₁, m.Advances (Bytes.ofU32 classMagic) m₁ ∧ ∃ m₂, m₁.Advances (Bytes.ofU16 c.minor) m₂ ∧
      ∃ m₃, m₂.Advances (Bytes.ofU16 c.major) m₃ ∧ ∃ m₄, m₃.Advances pool m₄ ∧
      ∃ m₅, m₄.Advances (Bytes.ofU16 c.access) m₅ ∧
      ∃ m₆, m₅.Advances (Bytes.ofU16 c.thisClass) m₆ ∧
      ∃ m₇, m₆.Advances (Bytes.ofU16 c.superClass) m₇ ∧
      ∃ m₈, m₇.Advances (Bytes.ofTable Bytes.ofU16 c.interfaces) m₈ ∧
      ∃ m₉, m₈.Advances fields m₉ ∧ ∃ m₁₀, m₉.Advances methods m₁₀ ∧
        m₁₀.Advances attributes m' := by
  simp only [assemble, Cursor.advances_append]

/-- An empty file is turned down before anything is read. -/
theorem ofBytes_eq_ok_iff_read [Build] {c : ClassFile} {bytes : Bytes} :
    ofBytes bytes = .ok c ↔
      bytes ≠ [] ∧ ∃ c', ClassFile.read (Cursor.start bytes) = .ok c c' := by
  rw [ofBytes]
  cases bytes with
  | nil => simp
  | cons b rest =>
    rw [if_neg (by simp)]
    simp only [ne_eq, reduceCtorEq, not_false_eq_true, true_and, ← eval_eq_ok_iff]
    cases read.eval (b :: rest) <;> simp [Except.mapError]

/-- A class file is read as the class that its parts are read as. -/
theorem ofBytes_eq_ok_iff [Build] {c : ClassFile} {bytes : Bytes} :
    ofBytes bytes = .ok c ↔ ∃ pool fields methods attributes : Bytes,
      (c.pool.Proper ∧ c.pool.write = .ok pool) ∧
      (∃ name, c.pool.className c.thisClass = .ok name) ∧
      (c.superClass = 0 ∨ ∃ name, c.pool.className c.superClass = .ok name) ∧
      c.interfaces.length < 65536 ∧
      Bytes.Table (fun field b => Field.Proper c.pool field ∧ field.write = .ok b)
        c.fields fields ∧
      Bytes.Table (fun method b => ∃ raw : RawMember, Method.IsIn c.pool method raw ∧ raw.Form b)
        c.methods methods ∧
      Bytes.Table (fun raw b => RawAttribute.write raw = .ok b) c.attributes attributes ∧
      bytes = c.assemble pool fields methods attributes := by
  rw [ofBytes_eq_ok_iff_read]
  -- A check that fails yields no class, so each leaves what it asks for.
  simp only [ClassFile.read, bind_eq_ok_iff, ite_eq_ok_iff, malformed_eq_ok_iff, and_false,
    false_or, or_false, not_not, u32_eq_ok_iff, u16_eq_ok_iff, ConstantPool.takes_read _ _ _,
    readClass_eq_ok_iff, readSuperClass_eq_ok_iff, takes_u16.table _ _ _, Bytes.table_iff_ofTable,
    Field.takes_read.table _ _ _, Method.takes_read.table _ _ _,
    RawAttribute.takes_read.table _ _ _, remaining_eq_ok_iff, pure_eq_ok_iff]
  constructor
  · rintro ⟨-, c', magic, m₁, hb₁, hmagic, minor, m₂, hb₂, major, m₃, hb₃, pool, m₄,
      ⟨b₄, hpool, hb₄⟩, access, m₅, hb₅, thisClass, m₆, ⟨hthis, hb₆⟩, superClass, m₇,
      ⟨hsuper, hb₇⟩, interfaces, m₈, ⟨_, ⟨hinterfaces, rfl⟩, hb₈⟩, fields, m₉, ⟨b₉, hfields, hb₉⟩,
      methods, m₁₀, ⟨b₁₀, hmethods, hb₁₀⟩, attributes, m₁₁, ⟨b₁₁, hattributes, hb₁₁⟩, _, _,
      ⟨rfl, rfl⟩, hleft, rfl, rfl⟩
    refine ⟨b₄, b₉, b₁₀, b₁₁, hpool, hthis, hsuper, hinterfaces, hfields, hmethods, hattributes, ?_⟩
    have hadv := (advances_assemble_iff (c := ⟨minor, major, pool, access, thisClass, superClass,
      interfaces, fields, methods, attributes⟩)).mpr ⟨m₁, hmagic ▸ hb₁, m₂, hb₂, m₃, hb₃, m₄, hb₄,
        m₅, hb₅, m₆, hb₆, m₇, hb₇, m₈, hb₈, m₉, hb₉, m₁₀, hb₁₀, hb₁₁⟩
    obtain ⟨hbytes, -⟩ := Cursor.advances_start hadv
    rwa [List.eq_nil_of_length_eq_zero hleft, List.append_nil] at hbytes
  · rintro ⟨b₄, b₉, b₁₀, b₁₁, hpool, hthis, hsuper, hinterfaces, hfields, hmethods, hattributes,
      rfl⟩
    obtain ⟨c', hadv, hend⟩ := Cursor.exists_advances_start (c.assemble b₄ b₉ b₁₀ b₁₁)
    obtain ⟨m₁, hb₁, m₂, hb₂, m₃, hb₃, m₄, hb₄, m₅, hb₅, m₆, hb₆, m₇, hb₇, m₈, hb₈, m₉, hb₉, m₁₀,
      hb₁₀, hb₁₁⟩ := advances_assemble_iff.mp hadv
    refine ⟨List.append_ne_nil_of_left_ne_nil (by decide) _, ?_⟩
    exact ⟨c', _, m₁, hb₁, rfl, _, m₂, hb₂, _, m₃, hb₃, c.pool, m₄, ⟨b₄, hpool, hb₄⟩, _, m₅, hb₅,
      _, m₆, ⟨hthis, hb₆⟩, _, m₇, ⟨hsuper, hb₇⟩, _, m₈, ⟨_, ⟨hinterfaces, rfl⟩, hb₈⟩, _, m₉,
      ⟨b₉, hfields, hb₉⟩, _, m₁₀, ⟨b₁₀, hmethods, hb₁₀⟩, _, c', ⟨b₁₁, hattributes, hb₁₁⟩, _, c',
      ⟨rfl, rfl⟩, by rw [hend]; rfl, rfl, rfl⟩

/-- Reading gives proper classes, their frames in the forms in which they are written. -/
theorem proper_of_ofBytes [Build] {c : ClassFile} {bytes : Bytes} (h : ofBytes bytes = .ok c) :
    c.Proper ∧ c.widened = c := by
  obtain ⟨_, _, methods, _, ⟨hpool, -⟩, hthis, hsuper, hinterfaces, hfields, hmethods, hattributes,
    -⟩ := ofBytes_eq_ok_iff.mp h
  have hmethods' : Bytes.Table (fun method b =>
      (Method.Proper c.pool method ∧ method.widened = method) ∧ ∃ raw : RawMember,
        Method.IsIn c.pool method raw ∧ raw.Form b) c.methods methods := by
    refine hmethods.mono ?_
    rintro method - b ⟨raw, hin, hform⟩
    exact ⟨Method.proper_of_isIn hin hform, raw, hin, hform⟩
  obtain ⟨hfield, hfields⟩ := Bytes.table_and_iff.mp hfields
  obtain ⟨hmethod, hmethods⟩ := Bytes.table_and_iff.mp hmethods'
  refine ⟨⟨hpool, hthis, hsuper, hinterfaces, hfields.1, hfield, hmethods.1,
    fun method hm => (hmethod method hm).1, hattributes.1⟩, ?_⟩
  rw [widened, List.map_congr_left fun method hm => (hmethod method hm).2, List.map_id']

/-- What is written for a proper class is read as the class again, its frames in the forms in which
they are written. -/
theorem ofBytes_of_toBytes [Build] {c : ClassFile} (hc : c.Proper) {bytes : Bytes}
    (h : c.toBytes = .ok bytes) : ofBytes bytes = .ok c.widened := by
  obtain ⟨pool, fields, methods, attributes, hpool, hfields, hmethods, hattributes, rfl⟩ :=
    toBytes_eq_ok_iff.mp h
  refine ofBytes_eq_ok_iff.mpr ⟨pool, fields, methods, attributes, ⟨hc.pool, hpool⟩, hc.thisClass,
    hc.superClass, hc.interfaces_lt, ?_, ?_, ?_, rfl⟩
  · exact Bytes.table_and_iff.mpr
      ⟨hc.fields, Bytes.table_iff_ofTableM.mpr ⟨hc.fields_lt, hfields⟩⟩
  · rw [widened, Bytes.table_map_iff]
    exact (Bytes.table_iff_ofTableM.mpr ⟨hc.methods_lt, hmethods⟩).mono
      fun method hm b hb => Method.isIn_of_write (hc.methods method hm) hb
  · exact Bytes.table_iff_ofTableM.mpr ⟨hc.attributes_lt, hattributes⟩

/-! ### Code arrays in a class file -/

/-- Reads the code arrays of a class, and everything else as far as it leads to them. -/
def readCodeArrays : Reader (List Bytes) := do
  Reader.skip 8
  let pool ← ConstantPool.read
  Reader.skip 6
  let _ ← Reader.table Reader.u16
  let _ ← Reader.table RawMember.read
  let methods ← Reader.table RawMember.read
  return (methods.flatMap Prod.snd).filterMap (RawAttribute.codeArray? pool)

/-- The code arrays in the bytes of a class. -/
def codeArrays (bytes : Bytes) : List Bytes :=
  match readCodeArrays.eval bytes with
  | .ok arrays => arrays
  | .error _ => []

/-- The code arrays of a class are those of its members. -/
theorem codeArrays_assemble {c : ClassFile} {pool fields methods : Bytes} (hproper : c.pool.Proper)
    (hpool : c.pool.write = .ok pool) (hinterfaces : c.interfaces.length < 65536)
    (hfields : Bytes.Table (fun field b => Field.Proper c.pool field ∧ field.write = .ok b)
      c.fields fields)
    {raws : List RawMember} (hraws : Bytes.Table RawMember.Form raws methods) (attributes : Bytes) :
    codeArrays (c.assemble pool fields methods attributes) =
      (raws.flatMap Prod.snd).filterMap (RawAttribute.codeArray? c.pool) := by
  have hmembers : Bytes.Table (fun _ b => ∃ raw : RawMember, True ∧ raw.Form b) c.fields fields :=
    hfields.mono fun field _ b ⟨hfield, hb⟩ => Field.form_of_write hfield.attributes_lt hb
  obtain ⟨raws', -, hraws'⟩ := Bytes.table_exists_iff.mp hmembers
  -- The cursor stands behind each part in turn; the attributes are never looked at.
  obtain ⟨c', hadv, -⟩ := Cursor.exists_advances_start (c.assemble pool fields methods attributes)
  obtain ⟨m₁, hb₁, m₂, hb₂, m₃, hb₃, m₄, hb₄, m₅, hb₅, m₆, hb₆, m₇, hb₇, m₈, hb₈, m₉, hb₉, m₁₀,
    hb₁₀, -⟩ := advances_assemble_iff.mp hadv
  have heval : readCodeArrays.eval (c.assemble pool fields methods attributes) =
      .ok ((raws.flatMap Prod.snd).filterMap (RawAttribute.codeArray? c.pool)) := by
    rw [eval_eq_ok_iff]
    simp only [readCodeArrays, bind_eq_ok_iff, skip_eq_ok_iff, ConstantPool.takes_read _ _ _,
      takes_u16.table _ _ _, Bytes.table_iff_ofTable, RawMember.takes_read.table _ _ _,
      pure_eq_ok_iff]
    exact ⟨m₁₀, (), m₃, ⟨_, rfl, hb₁.append (hb₂.append hb₃)⟩, c.pool, m₄,
      ⟨pool, ⟨hproper, hpool⟩, hb₄⟩, (), m₇, ⟨_, rfl, hb₅.append (hb₆.append hb₇)⟩, c.interfaces,
      m₈, ⟨_, ⟨hinterfaces, rfl⟩, hb₈⟩, raws', m₉, ⟨fields, hraws', hb₉⟩, raws, m₁₀,
      ⟨methods, hraws, hb₁₀⟩, rfl, rfl⟩
  rw [codeArrays, heval]

end ClassFile

end ClassGraft
