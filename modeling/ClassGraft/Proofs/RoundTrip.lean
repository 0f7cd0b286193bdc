/-
Reading a class file and writing it again.

Every class file that is read is written as the same bytes (`ClassFile.toBytes_of_ofBytes`), if its
code arrays have at most 65535 bytes and the padding of their switches is zero.  Nothing else is
lost: every constant, member and attribute has one written form, whether an instruction has a
constructor of its own or keeps its operand bytes.
-/
import ClassGraft.Proofs.WholeClass

namespace ClassGraft

namespace ClassFile

/-- A class file whose code arrays are short enough, with zero padding in their switches, is written
as it was read. -/
theorem toBytes_of_ofBytes [Build] {c : ClassFile} {bytes : Bytes} (h : ofBytes bytes = .ok c)
    (hlen : ∀ array ∈ codeArrays bytes, array.length ≤ 65535)
    (hzero : ∀ array ∈ codeArrays bytes, Decoded.ZeroPadded c.pool array) :
    c.toBytes = .ok bytes := by
  obtain ⟨pool, fields, methods, attributes, ⟨hproper, hpool⟩, -, -, hinterfaces, hfields, hmethods,
    hattributes, rfl⟩ := ofBytes_eq_ok_iff.mp h
  obtain ⟨raws, hmethods, hraws⟩ := Bytes.table_exists_iff.mp hmethods
  have hread := codeArrays_assemble hproper hpool hinterfaces hfields hraws attributes
  -- Every array that a method was read from is among those of the file.
  have hraw : ∀ raw ∈ raws, ∀ a ∈ raw.2, ∀ array ∈ a.codeArray? c.pool,
      Code.Rewritable c.pool array := by
    intro raw hmem a ha array harray
    have hin : array ∈ codeArrays (c.assemble pool fields methods attributes) := by
      rw [hread]
      exact List.mem_filterMap.mpr ⟨a, List.mem_flatMap.mpr ⟨raw, hmem, ha⟩, harray⟩
    exact ⟨hlen array hin, hzero array hin⟩
  have htable := Bytes.table_exists_iff.mpr ⟨raws, hmethods, Bytes.table_and_iff.mpr ⟨hraw, hraws⟩⟩
  refine toBytes_eq_ok_iff.mpr ⟨pool, fields, methods, attributes, hpool,
    (Bytes.table_iff_ofTableM.mp (Bytes.table_and_iff.mp hfields).2).2, ?_,
    (Bytes.table_iff_ofTableM.mp hattributes).2, rfl⟩
  refine (Bytes.table_iff_ofTableM.mp (htable.mono ?_)).2
  rintro method - b ⟨raw, hin, harray, hform⟩
  exact Method.write_of_isIn hin harray hform

/-- The code array of `switchBytes`: a local access that is widened without need, a table switch
with three bytes of padding, and two further instructions. -/
def switchArray : Bytes :=
  [196, 21, 0, 5, 170, 0, 0, 0, 0, 0, 0, 24, 0, 0, 0, 0, 0, 0, 0, 1, 0, 0, 0, 24, 0, 0, 0, 25, 0,
    177]

/-- A class with a constant that takes two slots and one method, whose body is `switchArray` with
two stack map frames. -/
def switchBytes : Bytes :=
  [202, 254, 186, 190, 0, 0, 0, 49, 0, 9, 1, 0, 1, 65, 7, 0, 1, 1, 0, 1, 109, 1, 0, 3, 40, 41, 86,
    1, 0, 4, 67, 111, 100, 101, 1, 0, 13, 83, 116, 97, 99, 107, 77, 97, 112, 84, 97, 98, 108, 101,
    5, 0, 0, 0, 0, 0, 0, 0, 7, 0, 33, 0, 2, 0, 0, 0, 0, 0, 0, 0, 1, 0, 0, 0, 3, 0, 4, 0, 1, 0, 5, 0,
    0, 0, 52, 0, 1, 0, 6, 0, 0, 0, 30] ++ switchArray ++
  [0, 0, 0, 1, 0, 6, 0, 0, 0, 4, 0, 2, 28, 0, 0, 0]

/-- The class that `switchBytes` hold. -/
def switchClass : ClassFile where
  minor := 0
  major := 49
  pool := ⟨#[none, some (.utf8 [65]), some (.classRef 1), some (.utf8 [109]),
    some (.utf8 [40, 41, 86]), some (.utf8 [67, 111, 100, 101]),
    some (.utf8 [83, 116, 97, 99, 107, 77, 97, 112, 84, 97, 98, 108, 101]), some (.long 7), none]⟩
  access := 33
  thisClass := 2
  superClass := 0
  interfaces := []
  fields := []
  methods := [⟨0, 3, 4, "m", "()V", [.code 5
    { maxStack := 1
      maxLocals := 6
      instructions := [.other 196 [21, 0, 5], .tableSwitch 2 0 [2, 3], .other 0 [], .exit none]
      handlers := []
      attributes := [.stackMap 6 [⟨2, .same⟩, ⟨3, .same⟩]] }]⟩]
  attributes := []

theorem codeArrays_switchBytes : codeArrays switchBytes = [switchArray] := by decide +kernel

attribute [local instance] Build.checked

theorem zeroPadded_switchArray : Decoded.ZeroPadded switchClass.pool switchArray := by
  have h : decode switchClass.pool switchArray = .ok ⟨[.other 196 [21, 0, 5],
      .tableSwitch 2 0 [2, 3], .other 0 [], .exit none], ⟨#[0, 4, 28, 29, 30]⟩⟩ := by
    decide +kernel
  rw [zeroPadded_iff h]
  decide +kernel

theorem toBytes_switchClass :
    ofBytes switchBytes = .ok switchClass ∧
      (∀ array ∈ codeArrays switchBytes, array.length ≤ 65535) ∧
      (∀ array ∈ codeArrays switchBytes, Decoded.ZeroPadded switchClass.pool array) ∧
      switchClass.toBytes = .ok switchBytes := by
  have h : ofBytes switchBytes = .ok switchClass := by decide +kernel
  have hlen : ∀ array ∈ codeArrays switchBytes, array.length ≤ 65535 := by
    rw [codeArrays_switchBytes, List.forall_mem_singleton]
    decide
  have hzero : ∀ array ∈ codeArrays switchBytes, Decoded.ZeroPadded switchClass.pool array := by
    rw [codeArrays_switchBytes, List.forall_mem_singleton]
    exact zeroPadded_switchArray
  exact ⟨h, hlen, hzero, toBytes_of_ofBytes h hlen hzero⟩

end ClassFile

end ClassGraft
