/-
Reading what has been written.

Every class that reading and patching give (`ClassFile.Obtained`) is proper, so what is written for
it is read as the class again; only a compact frame that a patch has moved far behind the frame
before it comes back in its extended form (`ClassFile.ofBytes_of_obtained`).
-/
import ClassGraft.Proofs.Grafting

namespace ClassGraft

namespace ClassFile

/-- The classes that reading gives, and those that patches make of them. -/
inductive Obtained [Build] : ClassFile → Prop
  | read {bytes : Bytes} {c : ClassFile} (h : ofBytes bytes = .ok c) : Obtained c
  | patched {t : Transformer} {mode : NamingMode} {c c' : ClassFile} {report : GraftReport}
      {log log' : List LogLine} (hc : Obtained c)
      (h : t.patch mode ⟨c, log⟩ = .ok report ⟨c', log'⟩) : Obtained c'

theorem Obtained.proper [Build] {c : ClassFile} (h : Obtained c) : c.Proper := by
  induction h with
  | read h => exact (proper_of_ofBytes h).1
  | patched _ h ih => exact ih.patch h

/-- What is written for a class that reading and patching give is read as the class again, its
frames in the forms in which they are written; a class that was read comes back exactly. -/
theorem ofBytes_of_obtained [Build] {c : ClassFile} (h : Obtained c) {bytes : Bytes}
    (hbytes : c.toBytes = .ok bytes) :
    ofBytes bytes = .ok c.widened ∧
      ∀ original, ofBytes original = .ok c → ofBytes bytes = .ok c := by
  have hread := ofBytes_of_toBytes h.proper hbytes
  refine ⟨hread, fun original horiginal => ?_⟩
  rw [hread, (proper_of_ofBytes horiginal).2]

/-- A class with a body in which fourteen increments of a local stand between a discarded call and a
frame. -/
def crossingBytes : Bytes :=
  [202, 254, 186, 190, 0, 0, 0, 46, 0, 14, 1, 0, 1, 65, 7, 0, 1, 1, 0, 1, 119, 1, 0, 3, 76, 87, 59,
   1, 0, 1, 112, 1, 0, 1, 109, 1, 0, 6, 40, 73, 73, 73, 41, 86, 1, 0, 4, 67, 111, 100, 101, 1, 0, 1,
   116, 1, 0, 3, 40, 41, 90, 12, 0, 9, 0, 10, 10, 0, 2, 0, 11, 1, 0, 13, 83, 116, 97, 99, 107, 77,
   97, 112, 84, 97, 98, 108, 101, 0, 33, 0, 2, 0, 0, 0, 0, 0, 2, 0, 0, 0, 3, 0, 4, 0, 0, 0, 0, 0, 5,
   0, 4, 0, 0, 0, 1, 0, 1, 0, 6, 0, 7, 0, 1, 0, 8, 0, 0, 0, 68, 0, 1, 0, 4, 0, 0, 0, 47, 184, 0, 12,
   87] ++
  (List.replicate 14 [132, 1, 0]).flatten ++
  [177, 0, 0, 0, 1, 0, 13, 0, 0, 0, 3, 0, 1, 46, 0, 0]

/-- A graft with short names. -/
def crossingGraft : Transformer where
  config := {
    targetMethod := "m"
    anchorCallee := "t"
    worldField := "w"
    playerField := "p"
    handlerClass := "H"
    handlerField := "h"
    handlerMethod := "g" }

/-- The class that `crossingBytes` hold. -/
def crossingClass : ClassFile where
  minor := 0
  major := 46
  pool := ⟨#[none, some (.utf8 [65]), some (.classRef 1), some (.utf8 [119]),
    some (.utf8 [76, 87, 59]), some (.utf8 [112]), some (.utf8 [109]),
    some (.utf8 [40, 73, 73, 73, 41, 86]), some (.utf8 [67, 111, 100, 101]), some (.utf8 [116]),
    some (.utf8 [40, 41, 90]), some (.nameAndType 9 10), some (.methodRef 2 11),
    some (.utf8 [83, 116, 97, 99, 107, 77, 97, 112, 84, 97, 98, 108, 101])]⟩
  access := 33
  thisClass := 2
  superClass := 0
  interfaces := []
  fields := [⟨0, 3, 4, "w", "LW;", []⟩, ⟨0, 5, 4, "p", "LW;", []⟩]
  methods := [⟨1, 6, 7, "m", "(III)V", [.code 8
    { maxStack := 1
      maxLocals := 4
      instructions := [.invoke ⟨12, "A", "t", "()Z"⟩ .static, .pop] ++
        List.replicate 14 (.other 132 [1, 0]) ++ [.exit none]
      handlers := []
      attributes := [.stackMap 13 [⟨16, .same⟩]] }]⟩]
  attributes := []

attribute [local instance] Build.checked

/-- The class behind the graft; its frame lies too far behind the start for the compact form. -/
def crossedClass : ClassFile :=
  (Step.outcome (crossingGraft.patch .canonical) crossingClass).2.value

theorem obtained_crossedClass : Obtained crossedClass := by
  have hread : ofBytes crossingBytes = .ok crossingClass := by decide +kernel
  have hok : (Step.outcome (crossingGraft.patch .canonical) crossingClass).1.isOk = true := by
    decide +kernel
  rw [crossedClass]
  rw [Step.outcome] at hok ⊢
  cases hpatch : crossingGraft.patch .canonical ⟨crossingClass, []⟩ with
  | ok report s => exact .patched (.read hread) hpatch
  | error fault s =>
    rw [hpatch] at hok
    exact absurd hok (by simp [Except.isOk, Except.toBool])

theorem ofBytes_crossedClass : Obtained crossedClass ∧ crossedClass.widened ≠ crossedClass ∧
    ∃ bytes, crossedClass.toBytes = .ok bytes ∧ ofBytes bytes = .ok crossedClass.widened := by
  have hwidened : crossedClass.widened ≠ crossedClass := by decide +kernel
  have hok : crossedClass.toBytes.isOk = true := by decide +kernel
  cases hbytes : crossedClass.toBytes with
  | ok bytes =>
    exact ⟨obtained_crossedClass, hwidened, bytes, rfl,
      (ofBytes_of_obtained obtained_crossedClass hbytes).1⟩
  | error fault =>
    rw [hbytes] at hok
    exact absurd hok (by simp [Except.isOk, Except.toBool])

end ClassFile

end ClassGraft
