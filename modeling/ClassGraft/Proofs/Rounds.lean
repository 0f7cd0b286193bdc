/-
The loop over a code array.

Each round takes the bytes of one instruction, at least one of them
(`Decoded.exists_advances_of_readNext`).  So the loop ends on any bytes, and the number of rounds
that it is given never cuts it short: it comes to what it comes to without a bound
(`Decoded.loops_iff`), and more fuel changes nothing (`Decoded.readInstructions_add`).
-/
import ClassGraft.Proofs.CodeArray

namespace ClassGraft

namespace Decoded

variable {pool : ConstantPool}

/-- One round of the loop over a code array. -/
def readNext [Build] (pool : ConstantPool) (c : Cursor) : EStateM.Result Fault Cursor Instruction :=
  Reader.mapFault (nameCut c.pos) (Reader.transaction (readInstruction pool)) c

/-- The loop over a code array, for as many rounds as it takes: what comes out of it at a cursor,
where the instructions in `done` have been read. -/
inductive Loops [Build] (pool : ConstantPool) : List (Nat × Instruction) → Cursor →
    EStateM.Result Fault Cursor (List (Nat × Instruction)) → Prop
  | stop (done : List (Nat × Instruction)) (pos : Nat) :
    Loops pool done ⟨pos, []⟩ (.ok done.reverse ⟨pos, []⟩)
  | next {done : List (Nat × Instruction)} {c c' : Cursor} {i : Instruction}
      {out : EStateM.Result Fault Cursor (List (Nat × Instruction))} (hmore : c.rest ≠ [])
      (hnext : readNext pool c = .ok i c') (hout : Loops pool ((c.pos, i) :: done) c' out) :
    Loops pool done c out
  | fail {done : List (Nat × Instruction)} {c c' : Cursor} {fault : Fault} (hmore : c.rest ≠ [])
      (hnext : readNext pool c = .error fault c') : Loops pool done c (.error fault c')

variable {done : List (Nat × Instruction)} {c c' : Cursor} {i : Instruction} {fuel : Nat}
  {out : EStateM.Result Fault Cursor (List (Nat × Instruction))}

theorem readNext_eq_ok_iff [Build] : readNext pool c = .ok i c' ↔
    ∃ b : Bytes, Spelling pool c.pos i b ∧ c.Advances b c' := by
  rw [readNext, Reader.mapFault_eq_ok_iff, Reader.transaction_eq_ok_iff, readInstruction_eq_ok_iff]

/-- A round takes the bytes of an instruction, of which there is at least one. -/
theorem exists_advances_of_readNext [Build] (h : readNext pool c = .ok i c') :
    ∃ b : Bytes, b ≠ [] ∧ c.Advances b c' := by
  obtain ⟨b, hi, hb⟩ := readNext_eq_ok_iff.mp h
  refine ⟨b, ?_, hb⟩
  rw [← List.length_pos_iff, length_of_spelling hi]
  exact i.size_pos c.pos

theorem loops_nil_iff [Build] {pos : Nat} :
    Loops pool done ⟨pos, []⟩ out ↔ out = .ok done.reverse ⟨pos, []⟩ := by
  constructor
  · intro h
    cases h with
    | stop => rfl
    | next hmore | fail hmore => exact absurd rfl hmore
  · rintro rfl
    exact .stop done pos

theorem loops_of_readNext_ok [Build] (hmore : c.rest ≠ []) (h : readNext pool c = .ok i c') :
    Loops pool done c out ↔ Loops pool ((c.pos, i) :: done) c' out := by
  constructor
  · intro hout
    cases hout with
    | stop => exact absurd rfl hmore
    | next _ hnext hout =>
      obtain ⟨rfl, rfl⟩ := EStateM.Result.ok.inj (h.symm.trans hnext)
      exact hout
    | fail _ hnext => exact absurd (h.symm.trans hnext) (by simp)
  · exact .next hmore h

theorem loops_of_readNext_error [Build] {fault : Fault} (hmore : c.rest ≠ [])
    (h : readNext pool c = .error fault c') : Loops pool done c out ↔ out = .error fault c' := by
  constructor
  · intro hout
    cases hout with
    | stop => exact absurd rfl hmore
    | next _ hnext _ => exact absurd (h.symm.trans hnext) (by simp)
    | fail _ hnext =>
      obtain ⟨rfl, rfl⟩ := EStateM.Result.error.inj (h.symm.trans hnext)
      rfl
  · rintro rfl
    exact .fail hmore h

theorem readInstructions_of_more [Build] (hmore : c.rest ≠ []) :
    readInstructions pool (fuel + 1) done c = match readNext pool c with
      | .ok i c' => readInstructions pool fuel ((c.pos, i) :: done) c'
      | .error fault c' => .error fault c' := by
  obtain ⟨pos, rest⟩ := c
  cases rest with
  | nil => exact absurd rfl hmore
  | cons byte rest =>
    rw [readInstructions, readNext]
    generalize Reader.transaction (readInstruction pool) = r
    show EStateM.bind (Reader.mapFault (nameCut pos) r) _ _ = _
    rw [EStateM.bind]
    cases Reader.mapFault (nameCut pos) r ⟨pos, byte :: rest⟩ with
    | ok => rfl
    | error => rfl

/-- With fuel for every byte ahead, the loop comes to what it comes to without a bound. -/
theorem loops_iff [Build] (hfuel : c.rest.length ≤ fuel) :
    Loops pool done c out ↔ out = readInstructions pool fuel done c := by
  -- Each round that goes on takes a byte, and one unit of fuel.
  induction fuel generalizing done c with
  | zero =>
    obtain ⟨pos, rest⟩ := c
    obtain rfl : rest = [] := List.eq_nil_of_length_eq_zero (Nat.le_zero.mp hfuel)
    exact loops_nil_iff
  | succ fuel ih =>
    by_cases hmore : c.rest = []
    · obtain ⟨pos, rest⟩ := c
      obtain rfl : rest = [] := hmore
      exact loops_nil_iff
    · rw [readInstructions_of_more hmore]
      cases hnext : readNext pool c with
      | error fault c' => exact loops_of_readNext_error hmore hnext
      | ok i c' =>
        obtain ⟨b, hb, hadv⟩ := exists_advances_of_readNext hnext
        have hlen := congrArg List.length hadv.1
        have hpos := List.length_pos_iff.mpr hb
        rw [List.length_append] at hlen
        rw [loops_of_readNext_ok hmore hnext]
        exact ih (by omega)

/-- With fuel for every byte ahead, more fuel changes nothing: the loop ends where the code does, or
with a fault. -/
theorem readInstructions_add [Build] (pool : ConstantPool) (fuel extra : Nat)
    (done : List (Nat × Instruction)) (c : Cursor) (h : c.rest.length ≤ fuel) :
    readInstructions pool (fuel + extra) done c = readInstructions pool fuel done c := by
  have hloops : Loops pool done c (readInstructions pool (fuel + extra) done c) :=
    (loops_iff (h.trans (Nat.le_add_right fuel extra))).mpr rfl
  exact (loops_iff h).mp hloops

end Decoded

end ClassGraft
