/-
Insertions that are taken back.

The instructions that an insertion has put in can be taken out again one by one, all at the place of
the insertion.  Nothing refers to the first of them, for whatever referred to that place has moved
on behind them, and without it the body is the one into which only the others have been put
(`Code.remove_insert_cons`).  When all are out, the body is what it was (`Code.insert_nil`).  So
taking out as many as have been put in gives them back in order and leaves no trace
(`Code.removeMany_insert`).
-/
import ClassGraft.Proofs.Relocation

namespace ClassGraft

/-- Takes `count` instructions out, one after the other at one place, and gives them in order;
stops at the first that is refused. -/
def Code.removeMany (code : Code) (method : String) (place : Nat) :
    Nat → Except Fault (Instructions × Code)
  | 0 => .ok ([], code)
  | count + 1 => do
    let (i, code) ← code.remove method place
    let (rest, code) ← code.removeMany method place count
    return (i :: rest, code)

namespace Renumber

/-- Without the first of the instructions put in, positions stand as if it had never been put in. -/
theorem removed_comp_inserted_succ (place count : Nat) :
    removed place ∘ inserted place (count + 1) = inserted place count := by
  funext p
  rw [Function.comp_apply, inserted, inserted]
  by_cases hp : place ≤ p
  · rw [if_pos hp, if_pos hp, removed, if_pos (by omega)]
    omega
  · rw [if_neg hp, if_neg hp, removed, if_neg (by omega)]

theorem inserted_zero (place : Nat) : inserted place 0 = id := by
  funext p
  rw [inserted, Nat.add_zero, ite_self]
  rfl

/-- What referred to the place of an insertion has moved on. -/
theorem inserted_succ_ne (place count p : Nat) : inserted place (count + 1) p ≠ place := by
  rw [inserted]
  split
  all_goals omega

end Renumber

/-! ### Instructions -/

theorem Instruction.mapTargets_of_targets_eq_nil {i : Instruction} (h : i.targets = [])
    (f : Nat → Nat) : i.mapTargets f = i := by
  cases i with
  | jump | tableSwitch | lookupSwitch => exact absurd h (List.cons_ne_nil _ _)
  | _ => rfl

namespace Instructions

theorem insert_nil (list : Instructions) (place : Nat) :
    Instructions.insert list place [] = list := by
  have hsame : list.map (Instruction.mapTargets id) = list := by
    refine (List.map_congr_left fun i _ => ?_).trans (List.map_id list)
    exact Instruction.mapTargets_id i
  rw [Instructions.insert, List.length_nil, Renumber.inserted_zero, hsame, List.append_nil,
    List.take_append_drop]

/-- Without the first instruction put in, the others have been put in. -/
theorem map_eraseIdx_insert {list rest : Instructions} {place : Nat} (h : place ≤ list.length)
    (hrest : ∀ j ∈ rest, j.targets = []) (i : Instruction) :
    ((Instructions.insert list place (i :: rest)).eraseIdx place).map
        (Instruction.mapTargets (Renumber.removed place)) =
      Instructions.insert list place rest := by
  have herase : (Instructions.insert list place (i :: rest)).eraseIdx place =
      (list.map (Instruction.mapTargets (Renumber.inserted place (rest.length + 1)))).take place ++
        (rest ++
          (list.map (Instruction.mapTargets (Renumber.inserted place (rest.length + 1)))).drop
            place) := by
    have hlen : ((list.map (Instruction.mapTargets
        (Renumber.inserted place (rest.length + 1)))).take place).length = place := by
      rw [List.length_take, List.length_map, Nat.min_eq_left h]
    rw [Instructions.insert, List.length_cons, List.append_assoc,
      List.eraseIdx_append_of_length_le (by omega), hlen, Nat.sub_self, List.cons_append,
      List.eraseIdx_cons_zero]
  have hold : list.map (Instruction.mapTargets (Renumber.removed place) ∘
      Instruction.mapTargets (Renumber.inserted place (rest.length + 1))) =
      list.map (Instruction.mapTargets (Renumber.inserted place rest.length)) := by
    refine List.map_congr_left fun j _ => ?_
    rw [Function.comp_apply, Instruction.mapTargets_mapTargets, Renumber.removed_comp_inserted_succ]
  have hnew : rest.map (Instruction.mapTargets (Renumber.removed place)) = rest := by
    refine (List.map_congr_left fun j hj => ?_).trans (List.map_id rest)
    exact Instruction.mapTargets_of_targets_eq_nil (hrest j hj) _
  rw [herase, List.map_append, List.map_append, List.map_take, List.map_drop, List.map_map, hold,
    hnew, Instructions.insert, List.append_assoc]

end Instructions

/-! ### Tables -/

namespace CodeAttribute

theorem lines_mapPositions (f : Nat → Nat) (a : CodeAttribute) :
    (a.mapPositions f).lines = a.lines.map (LineNumber.mapPositions f) := by
  cases a
  all_goals rfl

theorem dropLinesFrom_eq_self {limit : Nat} {a : CodeAttribute}
    (h : ∀ entry ∈ a.lines, entry.start < limit) : a.dropLinesFrom limit = a := by
  cases a with
  | lineNumbers nameIndex entries =>
    refine congrArg (lineNumbers nameIndex) (List.filter_eq_self.mpr fun entry hentry => ?_)
    exact decide_eq_true (h entry hentry)
  | _ => rfl

end CodeAttribute

namespace Code

variable {code : Code} {place : Nat} {i : Instruction} {rest sequence : Instructions}

theorem insert_nil (code : Code) (place : Nat) : code.insert place [] = code := by
  have hattributes : code.attributes.map (CodeAttribute.mapPositions id) = code.attributes := by
    refine (List.map_congr_left fun a _ => ?_).trans (List.map_id _)
    exact CodeAttribute.mapPositions_id a
  rw [insert, mapPositions, List.length_nil, Renumber.inserted_zero, hattributes,
    Instructions.insert_nil]
  exact congrArg (fun handlers => { code with handlers }) (List.map_id code.handlers)

/-- Nothing refers to the first of the instructions put in. -/
theorem isReferenced_insert_cons (hsequence : ∀ j ∈ i :: rest, j.targets = []) :
    (code.insert place (i :: rest)).isReferenced place = false := by
  have hmoved : ∀ positions : List Nat,
      place ∉ positions.map (Renumber.inserted place (i :: rest).length) := by
    intro positions hmem
    obtain ⟨p, -, hp⟩ := List.mem_map.mp hmem
    exact Renumber.inserted_succ_ne place rest.length p hp
  rw [isReferenced_eq_false_iff]
  refine ⟨fun j hj => ?_, ?_⟩
  · rcases Instructions.mem_insert hj with hj | ⟨k, -, rfl⟩
    · rw [hsequence j hj]
      exact List.not_mem_nil
    · rw [Instruction.targets_mapTargets]
      exact hmoved k.targets
  · have hanchors : (code.insert place (i :: rest)).anchors = code.anchors.map _ :=
      anchors_mapPositions _ code
    rw [hanchors]
    exact hmoved code.anchors

/-- No line goes with the first of the instructions put in. -/
theorem attributes_insert_cons
    (hlines : ∀ entry ∈ code.lines, entry.start < code.instructions.length) (i : Instruction) :
    (((code.insert place (i :: rest)).mapPositions (Renumber.removed place)).attributes.map
        (CodeAttribute.dropLinesFrom (Instructions.insert code.instructions place rest).length)) =
      (code.insert place rest).attributes := by
  show ((code.attributes.map (CodeAttribute.mapPositions _)).map (CodeAttribute.mapPositions _)).map
      (CodeAttribute.dropLinesFrom _) = code.attributes.map (CodeAttribute.mapPositions _)
  rw [List.map_map, List.map_map]
  refine List.map_congr_left fun a ha => ?_
  rw [Function.comp_apply, Function.comp_apply, CodeAttribute.mapPositions_mapPositions,
    List.length_cons, Renumber.removed_comp_inserted_succ]
  refine CodeAttribute.dropLinesFrom_eq_self fun entry hentry => ?_
  rw [CodeAttribute.lines_mapPositions] at hentry
  obtain ⟨line, hline, rfl⟩ := List.mem_map.mp hentry
  have hlt := hlines line (List.mem_flatMap.mpr ⟨a, ha, hline⟩)
  -- A line before the end of the code stays before it.
  show Renumber.inserted place rest.length line.start < _
  rw [Instructions.length_insert, Renumber.inserted]
  split
  all_goals omega

theorem withoutInstruction_insert_cons
    (hlines : ∀ entry ∈ code.lines, entry.start < code.instructions.length) (i : Instruction) :
    (code.insert place (i :: rest)).withoutInstruction place
        (Instructions.insert code.instructions place rest) = code.insert place rest := by
  have hhandlers :
      ((code.insert place (i :: rest)).mapPositions (Renumber.removed place)).handlers =
        (code.insert place rest).handlers := by
    have hposition := Renumber.removed_comp_inserted_succ place rest.length
    show (code.handlers.map (Handler.mapPositions _)).map (Handler.mapPositions _) =
      code.handlers.map (Handler.mapPositions _)
    rw [List.map_map, ← hposition]
    rfl
  exact congrArg₂ (Code.mk _ _ _) hhandlers (attributes_insert_cons hlines i)

/-- The first of the instructions put in can be taken out, and then only the others have been put
in. -/
theorem remove_insert_cons (hplace : place ≤ code.instructions.length)
    (hlines : ∀ entry ∈ code.lines, entry.start < code.instructions.length)
    (hsequence : ∀ j ∈ i :: rest, j.targets = []) (method : String) :
    (code.insert place (i :: rest)).remove method place = .ok (i, code.insert place rest) := by
  have hrest : ∀ j ∈ rest, j.targets = [] := fun j hj => hsequence j (List.mem_cons_of_mem i hj)
  have hfirst : (Instructions.insert code.instructions place (i :: rest))[place + 0]? = some i :=
    Instructions.getElem?_insert_add hplace (by simp)
  have hothers : ((code.insert place (i :: rest)).instructions.eraseIdx place).map
      (Instruction.mapTargets (Renumber.removed place)) =
        Instructions.insert code.instructions place rest :=
    Instructions.map_eraseIdx_insert hplace hrest i
  refine remove_eq_ok_iff.mpr ⟨hfirst, isReferenced_insert_cons hsequence, ?_⟩
  rw [hothers, withoutInstruction_insert_cons hlines]

/-- Instructions without targets that have been put in are given back in order when as many are
taken out again at their place, and the body is what it was.  An insertion in range is refused only
where instructions could not be counted any more. -/
theorem removeMany_insert (hcode : code.InRange)
    (hlines : ∀ entry ∈ code.lines, entry.start < code.instructions.length)
    (hplace : place ≤ code.instructions.length) (hsequence : ∀ i ∈ sequence, i.targets = [])
    (method : String) :
    (code.instructions.length + sequence.length < countLimit →
      code.insert? place sequence = some (code.insert place sequence)) ∧
    (code.insert place sequence).removeMany method place sequence.length =
      .ok (sequence, code) := by
  refine ⟨insert?_eq_some hcode hplace, ?_⟩
  induction sequence with
  | nil => rw [insert_nil, List.length_nil, removeMany]
  | cons i rest ih =>
    have hrest : ∀ j ∈ rest, j.targets = [] := fun j hj => hsequence j (List.mem_cons_of_mem i hj)
    rw [List.length_cons, removeMany, remove_insert_cons hplace hlines hsequence]
    show (do let (rest, code) ← (code.insert place rest).removeMany method place rest.length
             return (i :: rest, code) : Except Fault (Instructions × Code)) = _
    rw [ih hrest]
    rfl

/-- A body with positions at one place and at the end of the code in every table. -/
def crowdedBody : Code where
  maxStack := 2
  maxLocals := 1
  instructions := [.jump 167 2, .lookupSwitch 3 [(7, 2)], .other 187 [0, 1], .exit none]
  handlers := [⟨0, 2, 2, 0⟩, ⟨2, 4, 3, 5⟩]
  attributes := [.lineNumbers 1 [⟨0, 7⟩, ⟨2, 8⟩],
    .localVariables 2 [⟨0, 2, 3, 4, 0⟩, ⟨2, 4, 3, 4, 0⟩], .localVariableTypes 6 [⟨2, 4, 3, 4, 0⟩],
    .stackMap 5 [⟨2, .full [.uninitialized 2] [.top, .uninitialized 4]⟩, ⟨4, .same⟩]]

/-- Two instructions put in at that place can be taken out again. -/
theorem removeMany_insert_crowdedBody :
    crowdedBody.InRange ∧ (∀ entry ∈ crowdedBody.lines, entry.start < 4) ∧
    crowdedBody.insert? 2 [.pop, .other 0 []] =
      some (crowdedBody.insert 2 [.pop, .other 0 []]) ∧
    crowdedBody.insert 2 [.pop, .other 0 []] ≠ crowdedBody ∧
    (crowdedBody.insert 2 [.pop, .other 0 []]).removeMany "m" 2 2 =
      .ok ([.pop, .other 0 []], crowdedBody) := by
  have hcode : crowdedBody.InRange := ⟨by decide, by decide⟩
  have hlines : ∀ entry ∈ crowdedBody.lines, entry.start < 4 := by decide
  have hplace : 2 ≤ crowdedBody.instructions.length := by decide
  have hsequence : ∀ i ∈ ([.pop, .other 0 []] : Instructions), i.targets = [] := by decide
  obtain ⟨hinsert, hremove⟩ := removeMany_insert hcode hlines hplace hsequence "m"
  exact ⟨hcode, hlines, hinsert (by decide), by decide, hremove⟩

end Code

end ClassGraft
