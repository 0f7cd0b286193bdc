/-
Instructions that have moved.

A splice puts a handler call behind the anchor and takes the `pop` out, and so gives every other
instruction a new number (`Renumber.spliced`).  The `pop` is looked for when the call has been put
in; which one it is can be said of the original body as well (`Code.Discards`,
`Code.discards_insert_iff`).

In the new body each of the other instructions stands at its new number with its targets renumbered,
the call stands behind the anchor, and nothing else does (`Code.IsSpliced`).  A splice that succeeds
leaves such a body (`IsSplice.isSpliced`).
-/
import ClassGraft.Proofs.Grafting
import ClassGraft.Proofs.Renumbering

namespace ClassGraft

namespace Renumber

/-- The new number of a position after `count` instructions have been put in behind `anchor` and
the one that stood at `discard`, further on, has been taken out. -/
def spliced (anchor count discard position : Nat) : Nat :=
  removed (discard + count) (inserted (anchor + 1) count position)

variable {anchor count discard p q : Nat}

theorem spliced_of_le (h : anchor < discard) (hp : p ≤ anchor) :
    spliced anchor count discard p = p := by
  rw [spliced, inserted, if_neg (by omega), removed, if_neg (by omega)]

theorem spliced_of_lt (hp : anchor < p) (hle : p ≤ discard) :
    spliced anchor count discard p = p + count := by
  rw [spliced, inserted, if_pos (by omega), removed, if_neg (by omega)]

theorem spliced_of_gt (h : anchor < discard) (hp : discard < p) :
    spliced anchor count discard p = p + count - 1 := by
  rw [spliced, inserted, if_pos (by omega), removed, if_pos (by omega)]

theorem spliced_cases (h : anchor < discard) (count p : Nat) :
    p ≤ anchor ∧ spliced anchor count discard p = p ∨
      anchor < p ∧ p ≤ discard ∧ spliced anchor count discard p = p + count ∨
      discard < p ∧ spliced anchor count discard p = p + count - 1 := by
  rcases Nat.lt_or_ge anchor p with hp | hp
  · rcases Nat.lt_or_ge discard p with hd | hd
    · exact .inr (.inr ⟨hd, spliced_of_gt h hd⟩)
    · exact .inr (.inl ⟨hp, hd, spliced_of_lt hp hd⟩)
  · exact .inl ⟨hp, spliced_of_le h hp⟩

/-- What followed another instruction follows it still. -/
theorem spliced_succ (h : anchor < discard) (hanchor : p ≠ anchor) (hdiscard : p ≠ discard) :
    spliced anchor count discard (p + 1) = spliced anchor count discard p + 1 := by
  have := spliced_cases h count p
  have := spliced_cases h count (p + 1)
  omega

/-- What followed the instruction taken out stands in its place. -/
theorem spliced_discard_succ (h : anchor < discard) :
    spliced anchor count discard (discard + 1) = spliced anchor count discard discard := by
  rw [spliced_of_gt h (Nat.lt_succ_self discard), spliced_of_lt h le_rfl]
  omega

/-- No two instructions that stay have one new number. -/
theorem spliced_inj (h : anchor < discard) (hp : p ≠ discard) (hq : q ≠ discard)
    (heq : spliced anchor count discard p = spliced anchor count discard q) : p = q := by
  have := spliced_cases h count p
  have := spliced_cases h count q
  omega

/-- A position is one of what is put in, or the new number of what stays. -/
theorem exists_spliced (h : anchor < discard) (count r : Nat) :
    anchor < r ∧ r ≤ anchor + count ∨ ∃ p ≠ discard, spliced anchor count discard p = r := by
  rcases Nat.lt_or_ge anchor r with hr | hr
  · rcases Nat.lt_or_ge (anchor + count) r with hcount | hcount
    · rcases Nat.lt_or_ge r (discard + count) with hd | hd
      · refine .inr ⟨r - count, by omega, ?_⟩
        rw [spliced_of_lt (by omega) (by omega)]
        omega
      · refine .inr ⟨r - count + 1, by omega, ?_⟩
        rw [spliced_of_gt h (by omega)]
        omega
    · exact .inl ⟨hr, hcount⟩
  · exact .inr ⟨r, by omega, spliced_of_le h hr⟩

end Renumber

section Lists

variable {α : Type} {list sequence : List α} {place : Nat}

/-- Behind an insertion every entry of a list stands at its new number. -/
theorem Renumber.getElem?_inserted (h : place ≤ list.length) (p : Nat) :
    (list.take place ++ sequence ++ list.drop place)[inserted place sequence.length p]? =
      list[p]? := by
  by_cases hp : place ≤ p
  · have hlen : (list.take place ++ sequence).length = place + sequence.length := by
      rw [List.length_append, List.length_take, Nat.min_eq_left h]
    rw [show inserted place sequence.length p = p + sequence.length from if_pos hp]
    rw [List.getElem?_append_right (by omega), List.getElem?_drop, hlen]
    congr 1
    omega
  · have hlen : (list.take place).length = place := by
      rw [List.length_take, Nat.min_eq_left h]
    rw [show inserted place sequence.length p = p from if_neg hp]
    rw [List.append_assoc, List.getElem?_append_left (by omega),
      List.getElem?_take_of_lt (by omega)]

/-- What is put in stands at the place of the insertion. -/
theorem Renumber.getElem?_add (h : place ≤ list.length) {k : Nat} (hk : k < sequence.length) :
    (list.take place ++ sequence ++ list.drop place)[place + k]? = sequence[k]? := by
  have hlen : (list.take place).length = place := by
    rw [List.length_take, Nat.min_eq_left h]
  rw [List.append_assoc, List.getElem?_append_right (by omega), hlen,
    Nat.add_sub_cancel_left, List.getElem?_append_left hk]

/-- Behind a removal every other entry of a list stands at its new number. -/
theorem Renumber.getElem?_removed {p : Nat} (hp : p ≠ place) :
    (list.eraseIdx place)[removed place p]? = list[p]? := by
  rw [List.getElem?_eraseIdx, removed]
  by_cases hlt : place < p
  · rw [if_pos hlt, if_neg (by omega), Nat.sub_add_cancel (by omega)]
  · rw [if_neg hlt, if_pos (by omega)]

end Lists

namespace Instructions

variable {list sequence : Instructions} {place : Nat}

/-- Behind an insertion every instruction stands at its new number. -/
theorem getElem?_insert (h : place ≤ list.length) (p : Nat) :
    (Instructions.insert list place sequence)[Renumber.inserted place sequence.length p]? =
      list[p]?.map (Instruction.mapTargets (Renumber.inserted place sequence.length)) := by
  rw [Instructions.insert, Renumber.getElem?_inserted (by rwa [List.length_map]), List.getElem?_map]

/-- The instructions put in stand at the place of the insertion. -/
theorem getElem?_insert_add (h : place ≤ list.length) {k : Nat} (hk : k < sequence.length) :
    (Instructions.insert list place sequence)[place + k]? = sequence[k]? :=
  Renumber.getElem?_add (by rwa [List.length_map]) hk

end Instructions

/-! ### The instruction to take out -/

/-- The `pop` that is found behind a place is the first instruction there that does something. -/
theorem discardBehind_drop_eq_ok_iff {method : String} {list : Instructions} {start p : Nat} :
    discardBehind method start (list.drop start) = .ok p ↔
      start ≤ p ∧ list[p]? = some .pop ∧
        ∀ q, start ≤ q → q < p → ∃ i, list[q]? = some i ∧ i.isNop := by
  constructor
  · intro h
    obtain ⟨nops, rest, hdrop, hnops, rfl⟩ := discardBehind_eq_ok_iff.mp h
    have hget : ∀ k, list[start + k]? = (nops ++ .pop :: rest)[k]? := by
      intro k
      rw [← hdrop, List.getElem?_drop]
    refine ⟨Nat.le_add_right _ _, ?_, fun q hle hlt => ?_⟩
    · rw [hget, List.getElem?_append_right le_rfl, Nat.sub_self]
      rfl
    · obtain ⟨k, rfl⟩ := Nat.exists_eq_add_of_le hle
      have hk : k < nops.length := by omega
      refine ⟨nops[k], ?_, hnops _ (List.getElem_mem hk)⟩
      rw [hget, List.getElem?_append_left hk, List.getElem?_eq_getElem hk]
  · rintro ⟨hle, hpop, hnops⟩
    obtain ⟨hlt, hpop⟩ := List.getElem?_eq_some_iff.mp hpop
    refine discardBehind_eq_ok_iff.mpr
      ⟨(list.drop start).take (p - start), list.drop (p + 1), ?_, fun i hi => ?_, ?_⟩
    · rw [← hpop, ← List.drop_eq_getElem_cons hlt]
      have hsplit := List.take_append_drop (p - start) (list.drop start)
      rw [List.drop_drop, Nat.add_sub_cancel' hle] at hsplit
      exact hsplit.symm
    · obtain ⟨k, hk⟩ := List.mem_iff_getElem?.mp hi
      rw [List.getElem?_take, Option.ite_none_right_eq_some, List.getElem?_drop] at hk
      obtain ⟨hkp, hk⟩ := hk
      obtain ⟨j, hj, hnop⟩ := hnops (start + k) (Nat.le_add_right _ _) (by omega)
      rw [hk] at hj
      exact Option.some.inj hj ▸ hnop
    · rw [List.length_take, List.length_drop]
      omega

namespace Code

variable {code : Code} {anchor discard : Nat} {sequence : Instructions}

/-- Whether the first instruction behind the anchor that does something is a `pop`, at `discard`, to
which nothing refers: no branch and no switch, no start and no entry of a handler, no frame. -/
structure Discards (code : Code) (anchor discard : Nat) : Prop where
  lt : anchor < discard
  nops : ∀ p, anchor < p → p < discard → ∃ i, code.instructions[p]? = some i ∧ i.isNop
  pop : code.instructions[discard]? = some .pop
  notTarget : ∀ i ∈ code.instructions, discard ∉ i.targets
  notAnchor : discard ∉ code.anchors

theorem Discards.unique {discard' : Nat} (h : code.Discards anchor discard)
    (h' : code.Discards anchor discard') : discard = discard' := by
  -- The `pop` that comes first would be one of the instructions before the other.
  have hle : ∀ {p q : Nat}, code.Discards anchor p → code.Discards anchor q → p ≤ q := by
    intro p q hp hq
    by_contra hlt
    obtain ⟨i, hi, hnop⟩ := hp.nops q hq.lt (not_le.mp hlt)
    obtain rfl := Option.some.inj (hi.symm.trans hq.pop)
    exact absurd hnop (by decide)
  exact Nat.le_antisymm (hle h h') (hle h' h)

/-- The instruction to take out may be looked for in the body that has been extended. -/
theorem discards_insert_iff {method : String} {removed : Nat}
    (hanchor : anchor < code.instructions.length) (hsequence : ∀ i ∈ sequence, i.targets = []) :
    (discardBehind method (anchor + 1 + sequence.length)
          ((code.insert (anchor + 1) sequence).instructions.drop (anchor + 1 + sequence.length)) =
        .ok removed ∧ (code.insert (anchor + 1) sequence).isReferenced removed = false) ↔
      ∃ discard, removed = discard + sequence.length ∧ code.Discards anchor discard := by
  have hbehind : ∀ p, anchor < p →
      Renumber.inserted (anchor + 1) sequence.length p = p + sequence.length := by
    intro p hp
    exact if_pos (by omega)
  have hget : ∀ p, anchor < p →
      (code.insert (anchor + 1) sequence).instructions[p + sequence.length]? =
        code.instructions[p]?.map
          (Instruction.mapTargets (Renumber.inserted (anchor + 1) sequence.length)) := by
    intro p hp
    rw [← hbehind p hp]
    exact Instructions.getElem?_insert hanchor p
  have hpop : ∀ p, anchor < p →
      ((code.insert (anchor + 1) sequence).instructions[p + sequence.length]? = some .pop ↔
        code.instructions[p]? = some .pop) := by
    intro p hp
    rw [hget p hp, Option.map_eq_some_iff]
    simp only [Instruction.mapTargets_eq_pop_iff, exists_eq_right]
  have hnop : ∀ p, anchor < p →
      ((∃ i, (code.insert (anchor + 1) sequence).instructions[p + sequence.length]? = some i ∧
        i.isNop) ↔ ∃ i, code.instructions[p]? = some i ∧ i.isNop) := by
    intro p hp
    rw [hget p hp]
    simp only [Option.map_eq_some_iff]
    constructor
    · rintro ⟨_, ⟨i, hi, rfl⟩, hnop⟩
      exact ⟨i, hi, (Instruction.isNop_mapTargets _ i).symm.trans hnop⟩
    · rintro ⟨i, hi, hnop⟩
      exact ⟨_, ⟨i, hi, rfl⟩, (Instruction.isNop_mapTargets _ i).trans hnop⟩
  rw [discardBehind_drop_eq_ok_iff]
  constructor
  · rintro ⟨⟨hle, hremoved, hnops⟩, hfree⟩
    obtain ⟨discard, rfl⟩ : ∃ discard, removed = discard + sequence.length :=
      ⟨removed - sequence.length, by omega⟩
    have hlt : anchor < discard := by omega
    rw [← hbehind discard hlt, isReferenced_insert hsequence, isReferenced_eq_false_iff] at hfree
    refine ⟨discard, rfl, hlt, fun p hp hpd => ?_, (hpop discard hlt).mp hremoved, hfree.1, hfree.2⟩
    exact (hnop p hp).mp (hnops (p + sequence.length) (by omega) (by omega))
  · rintro ⟨discard, rfl, h⟩
    refine ⟨⟨by have := h.lt; omega, (hpop discard h.lt).mpr h.pop, fun q hq hqd => ?_⟩, ?_⟩
    · obtain ⟨p, rfl⟩ : ∃ p, q = p + sequence.length := ⟨q - sequence.length, by omega⟩
      exact (hnop p (by omega)).mpr (h.nops p (by omega) (by omega))
    · rw [← hbehind discard h.lt, isReferenced_insert hsequence, isReferenced_eq_false_iff]
      exact ⟨h.notTarget, h.notAnchor⟩

end Code

/-! ### The spliced body -/

/-- Whether `code'` is `code` with `call` behind the anchor and without the `pop` at `discard`. -/
structure Code.IsSpliced (code code' : Code) (anchor discard : Nat)
    (call : Instructions) : Prop where
  lt : anchor < discard
  anchored : ∃ callee dispatch, code.instructions[anchor]? = some (.invoke callee dispatch)
  nops : ∀ p, anchor < p → p < discard → ∃ i, code.instructions[p]? = some i ∧ i.isNop
  pop : code.instructions[discard]? = some .pop
  moved : ∀ p ≠ discard, code'.instructions[Renumber.spliced anchor call.length discard p]? =
    code.instructions[p]?.map
      (Instruction.mapTargets (Renumber.spliced anchor call.length discard))
  put : ∀ k < call.length, code'.instructions[anchor + 1 + k]? = call[k]?
  handlers : code'.handlers = code.handlers.map
    (Handler.mapPositions (Renumber.spliced anchor call.length discard))
  notEntered : ∀ handler ∈ code.handlers, handler.entry ≠ discard
  notTarget : ∀ i ∈ code.instructions, discard ∉ i.targets
  notFramed : ∀ frame ∈ code.frames, frame.target ≠ discard

/-- A splice takes the first instruction out that does something, which is a `pop`. -/
theorem IsSplice.exists_discards [Build] {method : Method} {anchor : Nat} {injection : Injection}
    {spliced : Spliced} {draft draft' : Draft} {m : HandlerMembers}
    (h : IsSplice method anchor injection spliced draft draft' m) :
    ∃ discard, spliced.removed = discard + 11 ∧ draft.code.Discards anchor discard := by
  obtain ⟨_, _, _, hanchor, -⟩ := h.callee
  obtain ⟨_, hremove⟩ := h.code
  exact (Code.discards_insert_iff (List.getElem?_eq_some_iff.mp hanchor).1 m.targets_call).mp
    ⟨h.removed, (Code.remove_eq_ok_iff.mp hremove).2.1⟩

/-- A splice that succeeds leaves a spliced body. -/
theorem IsSplice.isSpliced [Build] {method : Method} {anchor : Nat} {injection : Injection}
    {spliced : Spliced} {draft draft' : Draft} {m : HandlerMembers}
    (h : IsSplice method anchor injection spliced draft draft' m) : ∃ discard,
      spliced.removed = discard + 11 ∧ draft.code.IsSpliced draft'.code anchor discard
        (m.call spliced.slot .int) := by
  obtain ⟨callee, dispatch, -, hanchor, -⟩ := h.callee
  obtain ⟨discard, hdiscard, hdiscards⟩ := h.exists_discards
  obtain ⟨i, hremove⟩ := h.code
  obtain ⟨-, -, hcode⟩ := Code.remove_eq_ok_iff.mp hremove
  rw [hdiscard] at hcode
  have hlt := hdiscards.lt
  have hplace : anchor + 1 ≤ draft.code.instructions.length :=
    (List.getElem?_eq_some_iff.mp hanchor).1
  refine ⟨discard, hdiscard, hlt, ⟨callee, dispatch, hanchor⟩, hdiscards.nops, hdiscards.pop,
    ?moved, ?put, ?handlers, ?notEntered, hdiscards.notTarget, ?notFramed⟩
  case moved =>
    -- First all instructions are renumbered by the insertion, then by the removal.
    intro p hp
    have hne : Renumber.inserted (anchor + 1) 11 p ≠ discard + 11 := by
      rw [Renumber.inserted]
      split
      all_goals omega
    have hinserted : (draft.code.insert (anchor + 1) (m.call spliced.slot .int)).instructions[
        Renumber.inserted (anchor + 1) 11 p]? = draft.code.instructions[p]?.map
          (Instruction.mapTargets (Renumber.inserted (anchor + 1) 11)) :=
      Instructions.getElem?_insert hplace p
    rw [hcode]
    show (List.map _ _)[Renumber.removed (discard + 11) (Renumber.inserted (anchor + 1) 11 p)]? = _
    rw [List.getElem?_map, Renumber.getElem?_removed hne, hinserted, Option.map_map]
    congr 1
    funext i
    exact Instruction.mapTargets_mapTargets _ _ i
  case put =>
    -- The removal is behind the call, and the call has no targets.
    intro k hk
    have hk' : k < 11 := hk
    have hmoved : Renumber.removed (discard + 11) (anchor + 1 + k) = anchor + 1 + k :=
      if_neg (by omega)
    rw [hcode]
    show (List.map _ _)[anchor + 1 + k]? = _
    rw [List.getElem?_map, ← hmoved, Renumber.getElem?_removed (by omega)]
    show Option.map _ (Instructions.insert _ _ _)[anchor + 1 + k]? = _
    rw [Instructions.getElem?_insert_add hplace hk, ← List.getElem?_map]
    rfl
  case handlers =>
    rw [hcode]
    show List.map _ (List.map _ _) = _
    rw [List.map_map]
    rfl
  case notEntered =>
    rintro handler hh rfl
    exact hdiscards.notAnchor (Code.mem_anchors_iff.mpr (.inl ⟨handler, hh, .inr rfl⟩))
  case notFramed =>
    rintro frame hframe rfl
    exact hdiscards.notAnchor
      (Code.mem_anchors_iff.mpr (.inr ⟨frame, hframe, List.mem_cons_self⟩))

end ClassGraft
