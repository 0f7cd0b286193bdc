/-
What handlers protect and where variables are in scope.

A handler protects a range of instructions, and a local variable is in scope in one (`Span`).  An
edit moves both ends of a range by the rule for all positions, and with it the instructions: those
that stay are covered as they were (`Span.covers_mapPositions`), and those that are put in are
covered as the instruction in front of them (`Span.covers_inserted_iff`).

`Numbered.scopes_follow` says so of the ranges in all tables of a body, for instructions that are
told apart by their serial numbers, after one edit and, of those that stay, through a whole run
(`Numbered.scopes_run`).
-/
import ClassGraft.Proofs.References

namespace ClassGraft

/-! ### Order around an instruction that stays -/

namespace Renumber

theorem inserted_le_inserted_iff {place count p q : Nat} :
    inserted place count q ≤ inserted place count p ↔ q ≤ p :=
  StrictMono.le_iff_le fun _ _ => inserted_strictMono

/-- Only the instruction taken out falls together with the next one. -/
theorem removed_le_removed_iff {place p q : Nat} (hp : p ≠ place) :
    removed place q ≤ removed place p ↔ q ≤ p := by
  unfold removed
  split
  all_goals
    split
    all_goals omega

end Renumber

/-- The range of instructions from `start` on and before `stop`. -/
structure Span where
  start : Nat
  stop : Nat
  deriving DecidableEq

namespace Span

/-- Whether the instruction at a position stands in a range. -/
def Covers (r : Span) (p : Nat) : Prop := r.start ≤ p ∧ p < r.stop

instance (r : Span) (p : Nat) : Decidable (r.Covers p) := inferInstanceAs (Decidable (_ ∧ _))

def mapPositions (f : Nat → Nat) (r : Span) : Span := ⟨f r.start, f r.stop⟩

/-- An instruction is covered as it was, if no position has come to its other side. -/
theorem covers_mapPositions {f : Nat → Nat} {p : Nat} (hf : ∀ q, f q ≤ f p ↔ q ≤ p) (r : Span) :
    (r.mapPositions f).Covers (f p) ↔ r.Covers p := by
  have hstop : f p < f r.stop ↔ p < r.stop := by
    rw [← not_le, hf, not_le]
  exact and_congr (hf r.start) hstop

/-- What is put in is covered exactly if the instruction in front of it is. -/
theorem covers_inserted_iff {place count k : Nat} (hk : k < count) (r : Span) :
    (r.mapPositions (Renumber.inserted place count)).Covers (place + k) ↔
      0 < place ∧ r.Covers (place - 1) := by
  -- A range that starts at `place` then starts behind what is put in, and one that stops there
  -- stops behind it as well.
  have hstart : Renumber.inserted place count r.start ≤ place + k ↔ r.start < place := by
    rw [Renumber.inserted]
    split
    all_goals omega
  have hstop : place + k < Renumber.inserted place count r.stop ↔ place ≤ r.stop := by
    rw [Renumber.inserted]
    split
    all_goals omega
  rw [Covers, Covers, mapPositions, hstart, hstop]
  omega

end Span

/-! ### The ranges of a body -/

/-- The instructions that a handler protects. -/
def Handler.span (handler : Handler) : Span := ⟨handler.start, handler.stop⟩

/-- The instructions at which a local variable is in scope. -/
def LocalVariable.span (entry : LocalVariable) : Span := ⟨entry.start, entry.stop⟩

/-- Whether a relation holds between every range of a body and the range in the same place of the
same table of another. -/
structure Code.RelatesSpans (code code' : Code) (R : Span → Span → Prop) : Prop where
  handlers : List.Forall₂ (fun handler handler' => R handler.span handler'.span)
    code.handlers code'.handlers
  scopes : List.Forall₂ (fun a a' => List.Forall₂
    (fun entry entry' => R entry.span entry'.span) a.scopes a'.scopes)
    code.attributes code'.attributes

theorem CodeAttribute.scopes_mapPositions (f : Nat → Nat) (a : CodeAttribute) :
    (a.mapPositions f).scopes = a.scopes.map (LocalVariable.mapPositions f) := by
  cases a
  all_goals rfl

theorem CodeAttribute.scopes_dropLinesFrom (limit : Nat) (a : CodeAttribute) :
    (a.dropLinesFrom limit).scopes = a.scopes := by
  cases a
  all_goals rfl

namespace Numbered

variable {s s' : Numbered} {edits : List Edit} {place p n : Nat}

/-- Where references follow, every range is renumbered at both ends. -/
theorem Follows.relatesSpans {f : Nat → Nat} {taken : List Nat}
    {goesOn : Option Nat → Option Nat} (h : s.Follows s' f taken goesOn) {R : Span → Span → Prop}
    (hR : ∀ r : Span, R r (r.mapPositions f)) : s.code.RelatesSpans s'.code R where
  handlers := by
    rw [h.handlers, List.forall₂_map_right_iff]
    exact List.forall₂_same.mpr fun handler _ => hR handler.span
  scopes := by
    rw [h.attributes, List.forall₂_map_right_iff]
    refine List.forall₂_same.mpr fun a _ => ?_
    -- Line numbers may have been dropped, but no scope goes with them.
    have hscopes : (if taken = [] then a.mapPositions f
        else (a.mapPositions f).dropLinesFrom s'.count).scopes =
          a.scopes.map (LocalVariable.mapPositions f) := by
      split
      · exact a.scopes_mapPositions f
      · rw [CodeAttribute.scopes_dropLinesFrom, CodeAttribute.scopes_mapPositions]
    rw [hscopes, List.forall₂_map_right_iff]
    exact List.forall₂_same.mpr fun entry _ => hR entry.span

/-! ### Covered instructions -/

/-- Whether a range covers the instruction of a serial number. -/
def Covers (s : Numbered) (r : Span) (n : Nat) : Prop := ∃ p, s.serial? p = some n ∧ r.Covers p

theorem lt_count_of_serial? (hn : s.serial? p = some n) : p < s.count :=
  (List.getElem?_eq_some_iff.mp hn).1.trans_eq s.length_serials

theorem exists_serial? (hn : n ∈ s.serials) : ∃ p, s.serial? p = some n :=
  List.mem_iff_getElem?.mp hn

theorem covers_iff (hn : s.serial? p = some n) (r : Span) : s.Covers r n ↔ r.Covers p := by
  constructor
  · rintro ⟨q, hq, hcovers⟩
    obtain rfl := serial?_inj (lt_count_of_serial? hq) (hq.trans hn.symm)
    exact hcovers
  · exact fun hcovers => ⟨p, hn, hcovers⟩

/-- An instruction that is not taken out is found again at its new number. -/
theorem Follows.serial? {f : Nat → Nat} {taken : List Nat} {goesOn : Option Nat → Option Nat}
    (h : s.Follows s' f taken goesOn) (hn : s.serial? p = some n) (htaken : n ∉ taken) :
    s'.serial? (f p) = some n :=
  (h.stays p _ n (List.getElem?_eq_getElem (lt_count_of_serial? hn)) hn htaken).1

/-- Where references follow, every range covers an instruction as it did, if no position has come to
the other side of it. -/
theorem Follows.covers_iff {f : Nat → Nat} {taken : List Nat} {goesOn : Option Nat → Option Nat}
    (h : s.Follows s' f taken goesOn) (hn : s.serial? p = some n) (htaken : n ∉ taken)
    (hf : ∀ q, f q ≤ f p ↔ q ≤ p) (r : Span) :
    s'.Covers (r.mapPositions f) n ↔ s.Covers r n := by
  rw [Numbered.covers_iff (h.serial? hn htaken), Numbered.covers_iff hn]
  exact Span.covers_mapPositions hf r

/-! ### Runs -/

/-- An edit leaves all positions on their side of an instruction that it does not take out. -/
theorem renumber_le_renumber_iff {e : Edit} (hp : s.takenAt e ≠ some p) (q : Nat) :
    s.renumber e q ≤ s.renumber e p ↔ q ≤ p := by
  rcases s.step_cases e with ⟨place, sequence, -, -, hnumber, -⟩ |
    ⟨method, place, i, code', -, -, hnumber, htaken⟩ | ⟨-, hnumber, -⟩
  · rw [hnumber]
    exact Renumber.inserted_le_inserted_iff
  · rw [hnumber]
    rw [htaken] at hp
    exact Renumber.removed_le_removed_iff fun heq => hp (congrArg some heq.symm)
  · rw [hnumber]
    exact Iff.rfl

theorem moved_le_moved_iff (hedits : s.Allows edits) (hn : s.serial? p = some n)
    (htaken : n ∉ s.taken edits) (q : Nat) : s.moved edits q ≤ s.moved edits p ↔ q ≤ p := by
  -- After the first edit the instruction has another position and the same serial number.
  induction edits generalizing s p q with
  | nil => exact Iff.rfl
  | cons e edits ih =>
    rw [taken, List.mem_append, not_or] at htaken
    have hp : s.takenAt e ≠ some p := by
      intro heq
      rw [heq, Option.bind_some, hn] at htaken
      exact htaken.1 (List.mem_singleton_self n)
    have hn' := (follows_step hedits.1).serial? hn htaken.1
    exact (ih hedits.2 hn' htaken.2 _).trans (renumber_le_renumber_iff hp q)

/-- Through a run, every range covers the instructions that stay just as it did. -/
theorem scopes_run (hedits : s.Allows edits) :
    s.code.RelatesSpans (s.run edits).code fun r r' =>
      ∀ n ∈ s.serials, n ∉ s.taken edits → ((s.run edits).Covers r' n ↔ s.Covers r n) := by
  have hfollows := follows_of_allows hedits
  refine hfollows.relatesSpans fun r n hn htaken => ?_
  obtain ⟨p, hp⟩ := exists_serial? hn
  exact hfollows.covers_iff hp htaken (moved_le_moved_iff hedits hp htaken) r

/-! ### Single edits -/

/-- What an insertion puts in, anywhere in the code and whatever its targets are, is protected and
in scope as the instruction in front of it, and all other instructions as they were; a removal
leaves all that stays protected and in scope as it was, and so does a run of edits. -/
theorem scopes_follow (s : Numbered) :
    (∀ place ≤ s.count, ∀ sequence : Instructions,
      (∀ k < sequence.length,
        (s.insert place sequence).code.instructions[place + k]? = sequence[k]? ∧
        (s.insert place sequence).serial? (place + k) = some (s.next + k)) ∧
      s.code.RelatesSpans (s.insert place sequence).code fun r r' =>
        (∀ n ∈ s.serials, (s.insert place sequence).Covers r' n ↔ s.Covers r n) ∧
        ∀ k < sequence.length, (s.insert place sequence).Covers r' (s.next + k) ↔
          0 < place ∧ r.Covers (place - 1)) ∧
    (∀ method place i code', ∀ h : s.code.remove method place = .ok (i, code'),
      s.code.RelatesSpans (s.without h).code fun r r' =>
        ∀ n ∈ (s.without h).serials, (s.without h).Covers r' n ↔ s.Covers r n) ∧
    ∀ edits, s.Allows edits → s.code.RelatesSpans (s.run edits).code fun r r' =>
      ∀ n ∈ s.serials, n ∉ s.taken edits → ((s.run edits).Covers r' n ↔ s.Covers r n) := by
  refine ⟨fun place hplace sequence => ?_, fun method place i code' h => ?_,
    fun edits hedits => scopes_run hedits⟩
  · refine ⟨fun k hk => getElem?_insert hplace hk, ?_⟩
    have hfollows := follows_insert hplace sequence
    refine hfollows.relatesSpans fun r => ⟨fun n hn => ?_, fun k hk => ?_⟩
    · obtain ⟨p, hp⟩ := exists_serial? hn
      exact hfollows.covers_iff hp List.not_mem_nil (fun _ => Renumber.inserted_le_inserted_iff) r
    · rw [Numbered.covers_iff (getElem?_insert hplace hk).2]
      exact Span.covers_inserted_iff hk r
  · have hfollows := follows_without h
    refine hfollows.relatesSpans fun r n hn => ?_
    obtain ⟨p, hne, hp⟩ := List.mem_eraseIdx_iff_getElem?.mp hn
    have htaken : n ∉ (s.serial? place).toList := by
      intro hmem
      exact hne (serial?_inj (lt_count_of_serial? hp) (hp.trans (Option.mem_toList.mp hmem).symm))
    exact hfollows.covers_iff hp htaken (fun _ => Renumber.removed_le_removed_iff hne) r

/-- A body with one handler that protects all but the last instruction, one that protects the last
one, and a variable that is in scope from the third one on. -/
def guardedBody : Code where
  maxStack := 1
  maxLocals := 2
  instructions := [.other 4 [], .pop, .other 0 [], .exit none]
  handlers := [⟨0, 3, 3, 0⟩, ⟨3, 4, 3, 0⟩]
  attributes := [.localVariables 2 [⟨2, 4, 3, 4, 1⟩]]

/-- What is put in front of the last instruction is protected by the first handler and not by the
second; the `pop` may go, and the third instruction is still the first one in scope. -/
theorem scopes_follow_guardedBody :
    3 ≤ (ofCode guardedBody).count ∧
    ((ofCode guardedBody).insert 3 [.other 0 [], .other 0 []]).code.handlers =
      [⟨0, 5, 5, 0⟩, ⟨5, 6, 5, 0⟩] ∧
    ((ofCode guardedBody).insert 3 [.other 0 [], .other 0 []]).Covers ⟨0, 5⟩ 5 ∧
    ¬((ofCode guardedBody).insert 3 [.other 0 [], .other 0 []]).Covers ⟨5, 6⟩ 5 ∧
    ∃ code', ∃ h : guardedBody.remove "m" 1 = .ok (.pop, code'),
      code'.attributes = [.localVariables 2 [⟨1, 3, 3, 4, 1⟩]] ∧
      2 ∈ ((ofCode guardedBody).without h).serials ∧
      ((ofCode guardedBody).without h).Covers ⟨1, 3⟩ 2 := by
  obtain ⟨hinsert, hremove, -⟩ := scopes_follow (ofCode guardedBody)
  have hplace : 3 ≤ (ofCode guardedBody).count := by decide
  obtain ⟨-, hput⟩ := hinsert 3 hplace [.other 0 [], .other 0 []]
  have hhandlers : ((ofCode guardedBody).insert 3 [.other 0 [], .other 0 []]).code.handlers =
      [⟨0, 5, 5, 0⟩, ⟨5, 6, 5, 0⟩] := by decide
  have hspans := hput.handlers
  rw [hhandlers] at hspans
  obtain ⟨⟨-, hfirst⟩, hrest⟩ := List.forall₂_cons.mp hspans
  obtain ⟨⟨-, hsecond⟩, -⟩ := List.forall₂_cons.mp hrest
  refine ⟨hplace, hhandlers, (hfirst 1 (by decide)).mpr (by decide),
    fun h => absurd ((hsecond 1 (by decide)).mp h) (by decide), _, rfl, by decide, by decide, ?_⟩
  obtain ⟨hscopes, -⟩ := List.forall₂_cons.mp (hremove "m" 1 _ _ rfl).scopes
  exact ((List.forall₂_cons.mp hscopes).1 2 (by decide)).mpr ⟨2, by decide, by decide⟩

end Numbered

end ClassGraft
