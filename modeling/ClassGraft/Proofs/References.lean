/-
References that follow their instructions.

A body that is edited is followed with a serial number on each of its instructions (`Numbered`):
an instruction keeps its number however often it is renumbered, and what is put in gets numbers of
its own.  So a position refers to an instruction by its serial number, or to the end of the code,
which has none (`Numbered.serial?`).

Whatever edits are made (`Edit`, where a removal may be refused), targets, starts and entries of
handlers, and frames refer to the instruction that they referred to.  Ends of handlers, line numbers
and scopes of variables do as well until it is taken out, and then go on to what stood behind it
(`Numbered.followed`).  That is so of one edit (`Numbered.follows_step`), and as it is transitive
(`Numbered.Follows.trans`) also of a run of them (`Numbered.follows_run`).
-/
import ClassGraft.Proofs.Relocation

namespace ClassGraft

/-! ### Numbered bodies -/

/-- A body with a serial number on each of its instructions. -/
structure Numbered where
  code : Code
  serials : List Nat
  /-- The next serial number that is free. -/
  next : Nat
  length_serials : serials.length = code.instructions.length
  nodup : serials.Nodup
  lt_next : ∀ n ∈ serials, n < next

/-- An edit of a body.  A removal names the method, for its refusal. -/
inductive Edit where
  | insert (place : Nat) (sequence : Instructions)
  | remove (method : String) (place : Nat)

namespace Numbered

/-- A body whose instructions are numbered from first to last. -/
def ofCode (code : Code) : Numbered where
  code := code
  serials := List.range code.instructions.length
  next := code.instructions.length
  length_serials := List.length_range
  nodup := List.nodup_range
  lt_next := fun _ => List.mem_range.mp

/-- The number of instructions. -/
def count (s : Numbered) : Nat := s.code.instructions.length

/-- The serial number of the instruction at a position; the end of the code has none. -/
def serial? (s : Numbered) (p : Nat) : Option Nat := s.serials[p]?

/-- Puts instructions in, with new serial numbers. -/
def insert (s : Numbered) (place : Nat) (sequence : Instructions) : Numbered where
  code := s.code.insert place sequence
  serials := s.serials.take place ++ List.range' s.next sequence.length ++ s.serials.drop place
  next := s.next + sequence.length
  length_serials := by
    show _ = (Instructions.insert s.code.instructions place sequence).length
    rw [Instructions.length_insert, ← s.length_serials]
    simp only [List.length_append, List.length_take, List.length_drop, List.length_range']
    omega
  nodup := by
    -- The new numbers begin where the old ones end.
    have hfresh : ∀ n ∈ List.range' s.next sequence.length, n ∉ s.serials := by
      intro n hn hmem
      have := (List.mem_range'_1.mp hn).1
      have := s.lt_next n hmem
      omega
    have hperm : (s.serials.take place ++ List.range' s.next sequence.length ++
        s.serials.drop place).Perm (List.range' s.next sequence.length ++ s.serials) := by
      rw [← List.take_append_drop place s.serials, ← List.append_assoc]
      simp only [List.take_append_drop]
      exact List.perm_append_comm.append_right _
    -- Where they are put does not matter for whether a number occurs twice.
    refine hperm.nodup_iff.mpr (List.nodup_append.mpr ⟨List.nodup_range', s.nodup, ?_⟩)
    rintro n hn _ hmem rfl
    exact hfresh n hn hmem
  lt_next := by
    intro n hn
    rw [List.mem_append, List.mem_append] at hn
    rcases hn with (hn | hn) | hn
    · exact Nat.lt_add_right _ (s.lt_next n (List.mem_of_mem_take hn))
    · exact (List.mem_range'_1.mp hn).2
    · exact Nat.lt_add_right _ (s.lt_next n (List.mem_of_mem_drop hn))

/-- The body that a removal leaves. -/
def without (s : Numbered) {method : String} {place : Nat} {i : Instruction} {code' : Code}
    (h : s.code.remove method place = .ok (i, code')) : Numbered where
  code := code'
  serials := s.serials.eraseIdx place
  next := s.next
  length_serials := by
    obtain ⟨hi, -, rfl⟩ := Code.remove_eq_ok_iff.mp h
    have hplace := (List.getElem?_eq_some_iff.mp hi).1
    show _ = (List.map _ (s.code.instructions.eraseIdx place)).length
    rw [List.length_map, List.length_eraseIdx_of_lt hplace,
      List.length_eraseIdx_of_lt (s.length_serials ▸ hplace), s.length_serials]
  nodup := s.nodup.eraseIdx place
  lt_next := fun n hn => s.lt_next n (List.mem_of_mem_eraseIdx hn)

/-- Makes an edit.  A removal that is refused changes nothing. -/
def step (s : Numbered) : Edit → Numbered
  | .insert place sequence => s.insert place sequence
  | .remove method place =>
    match h : s.code.remove method place with
    | .ok _ => s.without h
    | .error _ => s

/-- The place at which an edit takes an instruction out. -/
def takenAt (s : Numbered) : Edit → Option Nat
  | .insert .. => none
  | .remove method place =>
    match s.code.remove method place with
    | .ok _ => some place
    | .error _ => none

/-- The new number of a position. -/
def renumber (s : Numbered) : Edit → Nat → Nat
  | .insert place sequence => Renumber.inserted place sequence.length
  | .remove method place =>
    match s.code.remove method place with
    | .ok _ => Renumber.removed place
    | .error _ => id

/-- What a reference to an instruction refers to after an edit, if it goes on to what stands behind
an instruction that is taken out. -/
def goesOn (s : Numbered) (e : Edit) (n : Option Nat) : Option Nat :=
  match s.takenAt e with
  | some place => if n = s.serial? place then s.serial? (place + 1) else n
  | none => n

/-- Whether instructions are put in at a place inside the code, with targets inside the code. -/
def Fits (s : Numbered) : Edit → Prop
  | .insert place sequence => place ≤ s.count ∧
      ∀ i ∈ sequence, ∀ t ∈ i.targets, t < s.count + sequence.length
  | .remove .. => True

/-! ### Runs -/

def run (s : Numbered) : List Edit → Numbered
  | [] => s
  | e :: edits => (s.step e).run edits

/-- Whether every edit fits the body that it is made to. -/
def Allows (s : Numbered) : List Edit → Prop
  | [] => True
  | e :: edits => s.Fits e ∧ (s.step e).Allows edits

/-- The new number of a position after a run. -/
def moved (s : Numbered) : List Edit → Nat → Nat
  | [], p => p
  | e :: edits, p => (s.step e).moved edits (s.renumber e p)

/-- The instructions that a run takes out. -/
def taken (s : Numbered) : List Edit → List Nat
  | [] => []
  | e :: edits => ((s.takenAt e).bind s.serial?).toList ++ (s.step e).taken edits

/-- What a reference to an instruction refers to after a run, if it goes on to what stands behind
whenever its instruction is taken out. -/
def followed (s : Numbered) : List Edit → Option Nat → Option Nat
  | [], n => n
  | e :: edits, n => (s.step e).followed edits (s.goesOn e n)

/-- Whether all references of a body follow their instructions into another, where positions are
renumbered by `f`, the instructions in `taken` have been taken out, and what referred to one of them
goes on by `goesOn`. -/
structure Follows (s s' : Numbered) (f : Nat → Nat) (taken : List Nat)
    (goesOn : Option Nat → Option Nat) : Prop where
  /-- The end of the code stays the end, and nothing crosses it but by a removal. -/
  finish : f s.count = s'.count
  inside : ∀ p ≤ s.count, f p ≤ s'.count
  behind : ∀ p, s.count ≤ p → s'.count ≤ f p
  within : taken = [] → ∀ p < s.count, f p < s'.count
  /-- An instruction that has not been taken out stands at its new number, and its targets follow
  theirs. -/
  stays : ∀ p i n, s.code.instructions[p]? = some i → s.serial? p = some n → n ∉ taken →
    s'.serial? (f p) = some n ∧ s'.code.instructions[f p]? = some (i.mapTargets f) ∧
      ∀ t ∈ i.targets, s'.serial? (f t) = s.serial? t
  handlers : s'.code.handlers = s.code.handlers.map (Handler.mapPositions f)
  /-- Line numbers are dropped only at the end of the code, and only with an instruction. -/
  attributes : s'.code.attributes = s.code.attributes.map fun a =>
    if taken = [] then a.mapPositions f else (a.mapPositions f).dropLinesFrom s'.count
  anchors : ∀ p ∈ s.code.anchors, s'.serial? (f p) = s.serial? p
  /-- All other positions, too, where nothing has been taken out. -/
  others : ∀ p ≤ s.count, s'.serial? (f p) = goesOn (s.serial? p)

/-! ### Single edits -/

variable {s : Numbered} {edits : List Edit} {place p : Nat}

/-- What an edit does: it puts instructions in, takes one out, or changes nothing. -/
theorem step_cases (s : Numbered) (e : Edit) :
    (∃ place sequence, e = .insert place sequence ∧ s.step e = s.insert place sequence ∧
      s.renumber e = Renumber.inserted place sequence.length ∧ s.takenAt e = none) ∨
    (∃ method place i code', ∃ h : s.code.remove method place = .ok (i, code'),
      s.step e = s.without h ∧ s.renumber e = Renumber.removed place ∧
        s.takenAt e = some place) ∨
    s.step e = s ∧ s.renumber e = id ∧ s.takenAt e = none := by
  cases e with
  | insert place sequence => exact .inl ⟨place, sequence, rfl, rfl, rfl, rfl⟩
  | remove method place =>
    refine .inr ?_
    -- `step` matches with a proof that the removal succeeds, so its branches are told apart by
    -- hand.
    cases h : s.code.remove method place with
    | error fault =>
      refine .inr ⟨?_, by rw [renumber, h], by rw [takenAt, h]⟩
      rw [step]
      split
      · next hok => exact absurd (h.symm.trans hok) (by simp)
      · rfl
    | ok x =>
      refine .inl ⟨method, place, x.1, x.2, h, ?_, by rw [renumber, h], by rw [takenAt, h]⟩
      rw [step]
      split
      · next hok =>
        obtain rfl := Except.ok.inj (h.symm.trans hok)
        rfl
      · next herror => exact absurd (h.symm.trans herror) (by simp)

theorem count_insert (s : Numbered) (place : Nat) (sequence : Instructions) :
    (s.insert place sequence).count = s.count + sequence.length :=
  Instructions.length_insert _ _ _

theorem lt_count_of_remove {method : String} {i : Instruction} {code' : Code}
    (h : s.code.remove method place = .ok (i, code')) : place < s.count :=
  (List.getElem?_eq_some_iff.mp (Code.remove_eq_ok_iff.mp h).1).1

theorem count_without {method : String} {i : Instruction} {code' : Code}
    (h : s.code.remove method place = .ok (i, code')) : (s.without h).count + 1 = s.count := by
  have hlt := lt_count_of_remove h
  have hcount := (s.without h).length_serials
  have hserials : (s.without h).serials.length = s.serials.length - 1 :=
    List.length_eraseIdx_of_lt (s.length_serials ▸ hlt)
  have hlength := s.length_serials
  rw [count] at hlt ⊢
  rw [count, ← hcount]
  omega

/-- The end of the code stays the end when instructions are put in. -/
theorem inserted_count (h : place ≤ s.count) (sequence : Instructions) :
    Renumber.inserted place sequence.length s.count = (s.insert place sequence).count := by
  rw [count_insert, Renumber.inserted, if_pos h]

/-- The end of the code stays the end when an instruction is taken out. -/
theorem removed_count {method : String} {i : Instruction} {code' : Code}
    (h : s.code.remove method place = .ok (i, code')) :
    Renumber.removed place s.count = (s.without h).count := by
  have hcount := count_without h
  rw [Renumber.removed, if_pos (lt_count_of_remove h)]
  omega

/-- Every instruction keeps its serial number when others are put in. -/
theorem serial?_insert (h : place ≤ s.count) (sequence : Instructions) (p : Nat) :
    (s.insert place sequence).serial? (Renumber.inserted place sequence.length p) =
      s.serial? p := by
  have hplace : place ≤ s.serials.length := s.length_serials ▸ h
  have hserial : (s.insert place sequence).serials[Renumber.inserted place
      (List.range' s.next sequence.length).length p]? = s.serials[p]? :=
    Renumber.getElem?_inserted hplace p
  rwa [List.length_range'] at hserial

/-- Every other instruction keeps its serial number when one is taken out. -/
theorem serial?_without {method : String} {i : Instruction} {code' : Code}
    (h : s.code.remove method place = .ok (i, code')) (hp : p ≠ place) :
    (s.without h).serial? (Renumber.removed place p) = s.serial? p :=
  Renumber.getElem?_removed hp

/-- What stood behind the instruction taken out stands in its place. -/
theorem serial?_without_self {method : String} {i : Instruction} {code' : Code}
    (h : s.code.remove method place = .ok (i, code')) :
    (s.without h).serial? (Renumber.removed place place) = s.serial? (place + 1) := by
  show (s.serials.eraseIdx place)[Renumber.removed place place]? = s.serials[place + 1]?
  rw [Renumber.removed, if_neg (Nat.lt_irrefl _), List.getElem?_eraseIdx,
    if_neg (Nat.lt_irrefl _)]

/-- Different instructions have different serial numbers. -/
theorem serial?_inj (hp : place < s.count) (h : s.serial? place = s.serial? p) : place = p :=
  (List.getElem?_inj (s.length_serials ▸ hp) s.nodup).mp h

/-! ### What one edit keeps -/

/-- Positions that are in range stay so. -/
theorem inRange_step (h : s.code.InRange) {e : Edit} (he : s.Fits e) :
    (s.step e).code.InRange := by
  rcases s.step_cases e with ⟨place, sequence, rfl, hstep, -⟩ |
    ⟨method, place, i, code', hremove, hstep, -⟩ | ⟨hstep, -⟩
  · -- What is put in has targets inside by assumption, the others are renumbered.
    obtain ⟨hplace, hsequence⟩ := he
    have hcount := s.count_insert place sequence
    rw [hstep]
    refine h.renumbered (f := Renumber.inserted place sequence.length) ?_ ?_ ?_
    · intro p hp
      show _ ≤ (s.insert place sequence).count
      rw [← inserted_count hplace]
      exact Renumber.monotone_inserted _ _ hp
    · intro i hi
      refine (Instructions.mem_insert hi).imp_left fun hi t ht => ?_
      show t ≤ (s.insert place sequence).count
      have := hsequence i hi t ht
      omega
    · intro p hp
      rwa [← Code.tablePositions_mapPositions]
  · -- All that is left has been renumbered, and the end of the code with it.
    rw [hstep]
    refine h.renumbered (f := Renumber.removed place) ?_ ?_ ?_
    · intro p hp
      show _ ≤ (s.without hremove).count
      rw [← removed_count hremove]
      exact Renumber.monotone_removed _ hp
    · obtain ⟨-, -, rfl⟩ := Code.remove_eq_ok_iff.mp hremove
      intro i hi
      obtain ⟨j, hj, rfl⟩ := List.mem_map.mp hi
      exact .inr ⟨j, List.mem_of_mem_eraseIdx hj, rfl⟩
    · exact fun p => Code.mem_tablePositions_of_remove hremove
  · rw [hstep]
    exact h

/-- A body follows itself. -/
theorem Follows.refl (s : Numbered) : s.Follows s id [] id where
  finish := rfl
  inside := fun _ hp => hp
  behind := fun _ hp => hp
  within := fun _ _ hp => hp
  stays := by
    intro p i n hi hn _
    refine ⟨hn, ?_, fun _ _ => rfl⟩
    rw [Instruction.mapTargets_id]
    exact hi
  handlers := (List.map_id _).symm
  attributes := by
    simp only [if_true, CodeAttribute.mapPositions_id, List.map_id']
  anchors := fun _ _ => rfl
  others := fun _ _ => rfl

/-- All references follow through an insertion. -/
theorem follows_insert (h : place ≤ s.count) (sequence : Instructions) :
    s.Follows (s.insert place sequence) (Renumber.inserted place sequence.length) [] id where
  finish := inserted_count h sequence
  inside := by
    rw [← inserted_count h]
    exact fun p hp => Renumber.monotone_inserted _ _ hp
  behind := by
    rw [← inserted_count h]
    exact fun p hp => Renumber.monotone_inserted _ _ hp
  within := by
    rw [← inserted_count h]
    exact fun _ p hp => Renumber.inserted_strictMono hp
  stays := by
    intro p i n hi hn _
    refine ⟨(serial?_insert h sequence p).trans hn, ?_, fun t _ => serial?_insert h sequence t⟩
    show (Instructions.insert _ _ _)[Renumber.inserted place sequence.length p]? = _
    rw [Instructions.getElem?_insert h, hi]
    rfl
  handlers := rfl
  attributes := rfl
  anchors := fun p _ => serial?_insert h sequence p
  others := fun p _ => serial?_insert h sequence p

/-- All references but those to what is taken out follow through a removal, and these go on to what
stood behind it. -/
theorem follows_without {method : String} {i : Instruction} {code' : Code}
    (h : s.code.remove method place = .ok (i, code')) :
    s.Follows (s.without h) (Renumber.removed place) (s.serial? place).toList fun n =>
      if n = s.serial? place then s.serial? (place + 1) else n := by
  have hlt := lt_count_of_remove h
  obtain ⟨n₀, hn₀⟩ : ∃ n, s.serial? place = some n :=
    ⟨_, List.getElem?_eq_getElem (s.length_serials ▸ hlt)⟩
  have htaken : (s.serial? place).toList = [n₀] := by rw [hn₀, Option.toList_some]
  obtain ⟨-, hfree, hcode⟩ := Code.remove_eq_ok_iff.mp h
  -- A position other than `place` keeps its serial number, and nothing refers to `place` that may
  -- not lose its instruction.
  refine ⟨?finish, ?inside, ?behind, ?within, ?stays, ?handlers, ?attributes, ?anchors, ?others⟩
  case finish => exact removed_count h
  case inside =>
    rw [← removed_count h]
    exact fun p hp => Renumber.monotone_removed _ hp
  case behind =>
    rw [← removed_count h]
    exact fun p hp => Renumber.monotone_removed _ hp
  case within =>
    rw [htaken]
    exact fun hnil => absurd hnil (List.cons_ne_nil _ _)
  case stays =>
    intro p j n hj hn hnot
    have hp : p ≠ place := by
      rintro rfl
      rw [hn] at hnot
      exact hnot (List.mem_singleton_self n)
    refine ⟨(serial?_without h hp).trans hn, ?_, fun t ht => serial?_without h ?_⟩
    · show code'.instructions[Renumber.removed place p]? = _
      rw [hcode]
      show (List.map _ (s.code.instructions.eraseIdx place))[Renumber.removed place p]? = _
      rw [List.getElem?_map, Renumber.getElem?_removed hp, hj]
      rfl
    · -- No branch leads to what is taken out: the removal would have been refused.
      rintro rfl
      exact (Code.not_referenced hfree).2.1 j (List.mem_of_getElem? hj) ht
  case handlers =>
    show code'.handlers = _
    rw [hcode]
    rfl
  case attributes =>
    show code'.attributes = _
    have hlength : (s.without h).count = code'.instructions.length := rfl
    simp only [htaken, List.cons_ne_nil, if_false]
    rw [hlength, hcode]
    exact List.map_map
  case anchors =>
    intro p hp
    refine serial?_without h ?_
    rintro rfl
    exact (Code.isReferenced_eq_false_iff.mp hfree).2 hp
  case others =>
    intro p _
    by_cases hp : place = p
    · -- The reference goes on to what stood behind.
      rw [← hp, if_pos rfl]
      exact serial?_without_self h
    · rw [if_neg fun heq => hp (serial?_inj hlt heq.symm)]
      exact serial?_without h (Ne.symm hp)

/-- All references follow through every edit. -/
theorem follows_step {e : Edit} (he : s.Fits e) :
    s.Follows (s.step e) (s.renumber e) ((s.takenAt e).bind s.serial?).toList (s.goesOn e) := by
  rcases s.step_cases e with ⟨place, sequence, rfl, hstep, hnumber, htaken⟩ |
    ⟨method, place, i, code', hremove, hstep, hnumber, htaken⟩ | ⟨hstep, hnumber, htaken⟩
  · have hgoesOn : s.goesOn (.insert place sequence) = id := rfl
    rw [hstep, hnumber, htaken, hgoesOn]
    exact follows_insert he.1 sequence
  · have hgoesOn : s.goesOn e =
        fun n => if n = s.serial? place then s.serial? (place + 1) else n := by
      funext n
      rw [goesOn, htaken]
    rw [hstep, hnumber, htaken, hgoesOn]
    exact follows_without hremove
  · have hgoesOn : s.goesOn e = id := by
      funext n
      rw [goesOn, htaken]
      rfl
    rw [hstep, hnumber, htaken, hgoesOn]
    exact .refl s

/-! ### What a run keeps -/

theorem anchors_of_follows {s' : Numbered} {f : Nat → Nat} {taken : List Nat}
    {goesOn : Option Nat → Option Nat} (h : s.Follows s' f taken goesOn) :
    s'.code.anchors = s.code.anchors.map f := by
  -- Whether line numbers have been dropped or not, the frames are only renumbered.
  have hframes : s'.code.frames = s.code.frames.map (StackMapFrame.mapPositions f) := by
    rw [← Code.frames_mapPositions, Code.frames, Code.frames, h.attributes]
    simp only [Code.mapPositions, List.flatMap_map]
    refine List.flatMap_congr fun a _ => ?_
    split
    · rfl
    · exact CodeAttribute.frames_dropLinesFrom _ _
  rw [← Code.anchors_mapPositions, Code.anchors, Code.anchors, hframes, h.handlers,
    Code.frames_mapPositions]
  rfl

theorem Follows.trans {s' s'' : Numbered} {f f' : Nat → Nat} {taken taken' : List Nat}
    {goesOn goesOn' : Option Nat → Option Nat} (h : s.Follows s' f taken goesOn)
    (h' : s'.Follows s'' f' taken' goesOn') :
    s.Follows s'' (f' ∘ f) (taken ++ taken') (goesOn' ∘ goesOn) where
  finish := by rw [Function.comp_apply, h.finish, h'.finish]
  inside := fun p hp => h'.inside _ (h.inside p hp)
  behind := fun p hp => h'.behind _ (h.behind p hp)
  within := by
    intro hnil p hp
    obtain ⟨hnone, hnone'⟩ := List.append_eq_nil_iff.mp hnil
    exact h'.within hnone' _ (h.within hnone p hp)
  stays := by
    intro p i n hi hn hnot
    rw [List.mem_append, not_or] at hnot
    obtain ⟨hn', hi', htargets⟩ := h.stays p i n hi hn hnot.1
    obtain ⟨hn'', hi'', htargets'⟩ := h'.stays _ _ n hi' hn' hnot.2
    rw [Instruction.mapTargets_mapTargets] at hi''
    refine ⟨hn'', hi'', fun t ht => ?_⟩
    have ht' : f t ∈ (i.mapTargets f).targets := by
      rw [Instruction.targets_mapTargets]
      exact List.mem_map_of_mem ht
    exact (htargets' _ ht').trans (htargets t ht)
  handlers := by
    rw [h'.handlers, h.handlers, List.map_map]
    rfl
  attributes := by
    rw [h'.attributes, h.attributes, List.map_map]
    refine List.map_congr_left fun a _ => ?_
    rw [Function.comp_apply]
    by_cases hnone : taken = []
    · rw [if_pos hnone, CodeAttribute.mapPositions_mapPositions, hnone, List.nil_append]
    · -- Lines that went with the first edits would go with the later ones.
      rw [if_neg hnone, if_neg fun hnil => hnone (List.append_eq_nil_iff.mp hnil).1]
      by_cases hnone' : taken' = []
      · rw [if_pos hnone', ← CodeAttribute.mapPositions_mapPositions]
        refine CodeAttribute.mapPositions_dropLinesFrom _ fun p => ⟨h'.within hnone' p, ?_⟩
        exact fun hp => not_le.mp fun hle => absurd (h'.behind p hle) (not_le.mpr hp)
      · rw [if_neg hnone', CodeAttribute.dropLinesFrom_mapPositions_dropLinesFrom _ h'.behind,
          CodeAttribute.mapPositions_mapPositions]
  anchors := by
    -- An anchor is still an anchor for the later edits, so these may not take it out either.
    intro p hp
    have hp' : f p ∈ s'.code.anchors := by
      rw [anchors_of_follows h]
      exact List.mem_map_of_mem hp
    exact (h'.anchors _ hp').trans (h.anchors p hp)
  others := by
    intro p hp
    rw [Function.comp_apply, h'.others _ (h.inside p hp), h.others p hp, Function.comp_apply]

theorem inRange_run (h : s.code.InRange) (hedits : s.Allows edits) :
    (s.run edits).code.InRange := by
  -- The body changes under the run, so the induction is for all bodies in range.
  induction edits generalizing s with
  | nil => exact h
  | cons e edits ih => exact ih (inRange_step h hedits.1) hedits.2

/-- All references follow through a run. -/
theorem follows_of_allows (hedits : s.Allows edits) :
    s.Follows (s.run edits) (s.moved edits) (s.taken edits) (s.followed edits) := by
  induction edits generalizing s with
  | nil => exact .refl s
  | cons e edits ih => exact (follows_step hedits.1).trans (ih hedits.2)

theorem allows_append {rest : List Edit} :
    s.Allows (edits ++ rest) ↔ s.Allows edits ∧ (s.run edits).Allows rest := by
  induction edits generalizing s with
  | nil => exact ⟨fun hrest => ⟨trivial, hrest⟩, And.right⟩
  | cons e edits ih =>
    rw [List.cons_append, Allows, Allows, ih, and_assoc]
    rfl

/-- What an insertion puts in stands where it was put, as it was, with new serial numbers. -/
theorem getElem?_insert (hplace : place ≤ s.count) {sequence : Instructions} {k : Nat}
    (hk : k < sequence.length) :
    (s.insert place sequence).code.instructions[place + k]? = sequence[k]? ∧
      (s.insert place sequence).serial? (place + k) = some (s.next + k) := by
  have hfresh : k < (List.range' s.next sequence.length).length := by rwa [List.length_range']
  have hserials : place ≤ s.serials.length := s.length_serials ▸ hplace
  refine ⟨Instructions.getElem?_insert_add hplace hk, ?_⟩
  refine (Renumber.getElem?_add hserials hfresh).trans ?_
  rw [List.getElem?_range' hk, Nat.one_mul]

/-- At every moment of a run all positions are in range, what is put in stands as it was given, and
all references that there are follow their instructions through the rest of the run. -/
theorem follows_run {code : Code} (hcode : code.InRange) {before after : List Edit}
    (hedits : (ofCode code).Allows (before ++ after)) :
    ((ofCode code).run before).code.InRange ∧
      (∀ place sequence rest, after = .insert place sequence :: rest → ∀ k < sequence.length,
        (((ofCode code).run before).insert place sequence).code.instructions[place + k]? =
          sequence[k]? ∧
        (((ofCode code).run before).insert place sequence).serial? (place + k) =
          some (((ofCode code).run before).next + k)) ∧
      ((ofCode code).run before).Follows (((ofCode code).run before).run after)
        (((ofCode code).run before).moved after) (((ofCode code).run before).taken after)
        (((ofCode code).run before).followed after) := by
  obtain ⟨hbefore, hafter⟩ := allows_append.mp hedits
  refine ⟨inRange_run hcode hbefore, ?_, follows_of_allows hafter⟩
  rintro place sequence rest rfl k hk
  exact getElem?_insert hafter.1.1 hk

/-- A body with every kind of reference: a branch, a handler, a line, a variable and a frame with
an object that has not been initialized. -/
def referringBody : Code where
  maxStack := 2
  maxLocals := 1
  instructions := [.jump 167 2, .other 0 [], .other 187 [0, 1], .exit none]
  handlers := [⟨0, 1, 3, 0⟩]
  attributes := [.lineNumbers 1 [⟨1, 7⟩, ⟨4, 8⟩], .localVariables 2 [⟨0, 4, 3, 4, 0⟩],
    .stackMap 5 [⟨3, .full [] [.uninitialized 2]⟩]]

/-- A branch back to the start is put in, the `nop` behind it is taken out, and the instruction that
has not initialized its object may not be. -/
theorem follows_run_referringBody :
    referringBody.InRange ∧
    (ofCode referringBody).Allows ([.insert 1 [.jump 167 0]] ++
      [.remove "m" 2, .remove "m" 2]) ∧
    (((ofCode referringBody).run [.insert 1 [.jump 167 0]]).run
      [.remove "m" 2, .remove "m" 2]).code =
        ⟨2, 1, [.jump 167 2, .jump 167 0, .other 187 [0, 1], .exit none], [⟨0, 2, 3, 0⟩],
          [.lineNumbers 1 [⟨2, 7⟩], .localVariables 2 [⟨0, 4, 3, 4, 0⟩],
            .stackMap 5 [⟨3, .full [] [.uninitialized 2]⟩]]⟩ ∧
    ((ofCode referringBody).run [.insert 1 [.jump 167 0]]).Follows
      (((ofCode referringBody).run [.insert 1 [.jump 167 0]]).run
        [.remove "m" 2, .remove "m" 2])
      (((ofCode referringBody).run [.insert 1 [.jump 167 0]]).moved
        [.remove "m" 2, .remove "m" 2])
      [1]
      (((ofCode referringBody).run [.insert 1 [.jump 167 0]]).followed
        [.remove "m" 2, .remove "m" 2]) := by
  have hcode : referringBody.InRange := ⟨by decide, by decide⟩
  have hedits : (ofCode referringBody).Allows ([.insert 1 [.jump 167 0]] ++
      [.remove "m" 2, .remove "m" 2]) := ⟨⟨by decide, by decide⟩, trivial, trivial, trivial⟩
  have htaken : ((ofCode referringBody).run [.insert 1 [.jump 167 0]]).taken
      [.remove "m" 2, .remove "m" 2] = [1] := by decide +kernel
  obtain ⟨-, -, hfollows⟩ := follows_run hcode hedits
  rw [htaken] at hfollows
  exact ⟨hcode, hedits, by decide +kernel, hfollows⟩

end Numbered

end ClassGraft
