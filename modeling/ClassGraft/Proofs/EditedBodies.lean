/-
Bodies that stay writable.

A body that has been read has its positions where they belong: branches go to instructions, ranges
are not reversed, frames ascend, and nothing lies behind the end of the code (`Code.Coherent`).
Whatever is put in and taken out, all of that stays so, by one edit (`Numbered.inOrder_step`) and by
a run of them (`Numbered.inOrder_run`), and therefore such a body can be written exactly if its
instructions can be encoded (`Numbered.exists_write_run`).

Beside the tables only the length of an attribute could make writing fail.  It is four bytes wide,
and of all attributes only frames grow: a compact frame is extended where it gets far from the one
before it.  As there are at most 65536 offsets, no more than a thousand frames can lie far apart
(`StackMap.length_form_le`).
-/
import ClassGraft.Proofs.Writable

namespace ClassGraft

/-! ### Positions that have been read -/

section Positions

variable {layout : Layout}

theorem Layout.isSome_of_placeBytes {p : Nat} {b : Bytes} (h : layout.placeBytes p = .ok b) :
    (layout.offset? p).isSome := by
  obtain ⟨o, ho, -⟩ := placeBytes_eq_ok_iff.mp h
  exact Option.isSome_iff_exists.mpr ⟨o, ho⟩

theorem Handler.isSome_of_write {handler : Handler} {b : Bytes}
    (h : handler.write layout = .ok b) : ∀ p ∈ handler.positions, (layout.offset? p).isSome := by
  simp only [write, Bytes.bind_eq_ok_iff] at h
  obtain ⟨start, hstart, stop, hstop, entry, hentry, -⟩ := h
  simp only [positions, List.forall_mem_cons]
  exact ⟨Layout.isSome_of_placeBytes hstart, Layout.isSome_of_placeBytes hstop,
    Layout.isSome_of_placeBytes hentry, List.forall_mem_nil _⟩

theorem LineNumber.isSome_of_write {entry : LineNumber} {b : Bytes}
    (h : entry.write layout = .ok b) : (layout.offset? entry.start).isSome := by
  obtain ⟨start, hstart, -⟩ := Bytes.bind_eq_ok_iff.mp h
  exact Layout.isSome_of_placeBytes hstart

theorem LocalVariable.isSome_of_form {entry : LocalVariable} {b : Bytes}
    (h : LocalVariable.Form layout entry b) :
    ∀ p ∈ entry.positions, (layout.offset? p).isSome := by
  obtain ⟨start, length, hstart, hstop, -⟩ := h
  simp only [positions, List.forall_mem_cons, hstart, hstop]
  exact ⟨rfl, rfl, List.forall_mem_nil _⟩

theorem VerificationType.isSome_of_write {t : VerificationType} {b : Bytes}
    (h : t.write layout = .ok b) : ∀ p ∈ t.birthplace?, (layout.offset? p).isSome := by
  cases t with
  | uninitialized position =>
    obtain ⟨place, hplace, -⟩ := Bytes.bind_eq_ok_iff.mp h
    simp only [birthplace?, Option.mem_some_iff, forall_eq']
    exact Layout.isSome_of_placeBytes hplace
  | _ => exact fun p hp => absurd hp (by simp [birthplace?])

namespace StackMap

theorem isSome_of_form {previous : Option Nat} {frames : List StackMapFrame} {b : Bytes}
    (h : Form layout previous frames b) :
    ∀ p ∈ frames.flatMap StackMapFrame.positions, (layout.offset? p).isSome := by
  induction frames generalizing previous b with
  | nil => exact List.forall_mem_nil _
  | cons frame rest ih =>
    obtain ⟨d, a, items, htarget, -, ha, hitems, rfl⟩ := h
    have htypes := FrameKind.exists_write_iff.mp ⟨a, ha⟩
    rw [List.flatMap_cons, List.forall_mem_append, StackMapFrame.positions, List.forall_mem_cons]
    refine ⟨⟨Option.isSome_iff_exists.mpr ⟨_, htarget⟩, fun p hp => ?_⟩, ih hitems⟩
    obtain ⟨t, ht, hborn⟩ := List.mem_filterMap.mp hp
    obtain ⟨_, ht⟩ := htypes t ht
    exact VerificationType.isSome_of_write ht p hborn

/-- Frames stand behind each other, and behind the frame before them. -/
theorem ascending_of_form (h : layout.Ascending) {previous : Option Nat}
    {frames : List StackMapFrame} {b : Bytes} (hform : Form layout previous frames b) :
    (frames.map StackMapFrame.target).Pairwise (· < ·) ∧
      ∀ o ∈ previous, ∀ q, layout.offset? q = some o → ∀ frame ∈ frames, q < frame.target := by
  -- Each frame is told by its distance to the one before, so the induction is for every one before.
  induction frames generalizing previous b with
  | nil => exact ⟨.nil, fun _ _ _ _ => List.forall_mem_nil _⟩
  | cons frame rest ih =>
    obtain ⟨d, a, items, htarget, -, -, hitems, rfl⟩ := hform
    obtain ⟨hrest, hbehind⟩ := ih hitems
    have hlt := hbehind _ rfl frame.target htarget
    refine ⟨List.pairwise_cons.mpr ⟨List.forall_mem_map.mpr hlt, hrest⟩, ?_⟩
    rintro o rfl q hq
    have hfirst : q < frame.target := (h.lt_iff hq htarget).mpr (by rw [offsetAfter]; omega)
    exact List.forall_mem_cons.mpr
      ⟨hfirst, fun frame' hframe' => hfirst.trans (hlt frame' hframe')⟩

end StackMap

namespace CodeAttribute

theorem isSome_of_contents {raw : RawAttribute} {a : CodeAttribute} (h : a.Contents layout raw) :
    ∀ p ∈ a.positions, (layout.offset? p).isSome := by
  have hscopes : ∀ {entries : List LocalVariable} {b : Bytes},
      Bytes.Table (LocalVariable.Form layout) entries b →
        ∀ p ∈ entries.flatMap LocalVariable.positions, (layout.offset? p).isSome := by
    intro entries b hb p hp
    obtain ⟨entry, hentry, hp⟩ := List.mem_flatMap.mp hp
    obtain ⟨_, hform, -⟩ := hb.exists_of_mem hentry
    exact LocalVariable.isSome_of_form hform p hp
  cases a with
  | lineNumbers nameIndex entries =>
    refine List.forall_mem_map.mpr fun entry hentry => ?_
    obtain ⟨_, hwrite, -⟩ := h.2.exists_of_mem hentry
    exact LineNumber.isSome_of_write hwrite
  | localVariables nameIndex entries => exact hscopes h.2
  | localVariableTypes nameIndex entries => exact hscopes h.2
  | stackMap nameIndex frames =>
    obtain ⟨-, items, hitems, -⟩ := h
    exact StackMap.isSome_of_form hitems
  | other raw' => exact List.forall_mem_nil _

theorem ascending_of_contents (hlayout : layout.Ascending) {raw : RawAttribute}
    {a : CodeAttribute} (h : a.Contents layout raw) :
    (a.frames.map StackMapFrame.target).Pairwise (· < ·) := by
  cases a with
  | stackMap nameIndex frames =>
    obtain ⟨-, items, hitems, -⟩ := h
    exact (StackMap.ascending_of_form hlayout hitems).1
  | _ => exact .nil

/-- The frames of a proper attribute can be counted. -/
theorem Proper.counted {pool : ConstantPool} {a : CodeAttribute} (h : a.Proper pool) :
    a.frames.length < 65536 := by
  cases a with
  | stackMap nameIndex frames => exact h.2.1
  | _ => exact Nat.zero_lt_succ _

end CodeAttribute

end Positions

/-! ### Bodies in order -/

namespace Code

/-- Whether every position of a body is where it belongs. -/
structure Coherent (code : Code) : Prop where
  targets : ∀ i ∈ code.instructions, ∀ t ∈ i.targets, t < code.instructions.length
  handlers : ∀ handler ∈ code.handlers, handler.start < handler.stop ∧
    handler.stop ≤ code.instructions.length ∧ handler.entry < code.instructions.length
  lines : ∀ a ∈ code.attributes, ∀ entry ∈ a.lines, entry.start ≤ code.instructions.length
  scopes : ∀ a ∈ code.attributes, ∀ entry ∈ a.scopes,
    entry.start ≤ entry.stop ∧ entry.stop ≤ code.instructions.length
  ascending : ∀ a ∈ code.attributes, (a.frames.map StackMapFrame.target).Pairwise (· < ·)
  frames : ∀ a ∈ code.attributes, ∀ frame ∈ a.frames,
    ∀ p ∈ frame.positions, p ≤ code.instructions.length

/-- What an edit keeps: the tables fit the instructions, and their entries are proper. -/
structure InOrder (pool : ConstantPool) (code : Code) : Prop where
  fitting : code.Fitting
  targets : ∀ i ∈ code.instructions, ∀ t ∈ i.targets, t < code.instructions.length
  handlers : ∀ handler ∈ code.handlers, handler.Proper code.instructions.length
  attributes : ∀ a ∈ code.attributes, a.Proper pool

variable {pool : ConstantPool} {code code' : Code}

theorem InOrder.coherent (h : code.InOrder pool) : code.Coherent := by
  have hattribute : ∀ a ∈ code.attributes, ∀ p ∈ a.positions, p ≤ code.instructions.length :=
    fun a ha p hp => h.fitting.inside p
      (List.mem_append.mpr (.inr (List.mem_flatMap.mpr ⟨a, ha, hp⟩)))
  refine ⟨h.targets, ?handlers, ?lines, ?scopes, h.fitting.ascending, ?frames⟩
  case handlers =>
    intro handler hh
    obtain ⟨hrange, hentry⟩ := h.handlers handler hh
    refine ⟨hrange, h.fitting.inside _ (List.mem_append.mpr (.inl ?_)), hentry⟩
    exact List.mem_flatMap.mpr ⟨handler, hh, by simp [Handler.positions]⟩
  case lines =>
    intro a ha entry hentry
    refine hattribute a ha _ ?_
    cases a with
    | lineNumbers nameIndex entries => exact List.mem_map_of_mem hentry
    | _ => exact absurd hentry List.not_mem_nil
  case scopes =>
    intro a ha entry hentry
    have hproper := h.attributes a ha
    have hinside := hattribute a ha
    have hstop : entry.stop ∈ entry.positions := by simp [LocalVariable.positions]
    cases a with
    | localVariables nameIndex entries | localVariableTypes nameIndex entries =>
      exact ⟨hproper.2.2 entry hentry, hinside _ (List.mem_flatMap.mpr ⟨entry, hentry, hstop⟩)⟩
    | _ => exact absurd hentry List.not_mem_nil
  case frames =>
    intro a ha frame hframe p hp
    refine hattribute a ha p ?_
    cases a with
    | stackMap nameIndex frames => exact List.mem_flatMap.mpr ⟨frame, hframe, hp⟩
    | _ => exact absurd hframe List.not_mem_nil

/-- A body that has been read is in order. -/
theorem inOrder_of_parse [Build] {body : Bytes} (h : parse pool body = .ok code) :
    code.InOrder pool := by
  obtain ⟨hproper, -⟩ := proper_of_parse h
  obtain ⟨array, handlers, attributes, layout, -, hdecode, hhandlers, hattributes, -⟩ :=
    parse_eq_ok_iff.mp h
  obtain ⟨rfl, -, htargets⟩ := decode_eq_ok_iff.mp hdecode
  rw [Layout.count_ofInstructions] at htargets
  refine ⟨⟨?inside, fun a ha => (hproper.attributes a ha).counted, ?ascending⟩, htargets,
    hproper.handlers, hproper.attributes⟩
  case inside =>
    intro p hp
    rw [tablePositions, List.mem_append, List.mem_flatMap, List.mem_flatMap] at hp
    rw [← Layout.isSome_offset?_iff]
    rcases hp with ⟨handler, hh, hp⟩ | ⟨a, ha, hp⟩
    · obtain ⟨_, ⟨-, hwrite⟩, -⟩ := hhandlers.exists_of_mem hh
      exact Handler.isSome_of_write hwrite p hp
    · obtain ⟨_, ⟨-, raw, hcontents, -⟩, -⟩ := hattributes.exists_of_mem ha
      exact CodeAttribute.isSome_of_contents hcontents p hp
  case ascending =>
    intro a ha
    obtain ⟨_, ⟨-, raw, hcontents, -⟩, -⟩ := hattributes.exists_of_mem ha
    exact CodeAttribute.ascending_of_contents (Layout.ascending_ofInstructions _) hcontents

/-! ### Edits -/

/-- A body stays in order if what is put in goes to instructions. -/
theorem InOrder.insert (h : code.InOrder pool) (place : Nat) {sequence : Instructions}
    (hsequence : ∀ i ∈ sequence, ∀ t ∈ i.targets, t < code.instructions.length + sequence.length) :
    (code.insert place sequence).InOrder pool := by
  have hcount : (code.insert place sequence).instructions.length =
      code.instructions.length + sequence.length := Instructions.length_insert _ _ _
  refine ⟨h.fitting.insert place sequence, ?targets, ?handlers, ?attributes⟩
  case targets =>
    rw [hcount]
    intro i hi
    rcases Instructions.mem_insert hi with hi | ⟨j, hj, rfl⟩
    · exact hsequence i hi
    · rw [Instruction.targets_mapTargets]
      refine List.forall_mem_map.mpr fun t ht => ?_
      exact (Renumber.inserted_le_add place sequence.length t).trans_lt
        (Nat.add_lt_add_right (h.targets j hj t ht) _)
  case handlers =>
    rw [hcount]
    exact List.forall_mem_map.mpr fun handler hh =>
      (h.handlers handler hh).inserted place sequence.length
  case attributes =>
    exact List.forall_mem_map.mpr fun a ha =>
      (h.attributes a ha).mapPositions (Renumber.monotone_inserted _ _)

/-- Nothing refers to what is taken out, so nothing that is left loses its instruction. -/
theorem InOrder.remove (h : code.InOrder pool) {method : String} {place : Nat} {i : Instruction}
    (hremove : code.remove method place = .ok (i, code')) : code'.InOrder pool := by
  have hfitting := h.fitting.remove hremove
  obtain ⟨hi, hfree, rfl⟩ := Code.remove_eq_ok_iff.mp hremove
  obtain ⟨hhandlers, htargets, -⟩ := Code.not_referenced hfree
  have hplace := (List.getElem?_eq_some_iff.mp hi).1
  have hcount : ((code.instructions.eraseIdx place).map
      (Instruction.mapTargets (Renumber.removed place))).length = code.instructions.length - 1 := by
    rw [List.length_map, List.length_eraseIdx_of_lt hplace]
  refine ⟨hfitting, ?targets, ?handlers, ?attributes⟩
  case targets =>
    rw [withoutInstruction, hcount]
    refine List.forall_mem_map.mpr fun j hj => ?_
    have hj := List.mem_of_mem_eraseIdx hj
    rw [Instruction.targets_mapTargets]
    refine List.forall_mem_map.mpr fun t ht => ?_
    have hlt := h.targets j hj t ht
    have hne : place ≠ t := fun heq => htargets j hj (heq ▸ ht)
    rw [Renumber.removed]
    split
    all_goals omega
  case handlers =>
    rw [withoutInstruction, hcount]
    refine List.forall_mem_map.mpr fun handler hh => ?_
    obtain ⟨hstart, hentry⟩ := hhandlers handler hh
    exact (h.handlers handler hh).removed hstart hentry hplace
  case attributes =>
    refine List.forall_mem_map.mpr (List.forall_mem_map.mpr fun a ha => ?_)
    exact ((h.attributes a ha).mapPositions (Renumber.monotone_removed place)).dropLinesFrom _

end Code

namespace Numbered

variable {pool : ConstantPool} {s : Numbered} {edits : List Edit}

/-- An edit keeps a body in order. -/
theorem inOrder_step (h : s.code.InOrder pool) {e : Edit} (he : s.Fits e) :
    (s.step e).code.InOrder pool := by
  rcases s.step_cases e with ⟨place, sequence, rfl, hstep, -⟩ |
    ⟨method, place, i, code', hremove, hstep, -⟩ | ⟨hstep, -⟩
  · rw [hstep]
    exact h.insert place he.2
  · rw [hstep]
    exact h.remove hremove
  · rw [hstep]
    exact h

theorem inOrder_run (h : s.code.InOrder pool) (hedits : s.Allows edits) :
    (s.run edits).code.InOrder pool := by
  induction edits generalizing s with
  | nil => exact h
  | cons e edits ih => exact ih (inOrder_step h hedits.1) hedits.2

end Numbered

/-! ### How far attributes grow -/

namespace FrameKind

/-- A frame is extended only where there are 64 offsets in front of it. -/
theorem growth_le_distance (distance : Nat) (kind : FrameKind) :
    65 * kind.growth distance ≤ 2 * (distance + 1) := by
  unfold growth
  split
  · split
    all_goals omega
  · split
    all_goals omega
  all_goals exact Nat.zero_le _

theorem sum_size_le (ts : List VerificationType) :
    (ts.map VerificationType.size).sum ≤ 3 * ts.length := by
  have hle : ∀ n ∈ ts.map VerificationType.size, n ≤ 3 := by
    refine List.forall_mem_map.mpr fun t _ => ?_
    unfold VerificationType.size
    split
    all_goals omega
  have := List.sum_le_card_nsmul _ _ hle
  rw [List.length_map, smul_eq_mul] at this
  omega

theorem size_le {kind : FrameKind} (h : kind.Proper) : kind.size ≤ 393217 := by
  have hitem : ∀ item : VerificationType, item.size ≤ 3 := by
    intro item
    simpa using sum_size_le [item]
  cases kind with
  | append locals =>
    have := sum_size_le locals
    have := h.2
    rw [size]
    omega
  | full locals stack =>
    have := sum_size_le locals
    have := sum_size_le stack
    obtain ⟨hlocals, hstack⟩ := h
    rw [size]
    omega
  | oneOperand item | oneOperandExtended item =>
    have := hitem item
    rw [size]
    omega
  | _ =>
    rw [size]
    omega

end FrameKind

namespace StackMap

variable {layout : Layout}

/-- The first offset that a frame behind the one at `previous` may have. -/
def firstBehind : Option Nat → Nat
  | none => 0
  | some offset => offset + 1

theorem offsetAfter_eq (previous : Option Nat) (d : Nat) :
    offsetAfter previous d = firstBehind previous + d := by
  cases previous with
  | none => exact (Nat.zero_add d).symm
  | some before =>
    rw [offsetAfter, firstBehind]
    omega

/-- Two bytes for every 65 offsets are all that frames take beyond their size. -/
theorem length_form_le (hfits : layout.Fits) {previous : Option Nat}
    (hprevious : firstBehind previous ≤ 65536) {frames : List StackMapFrame} {b : Bytes}
    (h : Form layout previous frames b) : 65 * b.length + 2 * firstBehind previous ≤
      65 * (frames.map fun frame => frame.kind.size).sum + 131072 := by
  -- An extended frame uses up the offsets in front of it, so those that are left pay for the rest.
  induction frames generalizing previous b with
  | nil =>
    obtain rfl : b = [] := h
    simp only [List.length_nil, List.map_nil, List.sum_nil]
    omega
  | cons frame rest ih =>
    obtain ⟨d, a, items, htarget, -, ha, hitems, rfl⟩ := h
    have hoffset := hfits htarget
    rw [offsetAfter_eq] at hoffset
    have hnext : firstBehind (some (offsetAfter previous d)) = firstBehind previous + d + 1 := by
      rw [offsetAfter_eq, firstBehind]
    have hrest := ih (by omega) hitems
    have hframe := FrameKind.length_write ha
    have hgrowth := frame.kind.growth_le_distance d
    rw [List.map_cons, List.sum_cons, List.length_append]
    omega

end StackMap

namespace CodeAttribute

variable {layout : Layout}

/-- How many bytes the contents of an attribute take at most, wherever the instructions lie. -/
def reach : CodeAttribute → Nat
  | .stackMap _ frames => 2018 + (frames.map fun frame => frame.kind.size).sum
  | a => a.size

theorem size_le_reach (a : CodeAttribute) : a.size ≤ a.reach := by
  cases a with
  | stackMap nameIndex frames =>
    rw [size, reach]
    omega
  | _ => exact Nat.le_refl _

theorem reach_mapPositions (f : Nat → Nat) (a : CodeAttribute) :
    (a.mapPositions f).reach = a.reach := by
  have hsize := a.size_mapPositions f
  cases a with
  | stackMap nameIndex frames =>
    simp only [mapPositions, size] at hsize
    simp only [mapPositions, reach]
    omega
  | _ => exact hsize

theorem reach_dropLinesFrom_le (limit : Nat) (a : CodeAttribute) :
    (a.dropLinesFrom limit).reach ≤ a.reach := by
  cases a with
  | lineNumbers nameIndex entries =>
    exact size_dropLinesFrom_le limit (.lineNumbers nameIndex entries)
  | _ => exact Nat.le_refl _

theorem length_toRaw_le_reach (hfits : layout.Fits) {a : CodeAttribute} {raw : RawAttribute}
    (h : a.toRaw layout = .ok raw) : raw.info.length ≤ a.reach := by
  rcases length_toRaw_cases hfits h with hlen | ⟨nameIndex, frames, items, rfl, hitems, hlen⟩
  · exact hlen ▸ size_le_reach a
  · have := StackMap.length_form_le hfits (Nat.zero_le _) hitems
    rw [reach]
    omega

end CodeAttribute

/-- The frames of an attribute stand at different positions. -/
theorem StackMap.length_frames_le {frames : List StackMapFrame} {n : Nat}
    (hascending : (frames.map StackMapFrame.target).Pairwise (· < ·))
    (hinside : ∀ frame ∈ frames, frame.target ≤ n) : frames.length ≤ n + 1 := by
  have hnodup : (frames.map StackMapFrame.target).Nodup := hascending.imp Nat.ne_of_lt
  have hsubset : frames.map StackMapFrame.target ⊆ List.range (n + 1) := by
    refine List.forall_mem_map.mpr fun frame hframe => ?_
    exact List.mem_range.mpr (Nat.lt_succ_of_le (hinside frame hframe))
  have hle := (hnodup.subperm hsubset).length_le
  rwa [List.length_map, List.length_range] at hle

/-- Every instruction takes a byte at least. -/
theorem Layout.le_length (list : List Instruction) :
    list.length ≤ (Layout.ofInstructions list).length := by
  have hle : ∀ {offset p o : Nat}, (Layout.offsetsFrom offset list)[p]? = some o →
      offset + p ≤ o := by
    induction list with
    | nil =>
      intro offset p o hp
      rw [offsetsFrom, List.getElem?_singleton] at hp
      split at hp
      all_goals simp_all
    | cons i rest ih =>
      intro offset p o hp
      rw [offsetsFrom] at hp
      cases p with
      | zero => exact (Option.some.inj hp).le
      | succ p =>
        have := ih (List.getElem?_cons_succ ▸ hp)
        have := i.size_pos offset
        omega
  obtain ⟨o, ho⟩ := Option.isSome_iff_exists.mp (isSome_offset?_iff.mpr (Nat.le_refl list.length))
  have hlast := hle (offset?_ofInstructions list _ ▸ ho)
  have := offset?_le_length list ho
  omega

namespace Code

variable {pool : ConstantPool} {code : Code}

/-- In the contents of an attribute there is not enough room for an attribute that could become too
large, and for the instructions that so many frames need. -/
theorem reach_lt_of_parse [Build] {body : Bytes} (h : parse pool body = .ok code)
    (hbody : body.length < 4294967296) : ∀ a ∈ code.attributes, a.reach < 4294967296 := by
  intro a ha
  obtain ⟨hproper, -⟩ := proper_of_parse h
  have hcoherent := (inOrder_of_parse h).coherent
  obtain ⟨array, handlers, attributes, layout, -, hdecode, hhandlers, hattributes, rfl⟩ :=
    parse_eq_ok_iff.mp h
  obtain ⟨b, ⟨-, raw, hcontents, hraw⟩, hle⟩ := hattributes.exists_of_mem ha
  obtain ⟨-, rfl⟩ := RawAttribute.write_eq_ok_iff.mp hraw
  simp only [assemble, List.length_append, Bytes.ofU16, BigEndian.length_encode] at hbody hle
  have ha' := hproper.attributes a ha
  cases a with
  | stackMap nameIndex frames =>
    obtain ⟨-, items, hitems, hinfo⟩ := hcontents
    rw [hinfo, List.length_append, BigEndian.length_encode] at hle
    have hlower := (StackMap.length_form hitems).1
    have hcount : code.instructions.length ≤ array.length := by
      rw [← length_of_decode hdecode, (decode_eq_ok_iff.mp hdecode).1]
      exact Layout.le_length code.instructions
    have hframes : frames.length ≤ code.instructions.length + 1 :=
      StackMap.length_frames_le (hcoherent.ascending _ ha) fun frame hframe =>
        hcoherent.frames _ ha frame hframe _ (by simp [StackMapFrame.positions])
    have hupper : (frames.map fun frame => frame.kind.size).sum ≤ frames.length * 393217 := by
      have := List.sum_le_card_nsmul (frames.map fun frame => frame.kind.size) 393217
        (List.forall_mem_map.mpr fun frame hframe => FrameKind.size_le (ha'.2.2 frame hframe))
      rwa [List.length_map, smul_eq_mul] at this
    rw [CodeAttribute.reach]
    omega
  | lineNumbers nameIndex entries =>
    have := ha'.2
    rw [CodeAttribute.reach, CodeAttribute.size]
    · omega
    · simp
  | localVariables nameIndex entries | localVariableTypes nameIndex entries =>
    have := ha'.2.1
    rw [CodeAttribute.reach, CodeAttribute.size]
    · omega
    · simp
  | other raw' =>
    obtain rfl : raw' = raw := hcontents
    rw [CodeAttribute.reach, CodeAttribute.size]
    · omega
    · simp

end Code

namespace Numbered

variable {pool : ConstantPool} {edits : List Edit}

/-- No attribute reaches further than it did before a run. -/
theorem reach_run_le {s : Numbered} (hedits : s.Allows edits) {limit : Nat}
    (hlimit : ∀ a ∈ s.code.attributes, a.reach < limit) :
    ∀ a ∈ (s.run edits).code.attributes, a.reach < limit := by
  have hfollows := (follows_of_allows hedits).attributes
  rw [hfollows]
  refine List.forall_mem_map.mpr fun a ha => ?_
  have hmoved := a.reach_mapPositions (s.moved edits)
  split
  · exact hmoved ▸ hlimit a ha
  · exact (CodeAttribute.reach_dropLinesFrom_le _ _).trans_lt (hmoved ▸ hlimit a ha)

/-- A body that has been read stays coherent under edits, and only its instructions can keep it
from being written: a fault would be that of an attribute whose length four bytes cannot count, but
there is none where the body itself was the contents of an attribute. -/
theorem exists_write_run [Build] {body : Bytes} {code : Code} (h : Code.parse pool body = .ok code)
    (hedits : (ofCode code).Allows edits) :
    ((ofCode code).run edits).code.Coherent ∧
    (∀ method encoded, encode method ((ofCode code).run edits).code.instructions = .ok encoded →
      FailsBy (fun fault => ∃ n, 4294967296 ≤ n ∧ fault = .malformed (.attributeTooLarge n))
        (((ofCode code).run edits).code.write method)) ∧
    (body.length < 4294967296 → ∀ method,
      (∃ written, ((ofCode code).run edits).code.write method = .ok written) ↔
        ∃ encoded, encode method ((ofCode code).run edits).code.instructions = .ok encoded) := by
  have hinOrder := inOrder_run (s := ofCode code) (Code.inOrder_of_parse h) hedits
  refine ⟨hinOrder.coherent, fun method encoded hencode => ?_, fun hbody method => ⟨?_, ?_⟩⟩
  · refine (Code.failsBy_write hinOrder.fitting hencode).imp ?_
    rintro fault ⟨n, hlarge, -, rfl⟩
    exact ⟨n, hlarge, rfl⟩
  · rintro ⟨written, hwritten⟩
    obtain ⟨encoded, hencode, -⟩ := Code.length_of_write hwritten
    exact ⟨encoded, hencode⟩
  · rintro ⟨encoded, hencode⟩
    obtain ⟨hlayout, hfits⟩ := layout_of_encode hencode
    have hreach := reach_run_le hedits (Code.reach_lt_of_parse h hbody)
    -- Every attribute is short enough, so there is no fault left.
    have hnone : FailsBy (fun _ => False) (((ofCode code).run edits).code.write method) := by
      refine Code.failsBy_write_of_raw hinOrder.fitting hencode fun a ha raw hraw => ?_
      have hle := CodeAttribute.length_toRaw_le_reach (hlayout ▸ hfits) hraw
      refine .of_exists ⟨_, RawAttribute.write_eq_ok_iff.mpr ⟨?_, rfl⟩⟩
      exact hle.trans_lt (hreach a ha)
    cases hwrite : ((ofCode code).run edits).code.write method with
    | ok written => exact ⟨written, rfl⟩
    | error fault => exact (hnone fault hwrite).elim

/-- A pool with the names of the attributes of `referringBody`. -/
def referringPool : ConstantPool :=
  ⟨#[none, some (.utf8 (ModifiedUtf8.encode "LineNumberTable")),
    some (.utf8 (ModifiedUtf8.encode "LocalVariableTable")), some (.utf8 [120]),
    some (.utf8 [73]), some (.utf8 (ModifiedUtf8.encode "StackMapTable"))]⟩

/-- The bytes of `referringBody`. -/
def referringContents : Bytes :=
  [0, 2, 0, 1, 0, 0, 0, 8, 167, 0, 4, 0, 187, 0, 1, 177, 0, 1, 0, 0, 0, 3, 0, 7, 0, 0, 0, 3,
    0, 1, 0, 0, 0, 10, 0, 2, 0, 3, 0, 7, 0, 8, 0, 8,
    0, 2, 0, 0, 0, 12, 0, 1, 0, 0, 0, 8, 0, 3, 0, 4, 0, 0,
    0, 5, 0, 0, 0, 12, 0, 1, 255, 0, 7, 0, 0, 0, 1, 8, 0, 4]

/-- A branch back to the start is put in, and of two instructions that are to be taken out the one
by which an object has been created stays. -/
def referringEdits : List Edit := [.insert 1 [.jump 167 0], .remove "m" 2, .remove "m" 2]

attribute [local instance] Build.checked

theorem exists_write_run_referringBody :
    Code.parse referringPool referringContents = .ok referringBody ∧
    (ofCode referringBody).Allows referringEdits ∧
    ((ofCode referringBody).run referringEdits).code.Coherent ∧
    ∃ written, ((ofCode referringBody).run referringEdits).code.write "m" = .ok written := by
  have hparse : Code.parse referringPool referringContents = .ok referringBody := by
    decide +kernel
  have hedits : (ofCode referringBody).Allows referringEdits :=
    ⟨⟨by decide, by decide⟩, trivial, trivial, trivial⟩
  have hinstructions : ((ofCode referringBody).run referringEdits).code.instructions =
      [.jump 167 2, .jump 167 0, .other 187 [0, 1], .exit none] := by decide +kernel
  obtain ⟨hcoherent, -, hwritten⟩ := exists_write_run hparse hedits
  refine ⟨hparse, hedits, hcoherent, (hwritten (by decide) "m").mpr ?_⟩
  rw [hinstructions]
  exact ⟨⟨[167, 0, 6, 167, 255, 253, 187, 0, 1, 177], ⟨#[0, 3, 6, 9, 10]⟩⟩, by decide +kernel⟩

end Numbered

end ClassGraft
