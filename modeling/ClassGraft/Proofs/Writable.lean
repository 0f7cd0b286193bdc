/-
Bodies that can be written.

A body can be written as soon as its instructions can be encoded and its tables fit them
(`Code.Fitting`): no position lies behind the end of the code, and the frames of an attribute stand
in ascending order.  Then nothing can fail but the length of an attribute (`Code.failsBy_write`).

How long the tables get hardly depends on where the instructions lie: they have a size of their own
(`Code.tableSize`), and what is written takes no less and at most three times as much.  Insertions
and removals keep tables fitting, and do not make them larger (`Code.Fitting.insert`,
`Code.Fitting.remove`).
-/
import ClassGraft.Proofs.Failing
import ClassGraft.Proofs.References

namespace ClassGraft

/-- Whether a fault is that of an attribute whose length four bytes cannot count, although it is
`limit` at most. -/
def Fault.IsTooLarge (limit : Nat) (fault : Fault) : Prop :=
  ∃ n, 4294967296 ≤ n ∧ n ≤ limit ∧ fault = .malformed (.attributeTooLarge n)

theorem Fault.IsTooLarge.mono {limit limit' : Nat} (h : limit ≤ limit') (fault : Fault) :
    fault.IsTooLarge limit → fault.IsTooLarge limit' := by
  rintro ⟨n, hlarge, hle, rfl⟩
  exact ⟨n, hlarge, hle.trans h, rfl⟩

theorem RawAttribute.failsBy_write {raw : RawAttribute} {limit : Nat}
    (h : raw.info.length ≤ limit) : FailsBy (Fault.IsTooLarge limit) raw.write := by
  rw [write]
  split
  · exact .ok _ _
  · next hlarge => exact .error ⟨_, not_lt.mp hlarge, h, rfl⟩

/-! ### Entries of tables -/

section Entries

variable {layout : Layout}

theorem Layout.exists_placeBytes_iff (hfits : layout.Fits) {p : Nat} :
    (∃ b, layout.placeBytes p = .ok b) ↔ (layout.offset? p).isSome := by
  simp only [placeBytes_eq_ok_iff, Option.isSome_iff_exists]
  constructor
  · rintro ⟨_, o, ho, -⟩
    exact ⟨o, ho⟩
  · rintro ⟨o, ho⟩
    exact ⟨_, o, ho, hfits ho, rfl⟩

theorem Layout.length_placeBytes {p : Nat} {b : Bytes} (h : layout.placeBytes p = .ok b) :
    b.length = 2 := by
  obtain ⟨o, -, -, rfl⟩ := placeBytes_eq_ok_iff.mp h
  exact BigEndian.length_encode 2 o

theorem Handler.exists_write_iff (hfits : layout.Fits) {handler : Handler} :
    (∃ b, handler.write layout = .ok b) ↔
      ∀ p ∈ handler.positions, (layout.offset? p).isSome := by
  simp only [positions, List.forall_mem_cons, ← Layout.exists_placeBytes_iff hfits, write,
    Bytes.bind_eq_ok_iff]
  constructor
  · rintro ⟨_, start, hstart, stop, hstop, entry, hentry, -⟩
    exact ⟨⟨start, hstart⟩, ⟨stop, hstop⟩, ⟨entry, hentry⟩, List.forall_mem_nil _⟩
  · rintro ⟨⟨start, hstart⟩, ⟨stop, hstop⟩, ⟨entry, hentry⟩, -⟩
    exact ⟨_, start, hstart, stop, hstop, entry, hentry, rfl⟩

theorem Handler.length_write {handler : Handler} {b : Bytes} (h : handler.write layout = .ok b) :
    b.length = 8 := by
  simp only [write, Bytes.bind_eq_ok_iff] at h
  obtain ⟨start, hstart, stop, hstop, entry, hentry, hb⟩ := h
  rw [← Except.ok.inj hb]
  simp [Layout.length_placeBytes hstart, Layout.length_placeBytes hstop,
    Layout.length_placeBytes hentry, Bytes.ofU16]

theorem LineNumber.exists_write_iff (hfits : layout.Fits) {entry : LineNumber} :
    (∃ b, entry.write layout = .ok b) ↔ (layout.offset? entry.start).isSome := by
  rw [← Layout.exists_placeBytes_iff hfits]
  exact Bytes.exists_bind_pure_iff

theorem LineNumber.length_write {entry : LineNumber} {b : Bytes}
    (h : entry.write layout = .ok b) : b.length = 4 := by
  simp only [write, Bytes.bind_eq_ok_iff] at h
  obtain ⟨start, hstart, hb⟩ := h
  rw [← Except.ok.inj hb]
  simp [Layout.length_placeBytes hstart, Bytes.ofU16]

theorem LocalVariable.exists_write_iff (hfits : layout.Fits) {entry : LocalVariable} :
    (∃ b, entry.write layout = .ok b) ↔
      ∀ p ∈ entry.positions, (layout.offset? p).isSome := by
  simp only [positions, List.forall_mem_cons, Option.isSome_iff_exists, write,
    Bytes.bind_eq_ok_iff, Layout.place_eq_ok_iff]
  constructor
  · rintro ⟨_, start, ⟨hstart, -⟩, stop, ⟨hstop, -⟩, -⟩
    exact ⟨⟨start, hstart⟩, ⟨stop, hstop⟩, List.forall_mem_nil _⟩
  · rintro ⟨⟨start, hstart⟩, ⟨stop, hstop⟩, -⟩
    exact ⟨_, start, ⟨hstart, hfits hstart⟩, stop, ⟨hstop, hfits hstop⟩, rfl⟩

theorem LocalVariable.length_write {entry : LocalVariable} {b : Bytes}
    (h : entry.write layout = .ok b) : b.length = 10 := by
  simp only [write, Bytes.bind_eq_ok_iff] at h
  obtain ⟨start, -, stop, -, hb⟩ := h
  rw [← Except.ok.inj hb]
  simp [Bytes.ofU16]

namespace VerificationType

/-- How many bytes a type takes. -/
def size : VerificationType → Nat
  | .object _ | .uninitialized _ => 3
  | _ => 1

theorem size_mapPositions (f : Nat → Nat) (t : VerificationType) :
    (t.mapPositions f).size = t.size := by
  cases t
  all_goals rfl

theorem exists_write_iff (hfits : layout.Fits) {t : VerificationType} :
    (∃ b, t.write layout = .ok b) ↔ ∀ p ∈ t.birthplace?, (layout.offset? p).isSome := by
  cases t with
  | uninitialized position =>
    simp only [birthplace?, Option.mem_some_iff, forall_eq', ← Layout.exists_placeBytes_iff hfits]
    exact Bytes.exists_bind_pure_iff
  | _ => exact ⟨fun _ p hp => absurd hp (by simp [birthplace?]), fun _ => ⟨_, rfl⟩⟩

theorem length_write {t : VerificationType} {b : Bytes} (h : t.write layout = .ok b) :
    b.length = t.size := by
  cases t with
  | uninitialized position =>
    obtain ⟨place, hplace, hb⟩ := Bytes.bind_eq_ok_iff.mp h
    rw [← Except.ok.inj hb, List.length_cons, Layout.length_placeBytes hplace]
    rfl
  | object classIndex =>
    rw [← Except.ok.inj h, List.length_cons, Bytes.ofU16, BigEndian.length_encode]
    rfl
  | _ =>
    rw [← Except.ok.inj h]
    rfl

theorem length_many {ts : List VerificationType} {b : Bytes}
    (h : Bytes.Many (fun t b => write layout t = .ok b) ts b) :
    b.length = (ts.map size).sum :=
  (h.le_sum fun _ _ _ ht => (length_write ht).le).antisymm
    (h.sum_le fun _ _ _ ht => (length_write ht).ge)

end VerificationType

end Entries

/-! ### Frames -/

namespace FrameKind

variable {layout : Layout}

/-- How many bytes a frame takes at least. -/
def size : FrameKind → Nat
  | .same => 1
  | .oneOperand item => 1 + item.size
  | .sameExtended | .chop _ => 3
  | .oneOperandExtended item => 3 + item.size
  | .append locals => 3 + (locals.map VerificationType.size).sum
  | .full locals stack =>
    7 + (locals.map VerificationType.size).sum + (stack.map VerificationType.size).sum

theorem size_mapPositions (f : Nat → Nat) (kind : FrameKind) :
    (kind.mapPositions f).size = kind.size := by
  have hsizes : VerificationType.size ∘ VerificationType.mapPositions f = VerificationType.size :=
    funext (VerificationType.size_mapPositions f)
  cases kind with
  | append => simp only [mapPositions, size, List.map_map, hsizes]
  | full => simp only [mapPositions, size, List.map_map, hsizes]
  | oneOperand => simp only [mapPositions, size, VerificationType.size_mapPositions]
  | oneOperandExtended => simp only [mapPositions, size, VerificationType.size_mapPositions]
  | _ => rfl

/-- At any distance a frame can be written if its types can. -/
theorem exists_write_iff {kind : FrameKind} {distance : Nat} :
    (∃ b, kind.write layout distance = .ok b) ↔ ∀ t ∈ kind.types, ∃ b, t.write layout = .ok b := by
  cases kind with
  | oneOperand item =>
    rw [types, List.forall_mem_singleton]
    exact Bytes.exists_bind_pure_iff
  | oneOperandExtended item =>
    rw [types, List.forall_mem_singleton]
    exact Bytes.exists_bind_pure_iff
  | append locals =>
    rw [types, ← Bytes.exists_concatMapM_iff]
    exact Bytes.exists_bind_pure_iff
  | full locals stack =>
    rw [types, List.forall_mem_append, ← Bytes.exists_ofTableM_iff, ← Bytes.exists_ofTableM_iff]
    simp only [write, Bytes.bind_eq_ok_iff]
    constructor
    · rintro ⟨-, b, hb, b', hb', -⟩
      exact ⟨⟨b, hb⟩, ⟨b', hb'⟩⟩
    · rintro ⟨⟨b, hb⟩, ⟨b', hb'⟩⟩
      exact ⟨_, b, hb, b', hb', rfl⟩
  | _ => exact ⟨fun _ => List.forall_mem_nil _, fun _ => ⟨_, rfl⟩⟩

/-- How many bytes more a frame takes at a distance: a compact form is extended where it lies far
behind the frame before it. -/
def growth (distance : Nat) : FrameKind → Nat
  | .same | .oneOperand _ => if distance ≤ 63 then 0 else 2
  | .sameExtended | .oneOperandExtended _ | .chop _ | .append _ | .full _ _ => 0

theorem growth_le (distance : Nat) (kind : FrameKind) : kind.growth distance ≤ 2 := by
  unfold growth
  split
  · split
    all_goals omega
  · split
    all_goals omega
  all_goals exact Nat.zero_le 2

theorem length_write {kind : FrameKind} {distance : Nat} {b : Bytes}
    (h : kind.write layout distance = .ok b) : b.length = kind.size + kind.growth distance := by
  have hfar : (BigEndian.encode 2 distance).length = 2 := BigEndian.length_encode 2 distance
  cases kind with
  | same =>
    rw [← Except.ok.inj h, size, growth]
    split
    all_goals simp [hfar]
  | oneOperand item =>
    obtain ⟨b, hitem, hb⟩ := Bytes.bind_eq_ok_iff.mp h
    rw [← Except.ok.inj hb, size, growth, ← VerificationType.length_write hitem]
    split
    all_goals
      simp only [List.length_cons, List.length_append, hfar]
      omega
  | oneOperandExtended item =>
    obtain ⟨b, hitem, hb⟩ := Bytes.bind_eq_ok_iff.mp h
    rw [← Except.ok.inj hb, size, growth, ← VerificationType.length_write hitem]
    simp only [List.length_cons, List.length_append, hfar]
    omega
  | append locals =>
    obtain ⟨b, hlocals, hb⟩ := Bytes.bind_eq_ok_iff.mp h
    rw [← Except.ok.inj hb, size, growth,
      ← VerificationType.length_many (Bytes.concatMapM_eq_ok_iff.mp hlocals)]
    simp only [List.length_cons, List.length_append, hfar]
    omega
  | full locals stack =>
    obtain ⟨_, hlocals, h⟩ := Bytes.bind_eq_ok_iff.mp h
    obtain ⟨_, hstack, hb⟩ := Bytes.bind_eq_ok_iff.mp h
    obtain ⟨b₁, hmany₁, rfl⟩ := Bytes.ofTableM_eq_ok_iff.mp hlocals
    obtain ⟨b₂, hmany₂, rfl⟩ := Bytes.ofTableM_eq_ok_iff.mp hstack
    rw [← Except.ok.inj hb, size, growth, ← VerificationType.length_many hmany₁,
      ← VerificationType.length_many hmany₂]
    simp only [List.length_cons, List.length_append, BigEndian.length_encode]
    omega
  | _ =>
    rw [← Except.ok.inj h, List.length_cons, hfar]
    rfl

theorem size_pos (kind : FrameKind) : 0 < kind.size := by
  unfold size
  split
  all_goals omega

end FrameKind

namespace StackMap

variable {layout : Layout}

theorem isSome_positions_iff (hfits : layout.Fits) {frame : StackMapFrame} :
    (∀ p ∈ frame.positions, (layout.offset? p).isSome) ↔
      (layout.offset? frame.target).isSome ∧
        ∀ distance, ∃ b, frame.kind.write layout distance = .ok b := by
  simp only [StackMapFrame.positions, List.forall_mem_cons, List.mem_filterMap,
    FrameKind.exists_write_iff, VerificationType.exists_write_iff hfits, forall_const]
  refine and_congr_right fun _ => ?_
  -- The types do not depend on the distance, only how it is spelled does.
  constructor
  · exact fun h t ht p hp => h p ⟨t, ht, hp⟩
  · rintro h p ⟨t, ht, hp⟩
    exact h t ht p hp

/-- Behind a frame, frames have a form if they stand in ascending order and inside the code. -/
theorem exists_form_behind_iff (h : layout.Ascending) (hfits : layout.Fits) {q o : Nat}
    (hq : layout.offset? q = some o) {frames : List StackMapFrame} :
    (∃ b, Form layout (some o) frames b) ↔
      (q :: frames.map StackMapFrame.target).IsChain (· < ·) ∧
        ∀ p ∈ frames.flatMap StackMapFrame.positions, (layout.offset? p).isSome := by
  -- Each frame is told by its distance to the one before, so the induction is for every one before.
  induction frames generalizing q o with
  | nil => exact ⟨fun _ => ⟨.singleton q, List.forall_mem_nil _⟩, fun _ => ⟨[], rfl⟩⟩
  | cons frame rest ih =>
    simp only [Form, List.map_cons, List.flatMap_cons, List.forall_mem_append,
      isSome_positions_iff hfits, List.isChain_cons_cons]
    constructor
    · rintro ⟨_, d, a, items, htarget, hd, ha, hitems, -⟩
      obtain ⟨hchain, hrest⟩ := (ih htarget).mp ⟨items, hitems⟩
      refine ⟨⟨(h.lt_iff hq htarget).mpr ?_, hchain⟩, ⟨?_, fun distance => ?_⟩, hrest⟩
      · rw [offsetAfter]
        omega
      · rw [htarget]
        rfl
      · exact FrameKind.exists_write_iff.mpr (FrameKind.exists_write_iff.mp ⟨a, ha⟩)
    · -- The distance is one less than the gap, so two frames at one place have none.
      rintro ⟨⟨hlt, hchain⟩, ⟨htarget, hwrite⟩, hrest⟩
      obtain ⟨o', ho'⟩ := Option.isSome_iff_exists.mp htarget
      have hlt' := (h.lt_iff hq ho').mp hlt
      have hafter : offsetAfter (some o) (o' - o - 1) = o' := by
        rw [offsetAfter]
        omega
      obtain ⟨items, hitems⟩ := (ih ho').mpr ⟨hchain, hrest⟩
      obtain ⟨a, ha⟩ := hwrite (o' - o - 1)
      have := hfits ho'
      exact ⟨_, o' - o - 1, a, items, by rw [hafter, ho'], by omega, ha, by rwa [hafter], rfl⟩

theorem exists_form_iff (h : layout.Ascending) (hfits : layout.Fits)
    {frames : List StackMapFrame} :
    (∃ b, Form layout none frames b) ↔
      (frames.map StackMapFrame.target).IsChain (· < ·) ∧
        ∀ p ∈ frames.flatMap StackMapFrame.positions, (layout.offset? p).isSome := by
  cases frames with
  | nil => exact ⟨fun _ => ⟨.nil, List.forall_mem_nil _⟩, fun _ => ⟨[], rfl⟩⟩
  | cons frame rest =>
    simp only [Form, List.map_cons, List.flatMap_cons, List.forall_mem_append,
      isSome_positions_iff hfits]
    constructor
    · rintro ⟨_, d, a, items, htarget, -, ha, hitems, -⟩
      obtain ⟨hchain, hrest⟩ := (exists_form_behind_iff h hfits htarget).mp ⟨items, hitems⟩
      refine ⟨hchain, ⟨?_, fun distance => ?_⟩, hrest⟩
      · rw [htarget]
        rfl
      · exact FrameKind.exists_write_iff.mpr (FrameKind.exists_write_iff.mp ⟨a, ha⟩)
    · rintro ⟨hchain, ⟨htarget, hwrite⟩, hrest⟩
      obtain ⟨o, ho⟩ := Option.isSome_iff_exists.mp htarget
      obtain ⟨items, hitems⟩ := (exists_form_behind_iff h hfits ho).mpr ⟨hchain, hrest⟩
      obtain ⟨a, ha⟩ := hwrite o
      exact ⟨_, o, a, items, ho, hfits ho, ha, hitems, rfl⟩

theorem length_form {previous : Option Nat} {frames : List StackMapFrame} {b : Bytes}
    (h : Form layout previous frames b) :
    (frames.map fun frame => frame.kind.size).sum ≤ b.length ∧
      b.length ≤ 3 * (frames.map fun frame => frame.kind.size).sum := by
  induction frames generalizing previous b with
  | nil =>
    obtain rfl : b = [] := h
    exact ⟨Nat.le_refl _, Nat.le_refl _⟩
  | cons frame rest ih =>
    obtain ⟨d, a, items, -, -, ha, hitems, rfl⟩ := h
    -- A frame takes at most two bytes more than its size, which is no less than one.
    have hframe := FrameKind.length_write ha
    have hgrowth := frame.kind.growth_le d
    have hpos := frame.kind.size_pos
    have hrest := ih hitems
    rw [List.map_cons, List.sum_cons, List.length_append]
    omega

end StackMap

/-! ### Attributes -/

namespace CodeAttribute

variable {layout : Layout}

/-- How many bytes the contents of an attribute take at least. -/
def size : CodeAttribute → Nat
  | .lineNumbers _ entries => 2 + 4 * entries.length
  | .localVariables _ entries | .localVariableTypes _ entries => 2 + 10 * entries.length
  | .stackMap _ frames => 2 + (frames.map fun frame => frame.kind.size).sum
  | .other raw => raw.info.length

theorem size_mapPositions (f : Nat → Nat) (a : CodeAttribute) :
    (a.mapPositions f).size = a.size := by
  cases a with
  | stackMap nameIndex frames =>
    simp only [mapPositions, size, List.map_map, Function.comp_def, StackMapFrame.mapPositions,
      FrameKind.size_mapPositions]
  | other => rfl
  | _ => simp only [mapPositions, size, List.length_map]

theorem size_dropLinesFrom_le (limit : Nat) (a : CodeAttribute) :
    (a.dropLinesFrom limit).size ≤ a.size := by
  cases a with
  | lineNumbers nameIndex entries =>
    have := List.length_filter_le (fun entry : LineNumber => entry.start < limit) entries
    simp only [dropLinesFrom, size]
    omega
  | _ => exact Nat.le_refl _

/-- The contents of an attribute can be written if its positions have offsets and its frames stand
in ascending order. -/
theorem exists_toRaw_iff (h : layout.Ascending) (hfits : layout.Fits) {a : CodeAttribute} :
    (∃ raw, a.toRaw layout = .ok raw) ↔ a.frames.length < 65536 ∧
      (a.frames.map StackMapFrame.target).IsChain (· < ·) ∧
        ∀ p ∈ a.positions, (layout.offset? p).isSome := by
  have hscopes : ∀ entries : List LocalVariable,
      (∃ b, Bytes.ofTableM (LocalVariable.write layout) entries = .ok b) ↔
        ∀ p ∈ entries.flatMap LocalVariable.positions, (layout.offset? p).isSome := by
    intro entries
    simp only [Bytes.exists_ofTableM_iff, LocalVariable.exists_write_iff hfits, List.mem_flatMap,
      forall_exists_index, and_imp]
    exact ⟨fun h p entry hentry hp => h entry hentry p hp,
      fun h entry hentry p hp => h p entry hentry hp⟩
  have hframeless : ∀ P : Prop, P ↔ ([] : List StackMapFrame).length < 65536 ∧
      (([] : List StackMapFrame).map StackMapFrame.target).IsChain (· < ·) ∧ P :=
    fun P => ⟨fun h => ⟨by decide, .nil, h⟩, fun h => h.2.2⟩
  -- Only a stack map has frames; the positions of other attributes just need offsets.
  cases a with
  | lineNumbers nameIndex entries =>
    refine Bytes.exists_bind_pure_iff.trans (Iff.trans ?_ (hframeless _))
    simp only [Bytes.exists_ofTableM_iff, LineNumber.exists_write_iff hfits, positions,
      List.forall_mem_map]
  | localVariables nameIndex entries =>
    exact Bytes.exists_bind_pure_iff.trans ((hscopes entries).trans (hframeless _))
  | localVariableTypes nameIndex entries =>
    exact Bytes.exists_bind_pure_iff.trans ((hscopes entries).trans (hframeless _))
  | stackMap nameIndex frames =>
    refine Bytes.exists_bind_pure_iff.trans ?_
    simp only [StackMap.write_eq_ok_iff hfits]
    rw [CodeAttribute.frames, positions, ← StackMap.exists_form_iff h hfits]
    constructor
    · rintro ⟨_, hlen, items, hitems, -⟩
      exact ⟨hlen, items, hitems⟩
    · rintro ⟨hlen, items, hitems⟩
      exact ⟨_, hlen, items, hitems, rfl⟩
  | other raw =>
    exact Iff.trans ⟨fun _ => List.forall_mem_nil _, fun _ => ⟨raw, rfl⟩⟩ (hframeless _)

/-- What is written of an attribute takes its size; only frames may take more. -/
theorem length_toRaw_cases (hfits : layout.Fits) {a : CodeAttribute} {raw : RawAttribute}
    (h : a.toRaw layout = .ok raw) : raw.info.length = a.size ∨
      ∃ nameIndex frames items, a = .stackMap nameIndex frames ∧
        StackMap.Form layout none frames items ∧ raw.info.length = 2 + items.length := by
  -- All entries of a table take the same space.
  have htable : ∀ {α : Type} {w : α → Except Fault Bytes} {k : Nat} {xs : List α} {b : Bytes},
      (∀ x b, w x = .ok b → b.length = k) → Bytes.ofTableM w xs = .ok b →
        b.length = 2 + k * xs.length := by
    intro α w k xs b hk hb
    obtain ⟨items, hitems, rfl⟩ := Bytes.ofTableM_eq_ok_iff.mp hb
    have hle := hitems.le_sum fun x _ b hx => (hk x b hx).le
    have hge := hitems.sum_le fun x _ b hx => (hk x b hx).ge
    rw [List.map_const', List.sum_replicate, smul_eq_mul, Nat.mul_comm] at hle hge
    rw [List.length_append, BigEndian.length_encode]
    omega
  cases a with
  | lineNumbers nameIndex entries =>
    obtain ⟨b, hb, h⟩ := Bytes.bind_eq_ok_iff.mp h
    obtain rfl := Except.ok.inj h
    exact .inl (htable (fun _ _ => LineNumber.length_write) hb)
  | localVariables nameIndex entries =>
    obtain ⟨b, hb, h⟩ := Bytes.bind_eq_ok_iff.mp h
    obtain rfl := Except.ok.inj h
    exact .inl (htable (fun _ _ => LocalVariable.length_write) hb)
  | localVariableTypes nameIndex entries =>
    obtain ⟨b, hb, h⟩ := Bytes.bind_eq_ok_iff.mp h
    obtain rfl := Except.ok.inj h
    exact .inl (htable (fun _ _ => LocalVariable.length_write) hb)
  | stackMap nameIndex frames =>
    obtain ⟨b, hb, h⟩ := Bytes.bind_eq_ok_iff.mp h
    obtain rfl := Except.ok.inj h
    obtain ⟨-, items, hitems, rfl⟩ := (StackMap.write_eq_ok_iff hfits).mp hb
    refine .inr ⟨nameIndex, frames, items, rfl, hitems, ?_⟩
    rw [List.length_append, BigEndian.length_encode]
  | other raw' =>
    obtain rfl := Except.ok.inj h
    exact .inl rfl

/-- What is written of an attribute takes little more than its size. -/
theorem length_toRaw (hfits : layout.Fits) {a : CodeAttribute} {raw : RawAttribute}
    (h : a.toRaw layout = .ok raw) : a.size ≤ raw.info.length ∧ raw.info.length ≤ 3 * a.size := by
  rcases length_toRaw_cases hfits h with hlen | ⟨nameIndex, frames, items, rfl, hitems, hlen⟩
  · omega
  · have := StackMap.length_form hitems
    rw [size]
    omega

end CodeAttribute

/-! ### Bodies -/

theorem Layout.isSome_offset?_iff {list : List Instruction} {p : Nat} :
    ((ofInstructions list).offset? p).isSome ↔ p ≤ list.length := by
  rw [offset?_ofInstructions, isSome_getElem?, length_offsetsFrom]
  exact Nat.lt_succ_iff

theorem layout_of_encode [Build] {method : String} {list : List Instruction} {encoded : Encoded}
    (h : encode method list = .ok encoded) :
    encoded.layout = Layout.ofInstructions list ∧ (Layout.ofInstructions list).Fits := by
  obtain ⟨hlayout, hlen, -⟩ := encode_eq_ok_iff.mp h
  exact ⟨hlayout, Layout.fits_ofInstructions hlen⟩

namespace Code

variable {code code' : Code} {method : String}

/-- How many bytes the tables of a body take at least, with all that is written beside the code
array. -/
def tableSize (code : Code) : Nat :=
  12 + 8 * code.handlers.length + (code.attributes.map fun a => 6 + a.size).sum

/-- Whether the tables of a body can be written beside its code array: its positions have offsets,
and the frames of an attribute can be counted and stand in ascending order. -/
structure Fitting (code : Code) : Prop where
  inside : ∀ p ∈ code.tablePositions, p ≤ code.instructions.length
  counted : ∀ a ∈ code.attributes, a.frames.length < 65536
  ascending : ∀ a ∈ code.attributes, (a.frames.map StackMapFrame.target).Pairwise (· < ·)

/-- Where an attribute fits, it fits its layout. -/
theorem exists_toRaw_iff {list : List Instruction} (hfits : (Layout.ofInstructions list).Fits)
    {a : CodeAttribute} : (∃ raw, a.toRaw (Layout.ofInstructions list) = .ok raw) ↔
      a.frames.length < 65536 ∧ (a.frames.map StackMapFrame.target).Pairwise (· < ·) ∧
        ∀ p ∈ a.positions, p ≤ list.length := by
  simp only [CodeAttribute.exists_toRaw_iff (Layout.ascending_ofInstructions list) hfits,
    List.isChain_iff_pairwise, Layout.isSome_offset?_iff]

theorem exists_handler_write_iff {list : List Instruction}
    (hfits : (Layout.ofInstructions list).Fits) {handler : Handler} :
    (∃ b, handler.write (Layout.ofInstructions list) = .ok b) ↔
      ∀ p ∈ handler.positions, p ≤ list.length := by
  simp only [Handler.exists_write_iff hfits, Layout.isSome_offset?_iff]

/-- What is written of a body is put together from its code array and the items of its tables. -/
theorem exists_parts_of_write [Build] {body : Bytes} (h : code.write method = .ok body) :
    ∃ array handlers attributes : Bytes,
      encode method code.instructions = .ok ⟨array, Layout.ofInstructions code.instructions⟩ ∧
      (Layout.ofInstructions code.instructions).Fits ∧
      Bytes.Many (fun handler b => handler.write (Layout.ofInstructions code.instructions) = .ok b)
        code.handlers handlers ∧
      Bytes.Many (fun a b => a.write (Layout.ofInstructions code.instructions) = .ok b)
        code.attributes attributes ∧
      body = code.assemble array (BigEndian.encode 2 code.handlers.length ++ handlers)
        (BigEndian.encode 2 code.attributes.length ++ attributes) := by
  obtain ⟨array, handlers, attributes, layout, hencode, hhandlers, hattributes, rfl⟩ :=
    write_eq_ok_iff.mp h
  obtain ⟨hlayout, hfits⟩ := layout_of_encode hencode
  obtain rfl : layout = _ := hlayout
  obtain ⟨handlers, hmany₁, rfl⟩ := Bytes.ofTableM_eq_ok_iff.mp hhandlers
  obtain ⟨attributes, hmany₂, rfl⟩ := Bytes.ofTableM_eq_ok_iff.mp hattributes
  exact ⟨array, handlers, attributes, hencode, hfits, hmany₁, hmany₂, rfl⟩

/-- The tables of a body that has been written fit. -/
theorem fitting_of_write [Build] {body : Bytes} (h : code.write method = .ok body) :
    code.Fitting := by
  obtain ⟨array, handlers, attributes, -, hfits, hmany₁, hmany₂, -⟩ := exists_parts_of_write h
  have hraw : ∀ a ∈ code.attributes, ∃ raw,
      a.toRaw (Layout.ofInstructions code.instructions) = .ok raw := by
    intro a ha
    obtain ⟨b, hb, -⟩ := hmany₂.exists_of_mem ha
    obtain ⟨raw, hraw, -⟩ := Bytes.bind_eq_ok_iff.mp hb
    exact ⟨raw, hraw⟩
  refine ⟨fun p hp => ?_, fun a ha => ((exists_toRaw_iff hfits).mp (hraw a ha)).1,
    fun a ha => ((exists_toRaw_iff hfits).mp (hraw a ha)).2.1⟩
  rw [tablePositions, List.mem_append, List.mem_flatMap, List.mem_flatMap] at hp
  rcases hp with ⟨handler, hh, hp⟩ | ⟨a, ha, hp⟩
  · obtain ⟨b, hb, -⟩ := hmany₁.exists_of_mem hh
    exact (exists_handler_write_iff hfits).mp ⟨b, hb⟩ p hp
  · exact ((exists_toRaw_iff hfits).mp (hraw a ha)).2.2 p hp

/-- A written attribute is told by six bytes. -/
theorem length_write_attribute {list : List Instruction}
    (hfits : (Layout.ofInstructions list).Fits) {a : CodeAttribute} {b : Bytes}
    (h : a.write (Layout.ofInstructions list) = .ok b) :
    6 + a.size ≤ b.length ∧ b.length ≤ 3 * (6 + a.size) := by
  obtain ⟨raw, hraw, hb⟩ := Bytes.bind_eq_ok_iff.mp h
  obtain ⟨-, rfl⟩ := RawAttribute.write_eq_ok_iff.mp hb
  have := CodeAttribute.length_toRaw hfits hraw
  simp only [List.length_append, Bytes.ofU16, BigEndian.length_encode]
  omega

/-- What is written of a body takes its code array, and for the tables little more than their
size. -/
theorem length_of_write [Build] {body : Bytes} (h : code.write method = .ok body) :
    ∃ encoded, encode method code.instructions = .ok encoded ∧
      code.tableSize + encoded.bytes.length ≤ body.length ∧
      body.length ≤ 3 * code.tableSize + encoded.bytes.length := by
  obtain ⟨array, handlers, attributes, hencode, hfits, hmany₁, hmany₂, rfl⟩ :=
    exists_parts_of_write h
  refine ⟨_, hencode, ?_⟩
  have hhandlers := hmany₁.sum_le fun handler _ b hb => (Handler.length_write hb).ge
  have hhandlers' := hmany₁.le_sum fun handler _ b hb => (Handler.length_write hb).le
  have hattributes := hmany₂.sum_le fun a _ b hb => (length_write_attribute hfits hb).1
  have hattributes' := hmany₂.le_sum fun a _ b hb => (length_write_attribute hfits hb).2
  rw [List.map_const', List.sum_replicate, smul_eq_mul] at hhandlers hhandlers'
  rw [List.sum_map_mul_left] at hattributes'
  rw [tableSize, assemble]
  simp only [List.length_append, Bytes.ofU16, BigEndian.length_encode]
  omega

theorem tableSize_le_of_write [Build] {body : Bytes} (h : code.write method = .ok body) :
    code.tableSize ≤ body.length := by
  obtain ⟨_, -, hle, -⟩ := length_of_write h
  exact (Nat.le_add_right _ _).trans hle

/-- A body whose instructions can be encoded and whose tables fit fails to be written only where the
length of an attribute does. -/
theorem failsBy_write_of_raw [Build] {P : Fault → Prop} (h : code.Fitting) {encoded : Encoded}
    (hencode : encode method code.instructions = .ok encoded)
    (hraw : ∀ a ∈ code.attributes, ∀ raw, a.toRaw encoded.layout = .ok raw → FailsBy P raw.write) :
    FailsBy P (code.write method) := by
  obtain ⟨hlayout, hfits⟩ := layout_of_encode hencode
  rw [hlayout] at hraw
  have hinside : ∀ p, p ∈ code.handlers.flatMap Handler.positions ∨
      p ∈ code.attributes.flatMap CodeAttribute.positions → p ≤ code.instructions.length :=
    fun p hp => h.inside p (List.mem_append.mpr hp)
  have hhandlers := Bytes.exists_ofTableM_iff.mpr fun handler hh =>
    (exists_handler_write_iff hfits).mpr fun p hp =>
      hinside p (.inl (List.mem_flatMap.mpr ⟨handler, hh, hp⟩))
  have hattribute : ∀ a ∈ code.attributes,
      FailsBy P (a.write (Layout.ofInstructions code.instructions)) := by
    intro a ha
    have hexists := (exists_toRaw_iff hfits).mpr ⟨h.counted a ha, h.ascending a ha, fun p hp =>
      hinside p (.inr (List.mem_flatMap.mpr ⟨a, ha, hp⟩))⟩
    exact (FailsBy.of_exists hexists).bind_of_ok (hraw a ha)
  refine (FailsBy.of_exists ⟨encoded, hencode⟩).bind_of_ok fun encoded' hencode' => ?_
  obtain rfl := Except.ok.inj (hencode.symm.trans hencode')
  rw [hlayout]
  exact (FailsBy.of_exists hhandlers).bind fun _ =>
    (FailsBy.ofTableM hattribute).bind fun _ => .ok _ _

/-- A body whose instructions can be encoded and whose tables fit can be written, unless an
attribute is too large. -/
theorem failsBy_write [Build] (h : code.Fitting) {encoded : Encoded}
    (hencode : encode method code.instructions = .ok encoded) :
    FailsBy (Fault.IsTooLarge (3 * code.tableSize)) (code.write method) := by
  obtain ⟨hlayout, hfits⟩ := layout_of_encode hencode
  refine failsBy_write_of_raw h hencode fun a ha raw hraw => RawAttribute.failsBy_write ?_
  -- The contents of one attribute take no more than all tables.
  have hle := (CodeAttribute.length_toRaw (hlayout ▸ hfits) hraw).2
  have := List.single_le_sum (fun _ _ => Nat.zero_le _) _
    (List.mem_map_of_mem (f := fun a => 6 + a.size) ha)
  rw [tableSize]
  omega

/-- What is written of a proper body takes little more than its tables and a code array. -/
theorem length_write_le [Build] {pool : ConstantPool} (hproper : code.Proper pool) {body : Bytes}
    (h : code.write method = .ok body) : body.length ≤ 3 * code.tableSize + 65535 := by
  obtain ⟨encoded, hencode, -, hle⟩ := length_of_write h
  obtain ⟨-, harray, -⟩ := encode_iff_decode.mp ⟨hproper.legible, hencode⟩
  omega

/-! ### Insertion and removal -/

theorem tableSize_mapPositions (f : Nat → Nat) (code : Code) :
    (code.mapPositions f).tableSize = code.tableSize := by
  simp only [tableSize, mapPositions, List.length_map, List.map_map, Function.comp_def,
    CodeAttribute.size_mapPositions]

theorem tableSize_insert (code : Code) (place : Nat) (sequence : Instructions) :
    (code.insert place sequence).tableSize = code.tableSize :=
  tableSize_mapPositions _ code

theorem tableSize_remove_le {place : Nat} {i : Instruction}
    (h : code.remove method place = .ok (i, code')) : code'.tableSize ≤ code.tableSize := by
  obtain ⟨-, -, rfl⟩ := Code.remove_eq_ok_iff.mp h
  rw [← tableSize_mapPositions (Renumber.removed place) code, tableSize, tableSize]
  refine Nat.add_le_add_left ?_ _
  rw [withoutInstruction, List.map_map]
  exact List.sum_le_sum fun a _ =>
    Nat.add_le_add_left (CodeAttribute.size_dropLinesFrom_le _ a) 6

/-- Tables that are renumbered fit still if no position leaves the code and frames keep their
order. -/
theorem Fitting.renumbered {f : Nat → Nat} (h : code.Fitting)
    (hf : ∀ p ≤ code.instructions.length, f p ≤ code'.instructions.length)
    (horder : ∀ x ∈ code.frames, ∀ y ∈ code.frames, x.target < y.target →
      f x.target < f y.target)
    (htables : ∀ p ∈ code'.tablePositions, p ∈ code.tablePositions.map f)
    (hframes : ∀ a' ∈ code'.attributes, ∃ a ∈ code.attributes,
      a'.frames = a.frames.map (StackMapFrame.mapPositions f)) : code'.Fitting where
  inside := by
    intro p hp
    obtain ⟨q, hq, rfl⟩ := List.mem_map.mp (htables p hp)
    exact hf q (h.inside q hq)
  counted := by
    intro a' ha'
    obtain ⟨a, ha, hframes⟩ := hframes a' ha'
    rw [hframes, List.length_map]
    exact h.counted a ha
  ascending := by
    intro a' ha'
    obtain ⟨a, ha, hframes⟩ := hframes a' ha'
    have hmem : ∀ x ∈ a.frames, x ∈ code.frames := fun x hx => List.mem_flatMap.mpr ⟨a, ha, hx⟩
    have hsorted := h.ascending a ha
    rw [List.pairwise_map] at hsorted
    rw [hframes, List.map_map, List.pairwise_map]
    exact hsorted.imp_of_mem fun hx hy => horder _ (hmem _ hx) _ (hmem _ hy)

theorem Fitting.insert (h : code.Fitting) (place : Nat) (sequence : Instructions) :
    (code.insert place sequence).Fitting := by
  refine h.renumbered (f := Renumber.inserted place sequence.length) ?_ ?_ ?_ ?_
  · intro p hp
    show _ ≤ (Instructions.insert code.instructions place sequence).length
    rw [Instructions.length_insert, Renumber.inserted]
    split
    all_goals omega
  · exact fun _ _ _ _ hlt => Renumber.inserted_strictMono hlt
  · intro p hp
    rwa [← tablePositions_mapPositions]
  · intro a' ha'
    obtain ⟨a, ha, rfl⟩ := List.mem_map.mp ha'
    exact ⟨a, ha, a.frames_mapPositions _⟩

/-- Only frames at and behind the instruction taken out could meet, and it has none. -/
theorem Fitting.remove (h : code.Fitting) {place : Nat} {i : Instruction}
    (hremove : code.remove method place = .ok (i, code')) : code'.Fitting := by
  obtain ⟨hi, hfree, hcode'⟩ := Code.remove_eq_ok_iff.mp hremove
  have hplace := (List.getElem?_eq_some_iff.mp hi).1
  obtain ⟨-, -, hframes⟩ := Code.not_referenced hfree
  refine h.renumbered (f := Renumber.removed place) ?_ ?_ ?_ ?_
  · intro p hp
    have hcount : code'.instructions.length = code.instructions.length - 1 := by
      rw [hcode', withoutInstruction, List.length_map, List.length_eraseIdx_of_lt hplace]
    rw [hcount, Renumber.removed]
    split
    all_goals omega
  · -- Two frames could only meet if the first were at `place`.
    intro x hx y _ hlt
    have hne := hframes x hx
    rw [Renumber.removed, Renumber.removed]
    split
    all_goals
      split
      all_goals omega
  · exact fun p => mem_tablePositions_of_remove hremove
  · intro a' ha'
    rw [hcode'] at ha'
    obtain ⟨_, hmoved, rfl⟩ := List.mem_map.mp ha'
    obtain ⟨a, ha, rfl⟩ := List.mem_map.mp hmoved
    exact ⟨a, ha, by rw [CodeAttribute.frames_dropLinesFrom, CodeAttribute.frames_mapPositions]⟩

end Code

end ClassGraft
