/-
The codec of stack maps.

Frames that have been read are written as the bytes they were read from (`StackMap.write_of_parse`).
Frames that have been written are read back as they were, but for compact forms that lie too far
behind the frame before them (`StackMap.parse_of_write`).  Once their positions have offsets, it
depends on the order of frames alone whether they can be written: they are refused at the first
target that does not lie behind the one before it (`StackMap.write_of_breaksOrder`).

All of it holds over any table of ascending offsets that fit two bytes
(`StackMap.parse_write_widened`), not only over those of instructions.
-/
import ClassGraft.Proofs.Writable

namespace ClassGraft

namespace Layout

variable {layout : Layout}

theorem ascending_iff_pairwise :
    layout.Ascending ↔ layout.starts.toList.Pairwise (· < ·) := by
  simp only [List.pairwise_iff_getElem, Array.length_toList, Array.getElem_toList]
  constructor
  · intro h p q hp hq hpq
    exact h hpq (Array.getElem?_eq_getElem hp) (Array.getElem?_eq_getElem hq)
  · intro h p q o o' hpq hp hq
    obtain ⟨hp', rfl⟩ := Array.getElem?_eq_some_iff.mp hp
    obtain ⟨hq', rfl⟩ := Array.getElem?_eq_some_iff.mp hq
    exact h p q hp' hq' hpq

theorem fits_iff_forall_mem : layout.Fits ↔ ∀ o ∈ layout.starts, o ≤ 65535 := by
  constructor
  · intro h o ho
    obtain ⟨p, hp⟩ := Array.mem_iff_getElem?.mp ho
    exact h hp
  · exact fun h p o ho => h o (Array.mem_of_getElem? ho)

end Layout

namespace StackMap

variable {layout : Layout} {frames : List StackMapFrame} {info : Bytes}

/-! ### There and back -/

theorem write_of_parse (h : layout.Ascending) (hfits : layout.Fits)
    (hparse : parse layout info = .ok frames) : write layout frames = .ok info := by
  obtain ⟨hlen, -, -, hform⟩ := (parse_eq_ok_iff h).mp hparse
  exact (write_eq_ok_iff hfits).mpr ⟨hlen, hform⟩

theorem parse_of_write (h : layout.Ascending) (hfits : layout.Fits)
    (hproper : ∀ frame ∈ frames, frame.kind.Proper) (hwrite : write layout frames = .ok info) :
    parse layout info = .ok (widened layout none frames) := by
  obtain ⟨hlen, items, hitems, rfl⟩ := (write_eq_ok_iff hfits).mp hwrite
  refine (parse_eq_ok_iff h).mpr ⟨?_, proper_widened hproper, widened_widened none frames, items,
    form_widened_iff.mpr hitems, ?_⟩
  · rwa [length_widened]
  · rw [length_widened]

/-! ### The order of frames -/

theorem pairwise_of_write (h : layout.Ascending) (hfits : layout.Fits)
    (hwrite : write layout frames = .ok info) :
    (frames.map StackMapFrame.target).Pairwise (· < ·) := by
  obtain ⟨-, items, hitems, -⟩ := (write_eq_ok_iff hfits).mp hwrite
  exact List.isChain_iff_pairwise.mp ((exists_form_iff h hfits).mp ⟨items, hitems⟩).1

theorem exists_write_of_pairwise (h : layout.Ascending) (hfits : layout.Fits)
    (hlen : frames.length ≤ 65535)
    (hpositions : ∀ frame ∈ frames, ∀ p ∈ frame.positions, (layout.offset? p).isSome)
    (hpairwise : (frames.map StackMapFrame.target).Pairwise (· < ·)) :
    ∃ info, write layout frames = .ok info := by
  have hinside : ∀ p ∈ frames.flatMap StackMapFrame.positions, (layout.offset? p).isSome := by
    intro p hp
    obtain ⟨frame, hframe, hp⟩ := List.mem_flatMap.mp hp
    exact hpositions frame hframe p hp
  obtain ⟨items, hitems⟩ :=
    (exists_form_iff h hfits).mpr ⟨List.isChain_iff_pairwise.mpr hpairwise, hinside⟩
  exact ⟨_, (write_eq_ok_iff hfits).mpr ⟨by omega, items, hitems, rfl⟩⟩

/-- Positions ascend up to one that breaks their order: it does not lie behind the one before it. -/
inductive BreaksOrder : List Nat → Nat → Prop
  | here {p q : Nat} {rest : List Nat} (h : q ≤ p) : BreaksOrder (p :: q :: rest) q
  | later {p q r : Nat} {rest : List Nat} (h : p < q) (hrest : BreaksOrder (q :: rest) r) :
    BreaksOrder (p :: q :: rest) r

theorem BreaksOrder.mem {ps : List Nat} {r : Nat} (h : BreaksOrder ps r) : r ∈ ps := by
  induction h with
  | here => exact List.mem_cons_of_mem _ List.mem_cons_self
  | later _ _ ih => exact List.mem_cons_of_mem _ ih

/-- Positions that do not ascend break their order somewhere. -/
theorem exists_breaksOrder {ps : List Nat} (h : ¬ps.Pairwise (· < ·)) : ∃ r, BreaksOrder ps r := by
  rw [← List.isChain_iff_pairwise] at h
  induction ps with
  | nil => exact absurd .nil h
  | cons p rest ih =>
    cases rest with
    | nil => exact absurd (.singleton p) h
    | cons q rest =>
      by_cases hlt : p < q
      · obtain ⟨r, hr⟩ := ih fun hrest => h (.cons_cons hlt hrest)
        exact ⟨r, .later hlt hr⟩
      · exact ⟨q, .here (not_lt.mp hlt)⟩

/-- A frame is written behind those that stand before it. -/
theorem writeFrames_cons {frame : StackMapFrame} {previous : Option Nat} {start d : Nat}
    {bytes : Bytes} (hplace : layout.place frame.target = .ok start)
    (hdistance : distance previous start = .ok d) (hbytes : frame.kind.write layout d = .ok bytes)
    (rest : List StackMapFrame) (done : List Bytes) :
    writeFrames layout previous (frame :: rest) done =
      writeFrames layout (some start) rest (bytes :: done) := by
  rw [writeFrames, hplace]
  show (distance previous start >>= fun d => frame.kind.write layout d >>= _) = _
  rw [hdistance]
  show (frame.kind.write layout d >>= _) = _
  rw [hbytes]
  rfl

/-- A frame all of whose positions have offsets has a place, and can be written at any distance. -/
theorem exists_place_of_isSome (hfits : layout.Fits) {frame : StackMapFrame}
    (h : ∀ p ∈ frame.positions, (layout.offset? p).isSome) :
    ∃ start, layout.offset? frame.target = some start ∧ layout.place frame.target = .ok start ∧
      ∀ d, ∃ bytes, frame.kind.write layout d = .ok bytes := by
  obtain ⟨htarget, hkind⟩ := (isSome_positions_iff hfits).mp h
  obtain ⟨start, hstart⟩ := Option.isSome_iff_exists.mp htarget
  exact ⟨start, hstart, Layout.place_eq_ok_iff.mpr ⟨hstart, hfits hstart⟩, hkind⟩

/-- Behind a frame, frames are written up to the one whose target breaks their order. -/
theorem writeFrames_of_breaksOrder (h : layout.Ascending) (hfits : layout.Fits) {q o r o' : Nat}
    (hq : layout.offset? q = some o) {done : List Bytes}
    (hpositions : ∀ frame ∈ frames, ∀ p ∈ frame.positions, (layout.offset? p).isSome)
    (hbreak : BreaksOrder (q :: frames.map StackMapFrame.target) r)
    (hr : layout.offset? r = some o') :
    writeFrames layout (some o) frames done = .error (.malformed (.frameOutOfOrder o')) := by
  -- The frame before is known by its offset only, so the induction is for every one before.
  induction frames generalizing q o done with
  | nil => cases hbreak
  | cons frame rest ih =>
    obtain ⟨hframe, hrest⟩ := List.forall_mem_cons.mp hpositions
    obtain ⟨start, hstart, hplace, hkind⟩ := exists_place_of_isSome hfits hframe
    cases hbreak with
    | here hle =>
      obtain rfl : start = o' := Option.some.inj (hstart.symm.trans hr)
      have hdistance : distance (some o) start = .error (.malformed (.frameOutOfOrder start)) :=
        if_neg fun hlt => absurd ((h.lt_iff hq hstart).mpr hlt) (not_lt.mpr hle)
      rw [writeFrames, hplace]
      show (distance (some o) start >>= _) = _
      rw [hdistance]
      rfl
    | later hlt hlater =>
      have hdistance : distance (some o) start = .ok (start - o - 1) :=
        if_pos ((h.lt_iff hq hstart).mp hlt)
      obtain ⟨bytes, hbytes⟩ := hkind (start - o - 1)
      rw [writeFrames_cons hplace hdistance hbytes]
      exact ih hstart hrest hlater

theorem write_of_breaksOrder (h : layout.Ascending) (hfits : layout.Fits) {r o : Nat}
    (hlen : frames.length ≤ 65535)
    (hpositions : ∀ frame ∈ frames, ∀ p ∈ frame.positions, (layout.offset? p).isSome)
    (hbreak : BreaksOrder (frames.map StackMapFrame.target) r) (hr : layout.offset? r = some o) :
    write layout frames = .error (.malformed (.frameOutOfOrder o)) := by
  cases frames with
  | nil => cases hbreak
  | cons frame rest =>
    obtain ⟨hframe, hrest⟩ := List.forall_mem_cons.mp hpositions
    obtain ⟨start, hstart, hplace, hkind⟩ := exists_place_of_isSome hfits hframe
    -- The first frame is told by its offset, which is in order wherever it lies.
    obtain ⟨bytes, hbytes⟩ := hkind start
    rw [write, if_pos hlen, writeFrames_cons hplace rfl hbytes,
      writeFrames_of_breaksOrder h hfits hstart hrest hbreak hr]
    rfl

/-- Over ascending offsets, what is read is written as it was, and what is written is read back in
the forms in which it was written.  Frames whose positions have offsets can be written exactly if
their targets ascend, and the refusal names the first that breaks their order. -/
theorem parse_write_widened (h : layout.Ascending) (hfits : layout.Fits) :
    (∀ info frames, parse layout info = .ok frames → write layout frames = .ok info) ∧
    (∀ frames : List StackMapFrame, frames.length ≤ 65535 →
      (∀ frame ∈ frames, frame.kind.Proper) →
      (∀ frame ∈ frames, ∀ p ∈ frame.positions, (layout.offset? p).isSome) →
      ((frames.map StackMapFrame.target).Pairwise (· < ·) →
        ∃ info, write layout frames = .ok info ∧
          parse layout info = .ok (widened layout none frames)) ∧
      (¬(frames.map StackMapFrame.target).Pairwise (· < ·) →
        ∃ r o, BreaksOrder (frames.map StackMapFrame.target) r ∧ layout.offset? r = some o ∧
          write layout frames = .error (.malformed (.frameOutOfOrder o)))) ∧
    (∀ frames : List StackMapFrame, ¬(frames.map StackMapFrame.target).Pairwise (· < ·) →
      ∃ fault, write layout frames = .error fault) := by
  refine ⟨fun info frames => write_of_parse h hfits, fun frames hlen hproper hpositions =>
    ⟨fun hpairwise => ?_, fun hpairwise => ?_⟩, fun frames hpairwise => ?_⟩
  · obtain ⟨info, hwrite⟩ := exists_write_of_pairwise h hfits hlen hpositions hpairwise
    exact ⟨info, hwrite, parse_of_write h hfits hproper hwrite⟩
  · obtain ⟨r, hbreak⟩ := exists_breaksOrder hpairwise
    obtain ⟨frame, hframe, rfl⟩ := List.mem_map.mp hbreak.mem
    have htarget := hpositions frame hframe frame.target List.mem_cons_self
    obtain ⟨o, ho⟩ := Option.isSome_iff_exists.mp htarget
    exact ⟨frame.target, o, hbreak, ho, write_of_breaksOrder h hfits hlen hpositions hbreak ho⟩
  · cases hwrite : write layout frames with
    | error fault => exact ⟨fault, rfl⟩
    | ok info => exact absurd (pairwise_of_write h hfits hwrite) hpairwise

/-- Two compact frames far behind the ones before them come back extended, the other forms as they
were; two frames in the other order are refused. -/
theorem parse_write_widened_farFrames :
    let layout : Layout := ⟨#[0, 70, 140, 150, 65535]⟩
    let frames : List StackMapFrame := [⟨1, .same⟩, ⟨2, .oneOperand (.uninitialized 0)⟩,
      ⟨3, .chop 2⟩, ⟨4, .full [.object 7, .top] [.uninitialized 3]⟩]
    let extended : List StackMapFrame := [⟨1, .sameExtended⟩,
      ⟨2, .oneOperandExtended (.uninitialized 0)⟩, ⟨3, .chop 2⟩,
      ⟨4, .full [.object 7, .top] [.uninitialized 3]⟩]
    (layout.Ascending ∧ layout.Fits) ∧
      (∃ info, write layout frames = .ok info ∧ parse layout info = .ok extended ∧
        write layout extended = .ok info) ∧
      ∃ r o, BreaksOrder [2, 1] r ∧ layout.offset? r = some o ∧
        write layout [⟨2, .same⟩, ⟨1, .same⟩] = .error (.malformed (.frameOutOfOrder o)) := by
  intro layout frames extended
  have hascending : layout.Ascending := Layout.ascending_iff_pairwise.mpr (by decide)
  have hfits : layout.Fits := Layout.fits_iff_forall_mem.mpr (by decide)
  obtain ⟨hread, hwrite, -⟩ := parse_write_widened hascending hfits
  refine ⟨⟨hascending, hfits⟩, ?_, ?_⟩
  · obtain ⟨info, hinfo, hparse⟩ := (hwrite frames (by decide)
      (by simp [frames, FrameKind.Proper]) (by decide)).1 (by decide)
    exact ⟨info, hinfo, hparse, hread info extended hparse⟩
  · exact (hwrite [⟨2, .same⟩, ⟨1, .same⟩] (by decide) (by simp [FrameKind.Proper])
      (by decide)).2 (by decide)

end StackMap

end ClassGraft
