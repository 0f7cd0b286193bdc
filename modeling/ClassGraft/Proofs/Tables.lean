/-
Attributes and the tables of a method body as bytes.

An attribute is read from exactly the bytes it is written as (`RawAttribute.takes_read`), and so
are the entries of the tables beside a code array, as long as their positions lie as reading
demands: a handler covers something and is entered at an instruction (`Handler.Proper`), a scope
ends behind its start (`LocalVariable.Proper`).
-/
import ClassGraft.Code.Reader
import ClassGraft.Code.Writer
import ClassGraft.Proofs.Positions

namespace ClassGraft

open Reader

/-! ### Attributes -/

namespace RawAttribute

theorem write_eq_ok_iff {raw : RawAttribute} {b : Bytes} :
    raw.write = .ok b ↔ raw.info.length < 4294967296 ∧
      b = Bytes.ofU16 raw.nameIndex ++ (BigEndian.encode 4 raw.info.length ++ raw.info) := by
  simp only [write]
  by_cases h : raw.info.length < 4294967296
  · rw [if_pos h, Except.ok.injEq, List.append_assoc]
    simp [h, eq_comm]
  · rw [if_neg h]
    simp [h]

/-- An attribute is read from exactly the bytes that it is written as. -/
theorem takes_read : RawAttribute.read.Takes fun raw b => raw.write = .ok b := by
  intro c raw c'
  simp only [RawAttribute.read, bind_eq_ok_iff, u16_eq_ok_iff, u32_eq_ok_iff, bytes_eq_ok_iff,
    pure_eq_ok_iff, write_eq_ok_iff]
  constructor
  · rintro ⟨nameIndex, m, hname, length, m', hlength, info, _, ⟨hlen, hinfo⟩, rfl, rfl⟩
    refine ⟨_, ⟨?_, rfl⟩, hname.append ?_⟩
    · simp only [hlen]
      exact length.toNat_lt
    · simp only [hlen]
      exact Cursor.Advances.append hlength hinfo
  · rintro ⟨_, ⟨hlt, rfl⟩, h⟩
    obtain ⟨m, hname, h⟩ := Cursor.advances_append.mp h
    obtain ⟨m', hlength, hinfo⟩ := Cursor.advances_append.mp h
    have htoNat : (UInt32.ofNat raw.info.length).toNat = raw.info.length :=
      UInt32.toNat_ofNat_of_lt' hlt
    refine ⟨raw.nameIndex, m, hname, UInt32.ofNat raw.info.length, m', ?_, raw.info, c',
      ⟨htoNat.symm, hinfo⟩, rfl, rfl⟩
    rwa [Bytes.ofU32, htoNat]

end RawAttribute

/-! ### Contents that are read to their end -/

/-- Bytes that are read to their end are a form of the value. -/
theorem Reader.Takes.whole {α : Type} {r : Reader α} {form : α → Bytes → Prop} (h : r.Takes form)
    {bytes : Bytes} {x : α} :
    (∃ c', r (Cursor.start bytes) = .ok x c' ∧ c'.rest = []) ↔ form x bytes := by
  simp only [h _ _ _]
  constructor
  · rintro ⟨c', ⟨b, hx, hb⟩, hend⟩
    obtain ⟨rfl, -⟩ := Cursor.advances_start hb
    rwa [hend, List.append_nil]
  · intro hx
    exact ⟨⟨0 + bytes.length, []⟩, ⟨bytes, hx, (List.append_nil bytes).symm, rfl⟩, rfl⟩

/-- A table that is all that bytes hold. -/
theorem eval_table_eq_ok_iff {α : Type} {item : Reader α} {form : α → Bytes → Prop}
    (h : item.Takes form) {trailing : Malformation} {bytes : Bytes} {xs : List α} :
    (do
      let entries ← table item
      if ← more then malformed trailing else return entries : Reader _).eval bytes = .ok xs ↔
      Bytes.Table form xs bytes := by
  rw [eval_eq_ok_iff, ← h.table.whole]
  simp only [bind_eq_ok_iff, more_eq_ok_iff]
  constructor
  · rintro ⟨c', entries, m, hentries, b, _, ⟨rfl, rfl⟩, h⟩
    rcases hrest : m.rest with _ | ⟨byte, rest⟩
    · rw [hrest] at h
      obtain ⟨rfl, rfl⟩ := pure_eq_ok_iff.mp h
      exact ⟨m, hentries, hrest⟩
    · rw [hrest] at h
      exact (malformed_eq_ok_iff.mp h).elim
  · rintro ⟨c', hentries, hend⟩
    refine ⟨c', xs, c', hentries, _, _, ⟨rfl, rfl⟩, ?_⟩
    rw [hend]
    exact pure_eq_ok_iff.mpr ⟨rfl, rfl⟩

/-! ### Handlers and line numbers -/

variable {layout : Layout}

/-- A handler as reading gives it. -/
def Handler.Proper (count : Nat) (handler : Handler) : Prop :=
  handler.start < handler.stop ∧ handler.entry < count

/-- A proper handler is read from exactly the bytes that it is written as, and no other is read. -/
theorem Handler.takes_read (h : layout.Ascending) : (Handler.read layout).Takes fun handler b =>
    handler.Proper layout.count ∧ handler.write layout = .ok b := by
  intro c handler c'
  simp only [Handler.read, Handler.write, bind_eq_ok_iff, Bytes.bind_eq_ok_iff,
    Layout.takes_readPosition h _ _ _ _]
  constructor
  · rintro ⟨start, m₁, ⟨b₁, hstart, hb₁⟩, stop, m₂, ⟨b₂, hstop, hb₂⟩, entry, m₃,
      ⟨b₃, hentry, hb₃⟩, h⟩
    by_cases hproper : start < stop ∧ entry < layout.count
    · rw [if_pos hproper] at h
      simp only [bind_eq_ok_iff, u16_eq_ok_iff, pure_eq_ok_iff] at h
      obtain ⟨catchType, _, hb₄, rfl, rfl⟩ := h
      refine ⟨_, ⟨hproper, b₁, hstart, b₂, hstop, b₃, hentry, rfl⟩, ?_⟩
      exact ((hb₁.append hb₂).append hb₃).append hb₄
    · rw [if_neg hproper] at h
      exact (malformed_eq_ok_iff.mp h).elim
  · rintro ⟨b, ⟨hproper, b₁, hstart, b₂, hstop, b₃, hentry, hb⟩, hadv⟩
    rw [← Except.ok.inj hb] at hadv
    obtain ⟨m₃, hadv, hb₄⟩ := Cursor.advances_append.mp hadv
    obtain ⟨m₂, hadv, hb₃⟩ := Cursor.advances_append.mp hadv
    obtain ⟨m₁, hb₁, hb₂⟩ := Cursor.advances_append.mp hadv
    refine ⟨_, m₁, ⟨b₁, hstart, hb₁⟩, _, m₂, ⟨b₂, hstop, hb₂⟩, _, m₃, ⟨b₃, hentry, hb₃⟩, ?_⟩
    refine ite_eq_ok_iff.mpr (.inl ⟨hproper, ?_⟩)
    simp only [bind_eq_ok_iff, u16_eq_ok_iff, pure_eq_ok_iff]
    exact ⟨_, c', hb₄, rfl, rfl⟩

theorem LineNumber.takes_read (h : layout.Ascending) :
    (LineNumber.read layout).Takes fun entry b => entry.write layout = .ok b := by
  intro c entry c'
  simp only [LineNumber.read, LineNumber.write, bind_eq_ok_iff, Bytes.bind_eq_ok_iff,
    Layout.takes_readPosition h _ _ _ _, u16_eq_ok_iff, pure_eq_ok_iff]
  constructor
  · rintro ⟨start, m, ⟨b, hstart, hb⟩, line, _, hline, rfl, rfl⟩
    exact ⟨_, ⟨b, hstart, rfl⟩, hb.append hline⟩
  · rintro ⟨_, ⟨b, hstart, hb⟩, hadv⟩
    rw [← Except.ok.inj hb] at hadv
    obtain ⟨m, hb, hline⟩ := Cursor.advances_append.mp hadv
    exact ⟨_, m, ⟨b, hstart, hb⟩, _, c', hline, rfl, rfl⟩

/-! ### Scopes -/

/-- A scope as reading gives it. -/
def LocalVariable.Proper (entry : LocalVariable) : Prop := entry.start ≤ entry.stop

/-- The bytes of a scope: where it starts, how long it is, and what it is a scope of. -/
def LocalVariable.Form (layout : Layout) (entry : LocalVariable) (bytes : Bytes) : Prop :=
  ∃ start length : UInt16, layout.offset? entry.start = some start.toNat ∧
    layout.offset? entry.stop = some (start.toNat + length.toNat) ∧
    bytes = Bytes.ofU16 start ++ Bytes.ofU16 length ++ Bytes.ofU16 entry.nameIndex ++
      Bytes.ofU16 entry.descriptorIndex ++ Bytes.ofU16 entry.index

theorem LocalVariable.takes_read (h : layout.Ascending) :
    (LocalVariable.read layout).Takes (LocalVariable.Form layout) := by
  intro c entry c'
  simp only [LocalVariable.read, bind_eq_ok_iff, u16_eq_ok_iff, ofExcept_eq_ok_iff,
    Layout.position_eq_ok_iff h, pure_eq_ok_iff]
  constructor
  · rintro ⟨start, m₁, hb₁, length, m₂, hb₂, p, _, ⟨hp, rfl⟩, q, _, ⟨hq, rfl⟩, nameIndex, m₃, hb₃,
      descriptorIndex, m₄, hb₄, index, _, hb₅, rfl, rfl⟩
    exact ⟨_, ⟨start, length, hp, hq, rfl⟩,
      (((hb₁.append hb₂).append hb₃).append hb₄).append hb₅⟩
  · rintro ⟨_, ⟨start, length, hp, hq, rfl⟩, hadv⟩
    obtain ⟨m₄, hadv, hb₅⟩ := Cursor.advances_append.mp hadv
    obtain ⟨m₃, hadv, hb₄⟩ := Cursor.advances_append.mp hadv
    obtain ⟨m₂, hadv, hb₃⟩ := Cursor.advances_append.mp hadv
    obtain ⟨m₁, hb₁, hb₂⟩ := Cursor.advances_append.mp hadv
    exact ⟨start, m₁, hb₁, length, m₂, hb₂, _, m₂, ⟨hp, rfl⟩, _, m₂, ⟨hq, rfl⟩, _, m₃, hb₃, _, m₄,
      hb₄, _, c', hb₅, rfl, rfl⟩

/-- A scope that has a form does not end before its start. -/
theorem LocalVariable.proper_of_form (h : layout.Ascending) {entry : LocalVariable} {b : Bytes}
    (hb : LocalVariable.Form layout entry b) : entry.Proper := by
  obtain ⟨start, length, hp, hq, -⟩ := hb
  by_contra hlt
  have := (h.lt_iff hq hp).mp (Nat.lt_of_not_le hlt)
  omega

/-- Where offsets fit two bytes, a proper scope is written in its form. -/
theorem LocalVariable.form_iff_write (h : layout.Ascending) (hfits : layout.Fits)
    {entry : LocalVariable} {b : Bytes} :
    LocalVariable.Form layout entry b ↔ entry.Proper ∧ entry.write layout = .ok b := by
  constructor
  · intro hb
    refine ⟨proper_of_form h hb, ?_⟩
    obtain ⟨start, length, hp, hq, rfl⟩ := hb
    simp only [LocalVariable.write, Bytes.bind_eq_ok_iff, Layout.place_eq_ok_iff]
    refine ⟨_, ⟨hp, hfits hp⟩, _, ⟨hq, hfits hq⟩, ?_⟩
    rw [Nat.add_sub_cancel_left]
    rfl
  · rintro ⟨hproper, hb⟩
    simp only [LocalVariable.write, Bytes.bind_eq_ok_iff, Layout.place_eq_ok_iff] at hb
    obtain ⟨start, ⟨hp, hstart⟩, stop, ⟨hq, hstop⟩, hb⟩ := hb
    have hle : start ≤ stop := by
      by_contra hlt
      have := (h.lt_iff hq hp).mpr (Nat.lt_of_not_le hlt)
      rw [LocalVariable.Proper] at hproper
      omega
    have hstart' : (UInt16.ofNat start).toNat = start :=
      UInt16.toNat_ofNat_of_lt' (by show start < 65536; omega)
    have hlength' : (UInt16.ofNat (stop - start)).toNat = stop - start :=
      UInt16.toNat_ofNat_of_lt' (by show stop - start < 65536; omega)
    refine ⟨UInt16.ofNat start, UInt16.ofNat (stop - start), ?_, ?_, ?_⟩
    · rw [hp, hstart']
    · rw [hq, hstart', hlength', Nat.add_sub_cancel' hle]
    · rw [← Except.ok.inj hb, Bytes.ofU16_ofNat (by omega), Bytes.ofU16_ofNat (by omega)]

end ClassGraft
