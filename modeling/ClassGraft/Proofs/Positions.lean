/-
Positions and offsets.

In a layout whose offsets ascend strictly, the search for an offset finds the one position that
has it (`Layout.indexOf?_eq_some_iff`), so reading an offset as a position and writing a position
as an offset are inverse to each other (`Layout.takes_readPosition`).  The layout of a list of
instructions is such a layout (`Layout.ascending_ofInstructions`); it depends on the
instructions only through their sizes (`Layout.offsetsFrom_congr`).
-/
import ClassGraft.Code.Position
import ClassGraft.Proofs.Reading

namespace ClassGraft

namespace Layout

/-- Later positions have greater offsets. -/
def Ascending (layout : Layout) : Prop :=
  ∀ ⦃p q o o' : Nat⦄, p < q → layout.offset? p = some o → layout.offset? q = some o' → o < o'

/-- Every offset of the layout fits two bytes. -/
def Fits (layout : Layout) : Prop :=
  ∀ ⦃p o : Nat⦄, layout.offset? p = some o → o ≤ 65535

/-- The offset of a position, 0 for none. -/
def offsetOf (layout : Layout) (position : Nat) : Nat := (layout.offset? position).getD 0

variable {layout : Layout} {p q o o' : Nat}

/-- Every instruction has an offset. -/
theorem offset?_eq_offsetOf (hp : p < layout.count) :
    layout.offset? p = some (layout.offsetOf p) := by
  have hlt : p < layout.starts.size := by
    rw [count] at hp
    omega
  rw [offsetOf, offset?, Array.getElem?_eq_getElem hlt, Option.getD_some]

theorem Ascending.lt_iff (h : layout.Ascending) (hp : layout.offset? p = some o)
    (hq : layout.offset? q = some o') : p < q ↔ o < o' := by
  constructor
  · intro hpq
    exact h hpq hp hq
  · intro hoo
    by_contra hpq
    rcases Nat.lt_or_eq_of_le (Nat.le_of_not_lt hpq) with hqp | rfl
    · have := h hqp hq hp
      omega
    · rw [hp] at hq
      have := Option.some.inj hq
      omega

theorem Ascending.inj (h : layout.Ascending) (hp : layout.offset? p = some o)
    (hq : layout.offset? q = some o) : p = q := by
  have h₁ := h.lt_iff hp hq
  have h₂ := h.lt_iff hq hp
  omega

/-! ### Searching -/

/-- What the search finds is there. -/
theorem getElem?_of_bisect {starts : Array Nat} {offset low high : Nat}
    (h : bisect starts offset low high = some p) : starts[p]? = some offset := by
  fun_induction bisect starts offset low high with
  | case1 low high hlt middle hnone => exact absurd h (by simp)
  | case2 low high hlt middle hstart =>
    obtain rfl := Option.some.inj h
    exact hstart
  | case3 low high hlt middle start hstart hne hless ih => exact ih h
  | case4 low high hlt middle start hstart hne hless ih => exact ih h
  | case5 low high hlt => exact absurd h (by simp)

/-- What is there is found, if the offsets ascend. -/
theorem bisect_of_getElem? (h : layout.Ascending) {low high : Nat} (hlow : low ≤ p)
    (hhigh : p < high) (hsize : high ≤ layout.starts.size) (hp : layout.offset? p = some o) :
    bisect layout.starts o low high = some p := by
  -- As the offsets ascend, the half that is given up cannot hold the one that is looked for.
  fun_induction bisect layout.starts o low high with
  | case1 low high hlt middle hnone =>
    rw [Array.getElem?_eq_none_iff] at hnone
    omega
  | case2 low high hlt middle hstart => rw [h.inj hstart hp]
  | case3 low high hlt middle start hstart hne hless ih =>
    have := (h.lt_iff hstart hp).mpr hless
    exact ih (by omega) hhigh hsize
  | case4 low high hlt middle start hstart hne hless ih =>
    have := (h.lt_iff hp hstart).mpr (by omega)
    exact ih hlow (by omega) (by omega)
  | case5 low high hlt => omega

theorem offset?_of_indexOf? (h : layout.indexOf? o = some p) : layout.offset? p = some o :=
  getElem?_of_bisect h

theorem indexOf?_eq_some_iff (h : layout.Ascending) :
    layout.indexOf? o = some p ↔ layout.offset? p = some o := by
  constructor
  · exact offset?_of_indexOf?
  · intro hp
    exact bisect_of_getElem? h (Nat.zero_le p) (Array.getElem?_eq_some_iff.mp hp).1 le_rfl hp

/-! ### Positions in tables -/

theorem position_eq_ok_iff (h : layout.Ascending) {place : Anchorage} :
    layout.position place o = .ok p ↔ layout.offset? p = some o := by
  rw [position, ← indexOf?_eq_some_iff h]
  cases layout.indexOf? o <;> simp

theorem place_eq_ok_iff : layout.place p = .ok o ↔ layout.offset? p = some o ∧ o ≤ 65535 := by
  rw [place]
  rcases layout.offset? p with _ | o'
  · simp
  · by_cases ho : o' ≤ 65535
    · simp only [if_pos ho, Except.ok.injEq, Option.some.injEq]
      constructor
      · rintro rfl
        exact ⟨rfl, ho⟩
      · exact fun h => h.1
    · simp only [if_neg ho, Option.some.injEq]
      constructor
      · intro h
        exact absurd h (by simp)
      · rintro ⟨rfl, h⟩
        exact absurd h ho

theorem placeBytes_eq_ok_iff {b : Bytes} :
    layout.placeBytes p = .ok b ↔
      ∃ o, layout.offset? p = some o ∧ o ≤ 65535 ∧ b = BigEndian.encode 2 o := by
  rw [placeBytes]
  constructor
  · intro h
    rcases hp : layout.place p with _ | o
    · rw [hp] at h
      exact absurd h (by simp [Except.map])
    · rw [hp] at h
      obtain ⟨ho, hle⟩ := place_eq_ok_iff.mp hp
      exact ⟨o, ho, hle, (Except.ok.inj h).symm⟩
  · rintro ⟨o, ho, hle, rfl⟩
    rw [place_eq_ok_iff.mpr ⟨ho, hle⟩]
    rfl

/-- A position is read from exactly the bytes that it is written as. -/
theorem takes_readPosition (h : layout.Ascending) (place : Anchorage) :
    (layout.readPosition place).Takes fun p b => layout.placeBytes p = .ok b := by
  intro c p c'
  simp only [readPosition, Reader.bind_eq_ok_iff, Reader.u16_eq_ok_iff,
    Reader.ofExcept_eq_ok_iff, position_eq_ok_iff h, placeBytes_eq_ok_iff]
  constructor
  · rintro ⟨v, m, hv, hp, rfl⟩
    have := v.toNat_lt
    exact ⟨_, ⟨v.toNat, hp, by omega, rfl⟩, hv⟩
  · rintro ⟨b, ⟨o, ho, hle, rfl⟩, hb⟩
    have htoNat : (UInt16.ofNat o).toNat = o :=
      UInt16.toNat_ofNat_of_lt' (by show o < 65536; omega)
    refine ⟨UInt16.ofNat o, c', ?_, ?_, rfl⟩
    · rwa [Bytes.ofU16, htoNat]
    · rwa [htoNat]

/-! ### The layout of instructions -/

theorem length_offsetsFrom (offset : Nat) (list : List Instruction) :
    (offsetsFrom offset list).length = list.length + 1 := by
  induction list generalizing offset with
  | nil => rfl
  | cons i rest ih => rw [offsetsFrom, List.length_cons, ih, List.length_cons]

theorem count_ofInstructions (list : List Instruction) :
    (ofInstructions list).count = list.length := by
  rw [count, ofInstructions, List.size_toArray, length_offsetsFrom]
  rfl

theorem offset?_ofInstructions (list : List Instruction) (p : Nat) :
    (ofInstructions list).offset? p = (offsetsFrom 0 list)[p]? := by
  rw [offset?, ofInstructions, List.getElem?_toArray]

theorem le_of_mem_offsetsFrom {offset : Nat} {list : List Instruction}
    (h : o ∈ offsetsFrom offset list) : offset ≤ o := by
  induction list generalizing offset with
  | nil =>
    rw [offsetsFrom, List.mem_singleton] at h
    exact h.ge
  | cons i rest ih =>
    rw [offsetsFrom, List.mem_cons] at h
    rcases h with rfl | h
    · exact Nat.le_refl _
    · exact (Nat.le_add_right offset _).trans (ih h)

theorem pairwise_offsetsFrom (offset : Nat) (list : List Instruction) :
    (offsetsFrom offset list).Pairwise (· < ·) := by
  induction list generalizing offset with
  | nil => exact List.pairwise_singleton _ _
  | cons i rest ih =>
    rw [offsetsFrom, List.pairwise_cons]
    refine ⟨fun o ho => ?_, ih _⟩
    have h₁ := le_of_mem_offsetsFrom ho
    have h₂ := i.size_pos offset
    omega

theorem ascending_ofInstructions (list : List Instruction) : (ofInstructions list).Ascending := by
  intro p q o o' hpq hp hq
  rw [offset?_ofInstructions] at hp hq
  obtain ⟨hp', rfl⟩ := List.getElem?_eq_some_iff.mp hp
  obtain ⟨hq', rfl⟩ := List.getElem?_eq_some_iff.mp hq
  exact List.pairwise_iff_getElem.mp (pairwise_offsetsFrom 0 list) p q hp' hq' hpq

/-- Where instructions of the same sizes lie is the same. -/
theorem offsetsFrom_congr {offset : Nat} {list list' : List Instruction}
    (h : List.Forall₂ (fun i i' => ∀ o : Nat, Instruction.size o i = Instruction.size o i')
      list list') :
    offsetsFrom offset list = offsetsFrom offset list' := by
  induction h generalizing offset with
  | nil => rfl
  | cons hi _ ih => rw [offsetsFrom, offsetsFrom, hi offset, ih]

/-- There is one offset more than there are instructions, that of the end of the code. -/
theorem offset?_end (list : List Instruction) :
    (ofInstructions list).offset? list.length = some (ofInstructions list).length := by
  have hsize := length_offsetsFrom 0 list
  rw [offset?_ofInstructions, length, ofInstructions]
  rw [List.back?_toArray, List.getLast?_eq_getElem?, hsize, Nat.add_sub_cancel]
  rw [List.getElem?_eq_getElem (by omega), Option.getD_some]

/-- The length of the code is its last offset, which is the greatest. -/
theorem offset?_le_length (list : List Instruction)
    (h : (ofInstructions list).offset? p = some o) : o ≤ (ofInstructions list).length := by
  have hsize := length_offsetsFrom 0 list
  have hlast := offset?_end list
  have hp : p ≤ list.length := by
    rw [offset?_ofInstructions] at h
    have := (List.getElem?_eq_some_iff.mp h).1
    omega
  rcases Nat.lt_or_eq_of_le hp with hp | rfl
  · exact (ascending_ofInstructions list hp h hlast).le
  · rw [h] at hlast
    exact (Option.some.inj hlast).le

theorem fits_ofInstructions {list : List Instruction}
    (h : (ofInstructions list).length ≤ 65535) : (ofInstructions list).Fits :=
  fun _ _ hp => (offset?_le_length list hp).trans h

end Layout

end ClassGraft
