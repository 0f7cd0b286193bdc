/-
Stack map frames as bytes.

A frame is read from exactly the bytes that it is written as (`StackMap.parse_eq_ok_iff`), except
that the compact form of a frame that lies far behind the one before it is written in the extended
form: what is read are frames that widening leaves alone (`StackMap.widened`), and writing does not
tell frames from the widened ones (`StackMap.form_widened_iff`).
-/
import ClassGraft.Proofs.Tables

namespace ClassGraft

open Reader

variable {layout : Layout}

/-! ### Types -/

/-- A type is read from exactly the bytes that it is written as. -/
theorem VerificationType.takes_read (h : layout.Ascending) :
    (VerificationType.read layout).Takes fun t b => t.write layout = .ok b := by
  intro c t c'
  simp only [VerificationType.read, bind_eq_ok_iff, u8_eq_ok_iff]
  constructor
  · rintro ⟨tag, m, htag, ht⟩
    have htag_of : ∀ n : UInt8, tag.toNat = n.toNat → c.Advances [n] m := by
      intro n hn
      rwa [← UInt8.toNat_inj.mp hn]
    have hlone : ∀ (n : UInt8) (x : VerificationType), tag.toNat = n.toNat →
        x.write layout = .ok [n] → (pure x : Reader VerificationType) m = .ok t c' →
        ∃ b : Bytes, t.write layout = .ok b ∧ c.Advances b c' := by
      intro n x hn hx hpure
      obtain ⟨rfl, rfl⟩ := pure_eq_ok_iff.mp hpure
      exact ⟨[n], hx, htag_of n hn⟩
    rcases hn : tag.toNat with _ | _ | _ | _ | _ | _ | _ | _ | _ | n
    · exact hlone 0 .top hn rfl (by rwa [hn] at ht)
    · exact hlone 1 .integer hn rfl (by rwa [hn] at ht)
    · exact hlone 2 .float hn rfl (by rwa [hn] at ht)
    · exact hlone 3 .double hn rfl (by rwa [hn] at ht)
    · exact hlone 4 .long hn rfl (by rwa [hn] at ht)
    · exact hlone 5 .null hn rfl (by rwa [hn] at ht)
    · exact hlone 6 .uninitializedThis hn rfl (by rwa [hn] at ht)
    · rw [hn] at ht
      simp only [bind_eq_ok_iff, u16_eq_ok_iff, pure_eq_ok_iff] at ht
      obtain ⟨classIndex, _, hb, rfl, rfl⟩ := ht
      exact ⟨_, rfl, (htag_of 7 hn).append hb⟩
    · rw [hn] at ht
      simp only [bind_eq_ok_iff, Layout.takes_readPosition h _ _ _ _, pure_eq_ok_iff] at ht
      obtain ⟨p, _, ⟨b, hp, hb⟩, rfl, rfl⟩ := ht
      refine ⟨8 :: b, ?_, (htag_of 8 hn).append hb⟩
      rw [VerificationType.write, hp]
      rfl
    · rw [hn] at ht
      exact (malformed_eq_ok_iff.mp ht).elim
  · rintro ⟨b, hb, hadv⟩
    cases t with
    | object classIndex =>
      obtain rfl := Except.ok.inj hb
      obtain ⟨m, htag, hindex⟩ := Cursor.advances_cons.mp hadv
      refine ⟨7, m, htag, ?_⟩
      show (do return .object (← u16) : Reader VerificationType) m = _
      simp only [bind_eq_ok_iff, u16_eq_ok_iff, pure_eq_ok_iff]
      exact ⟨classIndex, c', hindex, rfl, rfl⟩
    | uninitialized p =>
      rw [VerificationType.write, Bytes.bind_eq_ok_iff] at hb
      obtain ⟨b', hp, hb⟩ := hb
      obtain rfl := Except.ok.inj hb
      obtain ⟨m, htag, hindex⟩ := Cursor.advances_cons.mp hadv
      refine ⟨8, m, htag, ?_⟩
      show (do return .uninitialized (← layout.readPosition .stackMapFrame) :
        Reader VerificationType) m = _
      simp only [bind_eq_ok_iff, Layout.takes_readPosition h _ _ _ _, pure_eq_ok_iff]
      exact ⟨p, c', ⟨b', hp, hindex⟩, rfl, rfl⟩
    | _ =>
      obtain rfl := Except.ok.inj hb
      exact ⟨_, c', hadv, rfl⟩

/-! ### Kinds -/

namespace FrameKind

/-- Whether the numbers in a frame fit the places that they have in it. -/
def Proper : FrameKind → Prop
  | .chop removed => 1 ≤ removed ∧ removed ≤ 3
  | .append locals => 1 ≤ locals.length ∧ locals.length ≤ 3
  | .full locals stack => locals.length < 65536 ∧ stack.length < 65536
  | _ => True

/-- The form in which a frame is written at a distance: compact up to 63, else extended. -/
def widened (distance : Nat) : FrameKind → FrameKind
  | .same => if distance ≤ 63 then .same else .sameExtended
  | .oneOperand item => if distance ≤ 63 then .oneOperand item else .oneOperandExtended item
  | kind => kind

theorem write_widened (distance : Nat) (kind : FrameKind) :
    (kind.widened distance).write layout distance = kind.write layout distance := by
  cases kind with
  | same =>
    rw [widened]
    by_cases h : distance ≤ 63
    · rw [if_pos h]
    · rw [if_neg h, write, write, if_neg h]
  | oneOperand item =>
    rw [widened]
    by_cases h : distance ≤ 63
    · rw [if_pos h]
    · rw [if_neg h, write, write]
      simp only [if_neg h]
  | _ => rfl

theorem widened_widened (distance : Nat) (kind : FrameKind) :
    (kind.widened distance).widened distance = kind.widened distance := by
  cases kind with
  | same | oneOperand =>
    simp only [widened]
    by_cases h : distance ≤ 63
    · simp only [if_pos h]
    · simp only [if_neg h]
  | _ => rfl

theorem le_of_widened_same {distance : Nat} (h : widened distance .same = .same) :
    distance ≤ 63 := by
  by_contra hgt
  rw [widened, if_neg hgt] at h
  exact absurd h (by simp)

theorem le_of_widened_oneOperand {distance : Nat} {item : VerificationType}
    (h : widened distance (.oneOperand item) = .oneOperand item) : distance ≤ 63 := by
  by_contra hgt
  rw [widened, if_neg hgt] at h
  exact absurd h (by simp)

theorem proper_widened (distance : Nat) (kind : FrameKind) :
    (kind.widened distance).Proper ↔ kind.Proper := by
  cases kind with
  | same | oneOperand =>
    rw [widened]
    split <;> rfl
  | _ => rfl

section Forms

variable (layout)

/-- A form byte up to 63 is the distance of a frame that changes nothing. -/
theorem read_same {d : Nat} (h : d ≤ 63) :
    FrameKind.read layout (UInt8.ofNat d) = pure (d, .same) := by
  have hn : (UInt8.ofNat d).toNat = d := UInt8.toNat_ofNat_of_lt' (by show d < 256; omega)
  rw [FrameKind.read]
  simp only [hn]
  rw [if_pos h]

theorem read_oneOperand {d : Nat} (h : d ≤ 63) :
    FrameKind.read layout (UInt8.ofNat (64 + d)) = do
      return (d, .oneOperand (← VerificationType.read layout)) := by
  have hn : (UInt8.ofNat (64 + d)).toNat = 64 + d :=
    UInt8.toNat_ofNat_of_lt' (by show 64 + d < 256; omega)
  rw [FrameKind.read]
  simp only [hn]
  rw [if_neg (by omega), if_pos (by omega), Nat.add_sub_cancel_left]

theorem read_reserved {form : UInt8} (h : 127 < form.toNat) (hle : form.toNat ≤ 246) :
    FrameKind.read layout form = malformed (.reservedFrame form) := by
  rw [FrameKind.read]
  simp only
  rw [if_neg (by omega), if_neg (by omega), if_pos hle]

theorem read_oneOperandExtended : FrameKind.read layout 247 = do
    let distance := (← u16).toNat
    return (distance, .oneOperandExtended (← VerificationType.read layout)) := rfl

theorem read_sameExtended : FrameKind.read layout 251 = do
    let distance := (← u16).toNat
    return (distance, .sameExtended) := rfl

theorem read_full : FrameKind.read layout 255 = do
    let distance := (← u16).toNat
    let locals ← table (VerificationType.read layout)
    let stack ← table (VerificationType.read layout)
    return (distance, .full locals stack) := rfl

theorem toNat_chopped {removed : UInt8} (h : removed ≤ 3) :
    (251 - removed).toNat = 251 - removed.toNat := by
  have hle : removed.toNat ≤ 3 := UInt8.le_iff_toNat_le.mp h
  refine UInt8.toNat_sub_of_le _ _ (UInt8.le_iff_toNat_le.mpr ?_)
  show removed.toNat ≤ 251
  omega

theorem read_chop {removed : UInt8} (h₁ : 1 ≤ removed) (h₃ : removed ≤ 3) :
    FrameKind.read layout (251 - removed) = do
      let distance := (← u16).toNat
      return (distance, .chop removed) := by
  have hlow : 1 ≤ removed.toNat := UInt8.le_iff_toNat_le.mp h₁
  have hhigh : removed.toNat ≤ 3 := UInt8.le_iff_toNat_le.mp h₃
  rw [FrameKind.read]
  simp only [toNat_chopped h₃]
  rw [if_neg (by omega), if_neg (by omega), if_neg (by omega)]
  refine bind_congr fun v => ?_
  rw [if_neg (by omega), if_pos (by omega), sub_sub_cancel]

theorem read_append {n : Nat} (h₁ : 1 ≤ n) (h₃ : n ≤ 3) :
    FrameKind.read layout (UInt8.ofNat (251 + n)) = do
      let distance := (← u16).toNat
      return (distance, .append (← times n (VerificationType.read layout))) := by
  have hn : (UInt8.ofNat (251 + n)).toNat = 251 + n :=
    UInt8.toNat_ofNat_of_lt' (by show 251 + n < 256; omega)
  rw [FrameKind.read]
  simp only [hn]
  rw [if_neg (by omega), if_neg (by omega), if_neg (by omega)]
  refine bind_congr fun v => ?_
  rw [if_neg (by omega), if_neg (by omega), if_neg (by omega), if_pos (by omega),
    Nat.add_sub_cancel_left]

omit layout in
/-- A form byte belongs to one of the kinds, or is reserved. -/
theorem form_cases (form : UInt8) :
    (∃ d ≤ 63, form = UInt8.ofNat d) ∨ (∃ d ≤ 63, form = UInt8.ofNat (64 + d)) ∨
      (127 < form.toNat ∧ form.toNat ≤ 246) ∨ form = 247 ∨
      (∃ removed : UInt8, 1 ≤ removed ∧ removed ≤ 3 ∧ form = 251 - removed) ∨ form = 251 ∨
      (∃ n, 1 ≤ n ∧ n ≤ 3 ∧ form = UInt8.ofNat (251 + n)) ∨ form = 255 := by
  have hof : ∀ n : Nat, form.toNat = n → form = UInt8.ofNat n := by
    rintro n rfl
    exact UInt8.ofNat_toNat.symm
  have hlt : form.toNat < 256 := form.toNat_lt
  by_cases hsame : form.toNat ≤ 63
  · exact .inl ⟨_, hsame, hof _ rfl⟩
  by_cases hone : form.toNat ≤ 127
  · exact .inr (.inl ⟨form.toNat - 64, by omega, hof _ (by omega)⟩)
  by_cases hreserved : form.toNat ≤ 246
  · exact .inr (.inr (.inl ⟨by omega, hreserved⟩))
  by_cases hfar : form.toNat = 247
  · exact .inr (.inr (.inr (.inl (hof 247 hfar))))
  by_cases hchop : form.toNat ≤ 250
  · refine .inr (.inr (.inr (.inr (.inl ⟨251 - form, ?_, ?_, (sub_sub_cancel _ _).symm⟩))))
    all_goals
      rw [UInt8.le_iff_toNat_le, UInt8.toNat_sub_of_le _ _ (UInt8.le_iff_toNat_le.mpr
        (show form.toNat ≤ 251 by omega))]
    · show 1 ≤ 251 - form.toNat
      omega
    · show 251 - form.toNat ≤ 3
      omega
  by_cases hextended : form.toNat = 251
  · exact .inr (.inr (.inr (.inr (.inr (.inl (hof 251 hextended))))))
  by_cases happend : form.toNat ≤ 254
  · exact .inr (.inr (.inr (.inr (.inr (.inr (.inl
      ⟨form.toNat - 251, by omega, by omega, hof _ (by omega)⟩))))))
  · exact .inr (.inr (.inr (.inr (.inr (.inr (.inr (hof 255 (by omega))))))))

end Forms

section Bytes

/-- Behind the form byte of an extended frame stands the distance, and then the rest. -/
theorem advances_distance {d : Nat} (hd : d ≤ 65535) (tail : Bytes) {m c' : Cursor}
    (h : m.Advances (BigEndian.encode 2 d ++ tail) c') : ∃ (v : UInt16) (m' : Cursor),
      m.Advances (Bytes.ofU16 v) m' ∧ v.toNat = d ∧ m'.Advances tail c' := by
  obtain ⟨m', hv, htail⟩ := Cursor.advances_append.mp h
  have hlt : d < 2 ^ 16 := Nat.lt_succ_of_le hd
  exact ⟨UInt16.ofNat d, m', (Bytes.ofU16_ofNat hlt).symm ▸ hv, UInt16.toNat_ofNat_of_lt' hlt,
    htail⟩

variable (h : layout.Ascending) {d : Nat} {kind : FrameKind} {c' : Cursor}

include h

/-- What is read behind a form byte is written as that byte and what has been read. -/
theorem write_of_read {form : UInt8} {m : Cursor}
    (hk : FrameKind.read layout form m = .ok (d, kind) c') :
    ∃ b : Bytes, (d ≤ 65535 ∧ kind.Proper ∧ kind.widened d = kind ∧
      kind.write layout d = .ok (form :: b)) ∧ m.Advances b c' := by
  have hitem := VerificationType.takes_read h
  rcases form_cases form with ⟨n, hn, rfl⟩ | ⟨n, hn, rfl⟩ | ⟨hlow, hhigh⟩ | rfl |
    ⟨removed, h₁, h₃, rfl⟩ | rfl | ⟨n, h₁, h₃, rfl⟩ | rfl
  · rw [read_same layout hn, pure_eq_ok_iff, Prod.mk.injEq] at hk
    obtain ⟨⟨rfl, rfl⟩, rfl⟩ := hk
    refine ⟨[], ⟨by omega, trivial, if_pos hn, ?_⟩, Cursor.advances_nil.mpr rfl⟩
    rw [write, if_pos hn]
    rfl
  · simp only [read_oneOperand layout hn, bind_eq_ok_iff, hitem _ _ _, pure_eq_ok_iff,
      Prod.mk.injEq] at hk
    obtain ⟨item, _, ⟨b, hwrite, hb⟩, ⟨rfl, rfl⟩, rfl⟩ := hk
    refine ⟨b, ⟨by omega, trivial, if_pos hn, ?_⟩, hb⟩
    rw [write, hwrite]
    simp only [if_pos hn]
    rfl
  · rw [read_reserved layout hlow hhigh] at hk
    exact (malformed_eq_ok_iff.mp hk).elim
  · simp only [read_oneOperandExtended, bind_eq_ok_iff, u16_eq_ok_iff, hitem _ _ _,
      pure_eq_ok_iff, Prod.mk.injEq] at hk
    obtain ⟨v, _, hv, item, _, ⟨b, hwrite, hb⟩, ⟨rfl, rfl⟩, rfl⟩ := hk
    refine ⟨_, ⟨Nat.le_of_lt_succ v.toNat_lt, trivial, rfl, ?_⟩, hv.append hb⟩
    rw [write, hwrite]
    rfl
  · simp only [read_chop layout h₁ h₃, bind_eq_ok_iff, u16_eq_ok_iff, pure_eq_ok_iff,
      Prod.mk.injEq] at hk
    obtain ⟨v, _, hv, ⟨rfl, rfl⟩, rfl⟩ := hk
    exact ⟨_, ⟨Nat.le_of_lt_succ v.toNat_lt, ⟨h₁, h₃⟩, rfl, rfl⟩, hv⟩
  · simp only [read_sameExtended, bind_eq_ok_iff, u16_eq_ok_iff, pure_eq_ok_iff,
      Prod.mk.injEq] at hk
    obtain ⟨v, _, hv, ⟨rfl, rfl⟩, rfl⟩ := hk
    exact ⟨_, ⟨Nat.le_of_lt_succ v.toNat_lt, trivial, rfl, rfl⟩, hv⟩
  · simp only [read_append layout h₁ h₃, bind_eq_ok_iff, u16_eq_ok_iff, hitem.times _ _ _ _,
      pure_eq_ok_iff, Prod.mk.injEq] at hk
    obtain ⟨v, _, hv, locals, _, ⟨b, ⟨rfl, hlocals⟩, hb⟩, ⟨rfl, rfl⟩, rfl⟩ := hk
    refine ⟨_, ⟨Nat.le_of_lt_succ v.toNat_lt, ⟨h₁, h₃⟩, rfl, ?_⟩, hv.append hb⟩
    rw [write, Bytes.concatMapM_eq_ok_iff.mpr hlocals]
    rfl
  · simp only [read_full, bind_eq_ok_iff, u16_eq_ok_iff, hitem.table _ _ _, pure_eq_ok_iff,
      Bytes.table_iff_ofTableM, Prod.mk.injEq] at hk
    obtain ⟨v, _, hv, locals, _, ⟨b₁, hlocals, hb₁⟩, stack, _, ⟨b₂, hstack, hb₂⟩, ⟨rfl, rfl⟩,
      rfl⟩ := hk
    refine ⟨_, ⟨Nat.le_of_lt_succ v.toNat_lt, ⟨hlocals.1, hstack.1⟩, rfl, ?_⟩,
      (hv.append hb₁).append hb₂⟩
    rw [write, hlocals.2, Bytes.bind_eq_ok_iff]
    refine ⟨b₁, rfl, ?_⟩
    rw [hstack.2]
    rfl

/-- What is written is read behind its first byte. -/
theorem read_of_write {b : Bytes} (hd : d ≤ 65535) (hproper : kind.Proper)
    (hwidened : kind.widened d = kind) (hb : kind.write layout d = .ok b) :
    ∃ form tail, b = form :: tail ∧ ∀ m : Cursor, m.Advances tail c' →
      FrameKind.read layout form m = .ok (d, kind) c' := by
  have hitem := VerificationType.takes_read h
  cases kind with
  | same =>
    have hle := le_of_widened_same hwidened
    rw [write, if_pos hle] at hb
    refine ⟨_, _, (Except.ok.inj hb).symm, fun m hadv => ?_⟩
    obtain rfl := Cursor.advances_nil.mp hadv
    rw [read_same layout hle]
    rfl
  | oneOperand item =>
    have hle := le_of_widened_oneOperand hwidened
    rw [write, Bytes.bind_eq_ok_iff] at hb
    obtain ⟨b', hwrite, hb⟩ := hb
    rw [if_pos hle] at hb
    refine ⟨_, _, (Except.ok.inj hb).symm, fun m hadv => ?_⟩
    simp only [read_oneOperand layout hle, bind_eq_ok_iff, hitem _ _ _, pure_eq_ok_iff]
    exact ⟨item, c', ⟨b', hwrite, hadv⟩, rfl, rfl⟩
  | sameExtended =>
    refine ⟨_, _, (Except.ok.inj hb).symm, fun m hadv => ?_⟩
    obtain ⟨v, m', hv, rfl, htail⟩ := advances_distance hd [] (by rwa [List.append_nil])
    obtain rfl := Cursor.advances_nil.mp htail
    simp only [read_sameExtended, bind_eq_ok_iff, u16_eq_ok_iff, pure_eq_ok_iff]
    exact ⟨v, m', hv, rfl, rfl⟩
  | oneOperandExtended item =>
    rw [write, Bytes.bind_eq_ok_iff] at hb
    obtain ⟨b', hwrite, hb⟩ := hb
    refine ⟨_, _, (Except.ok.inj hb).symm, fun m hadv => ?_⟩
    obtain ⟨v, m', hv, rfl, htail⟩ := advances_distance hd b' hadv
    simp only [read_oneOperandExtended, bind_eq_ok_iff, u16_eq_ok_iff, hitem _ _ _,
      pure_eq_ok_iff]
    exact ⟨v, m', hv, item, c', ⟨b', hwrite, htail⟩, rfl, rfl⟩
  | chop removed =>
    refine ⟨_, _, (Except.ok.inj hb).symm, fun m hadv => ?_⟩
    obtain ⟨v, m', hv, rfl, htail⟩ := advances_distance hd [] (by rwa [List.append_nil])
    obtain rfl := Cursor.advances_nil.mp htail
    simp only [read_chop layout hproper.1 hproper.2, bind_eq_ok_iff, u16_eq_ok_iff,
      pure_eq_ok_iff]
    exact ⟨v, m', hv, rfl, rfl⟩
  | append locals =>
    rw [write, Bytes.bind_eq_ok_iff] at hb
    obtain ⟨b', hlocals, hb⟩ := hb
    refine ⟨_, _, (Except.ok.inj hb).symm, fun m hadv => ?_⟩
    obtain ⟨v, m', hv, rfl, htail⟩ := advances_distance hd b' hadv
    simp only [read_append layout hproper.1 hproper.2, bind_eq_ok_iff, u16_eq_ok_iff,
      hitem.times _ _ _ _, pure_eq_ok_iff]
    exact ⟨v, m', hv, locals, c', ⟨b', ⟨rfl, Bytes.concatMapM_eq_ok_iff.mp hlocals⟩, htail⟩, rfl,
      rfl⟩
  | full locals stack =>
    rw [write, Bytes.bind_eq_ok_iff] at hb
    obtain ⟨b₁, hlocals, hb⟩ := hb
    rw [Bytes.bind_eq_ok_iff] at hb
    obtain ⟨b₂, hstack, hb⟩ := hb
    refine ⟨_, _, (Except.ok.inj hb).symm, fun m hadv => ?_⟩
    obtain ⟨v, m', hv, rfl, htail⟩ :=
      advances_distance hd (b₁ ++ b₂) (by rwa [← List.append_assoc])
    obtain ⟨m₁, hb₁, hb₂⟩ := Cursor.advances_append.mp htail
    simp only [read_full, bind_eq_ok_iff, u16_eq_ok_iff, hitem.table _ _ _, pure_eq_ok_iff,
      Bytes.table_iff_ofTableM]
    exact ⟨v, m', hv, locals, m₁, ⟨b₁, ⟨hproper.1, hlocals⟩, hb₁⟩, stack, c',
      ⟨b₂, ⟨hproper.2, hstack⟩, hb₂⟩, rfl, rfl⟩

/-- A frame with its form byte is read from exactly the bytes that it is written as at its
distance, if its form is right for the distance. -/
theorem takes_read :
    Takes (do FrameKind.read layout (← u8)) fun (x : Nat × FrameKind) b =>
      x.1 ≤ 65535 ∧ x.2.Proper ∧ x.2.widened x.1 = x.2 ∧ x.2.write layout x.1 = .ok b := by
  rintro c ⟨d, kind⟩ c'
  simp only [bind_eq_ok_iff, u8_eq_ok_iff]
  constructor
  · rintro ⟨form, m, hform, hk⟩
    obtain ⟨b, hb, hadv⟩ := write_of_read h hk
    exact ⟨form :: b, hb, hform.append hadv⟩
  · rintro ⟨_, ⟨hd, hproper, hwidened, hb⟩, hadv⟩
    obtain ⟨form, tail, rfl, hread⟩ := read_of_write h hd hproper hwidened hb
    obtain ⟨m, hform, htail⟩ := Cursor.advances_cons.mp hadv
    exact ⟨form, m, hform, hread m htail⟩

end Bytes

end FrameKind

/-! ### Frames -/

namespace StackMap

/-- How far an offset lies behind the frame before it. -/
def gap (previous : Option Nat) (offset : Nat) : Nat :=
  match previous with
  | none => offset
  | some before => offset - before - 1

/-- The frames in the forms in which they are written. -/
def widened (layout : Layout) : Option Nat → List StackMapFrame → List StackMapFrame
  | _, [] => []
  | previous, frame :: rest =>
    let offset := layout.offsetOf frame.target
    ⟨frame.target, frame.kind.widened (gap previous offset)⟩ :: widened layout (some offset) rest

/-- The bytes of frames behind a frame at `previous`. -/
def Form (layout : Layout) : Option Nat → List StackMapFrame → Bytes → Prop
  | _, [], bytes => bytes = []
  | previous, frame :: rest, bytes => ∃ (d : Nat) (a items : Bytes),
      layout.offset? frame.target = some (offsetAfter previous d) ∧ d ≤ 65535 ∧
        frame.kind.write layout d = .ok a ∧
        Form layout (some (offsetAfter previous d)) rest items ∧ bytes = a ++ items

theorem gap_offsetAfter (previous : Option Nat) (d : Nat) :
    gap previous (offsetAfter previous d) = d := by
  cases previous with
  | none => rfl
  | some before =>
    rw [gap, offsetAfter]
    omega

theorem offsetOf_of_offset? {p o : Nat} (h : layout.offset? p = some o) :
    layout.offsetOf p = o := by
  rw [Layout.offsetOf, h, Option.getD_some]

theorem distance_eq_ok_iff {previous : Option Nat} {offset d : Nat} :
    distance previous offset = .ok d ↔ offset = offsetAfter previous d := by
  cases previous with
  | none =>
    rw [distance, offsetAfter, Except.ok.injEq]
  | some before =>
    rw [distance, offsetAfter]
    by_cases h : before < offset
    · rw [if_pos h, Except.ok.injEq]
      omega
    · rw [if_neg h]
      simp only [reduceCtorEq, false_iff]
      omega

/-- Where offsets fit two bytes, frames are written in their form. -/
theorem writeFrames_eq_ok_iff (hfits : layout.Fits) {previous : Option Nat}
    {frames : List StackMapFrame} {done : List Bytes} {b : Bytes} :
    writeFrames layout previous frames done = .ok b ↔
      ∃ items : Bytes, Form layout previous frames items ∧ b = done.reverse.flatten ++ items := by
  -- Each frame is written by its distance to the one before.
  induction frames generalizing previous done with
  | nil => simp [writeFrames, Form, eq_comm]
  | cons frame rest ih =>
    simp only [writeFrames, Bytes.bind_eq_ok_iff, Layout.place_eq_ok_iff, distance_eq_ok_iff, ih,
      Form]
    have hdone : ∀ a items : Bytes, (a :: done).reverse.flatten ++ items =
        done.reverse.flatten ++ (a ++ items) := by
      intro a items
      rw [List.reverse_cons, List.flatten_append, List.flatten_singleton, List.append_assoc]
    constructor
    · rintro ⟨_, ⟨ho, hle⟩, d, rfl, a, ha, items, hitems, rfl⟩
      refine ⟨a ++ items, ⟨d, a, items, ho, ?_, ha, hitems, rfl⟩, hdone a items⟩
      cases previous with
      | none => exact hle
      | some before =>
        rw [offsetAfter] at hle
        omega
    · rintro ⟨_, ⟨d, a, items, ho, -, ha, hitems, rfl⟩, rfl⟩
      exact ⟨_, ⟨ho, hfits ho⟩, d, rfl, a, ha, items, hitems, (hdone a items).symm⟩

/-- Widening changes nothing about the bytes. -/
theorem form_widened_iff {previous : Option Nat} {frames : List StackMapFrame} {b : Bytes} :
    Form layout previous (widened layout previous frames) b ↔ Form layout previous frames b := by
  induction frames generalizing previous b with
  | nil => rfl
  | cons frame rest ih =>
    simp only [widened, Form]
    constructor
    · rintro ⟨d, a, items, ho, hd, ha, hitems, rfl⟩
      rw [offsetOf_of_offset? ho, ih] at hitems
      rw [offsetOf_of_offset? ho, gap_offsetAfter, FrameKind.write_widened] at ha
      exact ⟨d, a, items, ho, hd, ha, hitems, rfl⟩
    · rintro ⟨d, a, items, ho, hd, ha, hitems, rfl⟩
      refine ⟨d, a, items, ho, hd, ?_, ?_, rfl⟩
      · rwa [offsetOf_of_offset? ho, gap_offsetAfter, FrameKind.write_widened]
      · rwa [offsetOf_of_offset? ho, ih]

@[simp] theorem length_widened (previous : Option Nat) (frames : List StackMapFrame) :
    (widened layout previous frames).length = frames.length := by
  induction frames generalizing previous with
  | nil => rfl
  | cons frame rest ih => rw [widened, List.length_cons, ih, List.length_cons]

theorem widened_widened (previous : Option Nat) (frames : List StackMapFrame) :
    widened layout previous (widened layout previous frames) = widened layout previous frames := by
  induction frames generalizing previous with
  | nil => rfl
  | cons frame rest ih => simp only [widened, FrameKind.widened_widened, ih]

theorem proper_widened {previous : Option Nat} {frames : List StackMapFrame}
    (h : ∀ frame ∈ frames, frame.kind.Proper) :
    ∀ frame ∈ widened layout previous frames, frame.kind.Proper := by
  induction frames generalizing previous with
  | nil => exact h
  | cons frame rest ih =>
    obtain ⟨hframe, hrest⟩ := List.forall_mem_cons.mp h
    exact List.forall_mem_cons.mpr ⟨(FrameKind.proper_widened _ _).mpr hframe, ih hrest⟩

/-- Frames are read from exactly their forms, if each has the right form for its distance. -/
theorem readFrames_eq_ok_iff (h : layout.Ascending) (n : Nat) (previous : Option Nat)
    (done out : List StackMapFrame) (c c' : Cursor) :
    readFrames layout n previous done c = .ok out c' ↔
      ∃ (frames : List StackMapFrame) (b : Bytes), frames.length = n ∧
        out = done.reverse ++ frames ∧ (∀ frame ∈ frames, frame.kind.Proper) ∧
        widened layout previous frames = frames ∧ Form layout previous frames b ∧
        c.Advances b c' := by
  -- Each frame is read by its distance to the one before; those read stand in `done`, last first.
  induction n generalizing previous done c with
  | zero =>
    rw [readFrames, pure_eq_ok_iff]
    constructor
    · rintro ⟨rfl, rfl⟩
      exact ⟨[], [], rfl, by simp, by simp, rfl, rfl, by simp⟩
    · rintro ⟨frames, b, hlen, rfl, -, -, hb, hadv⟩
      obtain rfl := List.eq_nil_of_length_eq_zero hlen
      obtain rfl : b = [] := hb
      exact ⟨by simp, by simpa using hadv⟩
  | succ n ih =>
    constructor
    · intro hr
      simp only [readFrames, bind_eq_ok_iff, ofExcept_eq_ok_iff, Layout.position_eq_ok_iff h,
        ih] at hr
      obtain ⟨form, m, hform, ⟨d, kind⟩, m', hkind, target, _, ⟨ho, rfl⟩, frames, items, rfl, rfl,
        hproper, hwidened, hitems, hadv⟩ := hr
      obtain ⟨a, ⟨hd, hp, hw, ha⟩, hadv'⟩ :=
        (FrameKind.takes_read h c (d, kind) m').mp (bind_eq_ok_iff.mpr ⟨form, m, hform, hkind⟩)
      refine ⟨⟨target, kind⟩ :: frames, a ++ items, rfl, by simp, ?_, ?_, ?_, hadv'.append hadv⟩
      · exact List.forall_mem_cons.mpr ⟨hp, hproper⟩
      · simp only [widened, offsetOf_of_offset? ho, gap_offsetAfter, hw, hwidened]
      · exact ⟨d, a, items, ho, hd, ha, hitems, rfl⟩
    · rintro ⟨frames, b, hlen, rfl, hproper, hwidened, hb, hadv⟩
      cases frames with
      | nil => exact absurd hlen (by simp)
      | cons frame frames =>
        obtain ⟨d, a, items, ho, hd, ha, hitems, rfl⟩ := hb
        obtain ⟨m', hadv', hadv⟩ := Cursor.advances_append.mp hadv
        obtain ⟨hp, hproper⟩ := List.forall_mem_cons.mp hproper
        simp only [widened, offsetOf_of_offset? ho, gap_offsetAfter, List.cons.injEq] at hwidened
        obtain ⟨hw, hwidened⟩ := hwidened
        obtain ⟨form, m, hform, hkind⟩ := bind_eq_ok_iff.mp
          ((FrameKind.takes_read h c (d, frame.kind) m').mpr
            ⟨a, ⟨hd, hp, congrArg StackMapFrame.kind hw, ha⟩, hadv'⟩)
        simp only [readFrames, bind_eq_ok_iff, ofExcept_eq_ok_iff, Layout.position_eq_ok_iff h, ih]
        exact ⟨form, m, hform, (d, frame.kind), m', hkind, frame.target, m', ⟨ho, rfl⟩, frames,
          items, by simpa using hlen, by simp, hproper, hwidened, hitems, hadv⟩

/-- The frames of an attribute are read from exactly their forms. -/
theorem parse_eq_ok_iff (h : layout.Ascending) {frames : List StackMapFrame} {info : Bytes} :
    parse layout info = .ok frames ↔ frames.length < 65536 ∧
      (∀ frame ∈ frames, frame.kind.Proper) ∧ widened layout none frames = frames ∧
      ∃ items : Bytes, Form layout none frames items ∧
        info = BigEndian.encode 2 frames.length ++ items := by
  rw [parse, eval_eq_ok_iff]
  simp only [StackMap.read, bind_eq_ok_iff, ite_eq_ok_iff, malformed_eq_ok_iff, and_false, or_false,
    u16_eq_ok_iff, readFrames_eq_ok_iff h, remaining_eq_ok_iff, pure_eq_ok_iff]
  constructor
  · rintro ⟨c', count, m, hcount, _, m', ⟨frames', items, hlen, rfl, hproper, hwidened, hitems,
      hadv⟩, _, _, ⟨rfl, rfl⟩, hleft, rfl, rfl⟩
    obtain ⟨hinfo, -⟩ := Cursor.advances_start (hcount.append hadv)
    rw [List.eq_nil_of_length_eq_zero hleft, List.append_nil] at hinfo
    refine ⟨?_, hproper, hwidened, items, hitems, ?_⟩
    · exact hlen ▸ count.toNat_lt
    · rw [hinfo, hlen]
      rfl
  · rintro ⟨hlen, hproper, hwidened, items, hitems, rfl⟩
    have hcount : (UInt16.ofNat frames.length).toNat = frames.length :=
      UInt16.toNat_ofNat_of_lt' hlen
    refine ⟨⟨2 + items.length, []⟩, UInt16.ofNat frames.length, ⟨2, items⟩, ?_, frames,
      ⟨2 + items.length, []⟩,
      ⟨frames, items, hcount.symm, rfl, hproper, hwidened, hitems, (List.append_nil _).symm, rfl⟩,
      _, _, ⟨rfl, rfl⟩, rfl, rfl, rfl⟩
    rw [Bytes.ofU16_ofNat hlen]
    exact ⟨rfl, rfl⟩

/-- Where offsets fit two bytes, the frames of an attribute are written in their form. -/
theorem write_eq_ok_iff (hfits : layout.Fits) {frames : List StackMapFrame} {info : Bytes} :
    write layout frames = .ok info ↔ frames.length < 65536 ∧
      ∃ items : Bytes, Form layout none frames items ∧
        info = BigEndian.encode 2 frames.length ++ items := by
  simp only [write, Bytes.ite_throw_eq_ok_iff, Bytes.bind_eq_ok_iff, writeFrames_eq_ok_iff hfits,
    List.reverse_nil, List.flatten_nil, List.nil_append, exists_eq_right']
  constructor
  · rintro ⟨hlen, items, hitems, h⟩
    exact ⟨by omega, items, hitems, (Except.ok.inj h).symm⟩
  · rintro ⟨hlen, items, hitems, rfl⟩
    exact ⟨by omega, items, hitems, rfl⟩

end StackMap

end ClassGraft
