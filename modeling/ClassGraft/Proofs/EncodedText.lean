/-
Encoded text.

Units of 16 bits decode to the text they were encoded from (`Utf16.decode_encode`), units are read
from exactly their forms (`ModifiedUtf8.unitsFrom_eq_ok_iff`), and the short way for bytes that are
characters of their own agrees with the long one (`ModifiedUtf8.decode_eq_decodeSequences`).  So
what is encoded decodes to itself (`ModifiedUtf8.decode_encode`).  What has been decoded need not be
encoded in the same bytes, but never in more (`ModifiedUtf8.length_encode_le`).
-/
import ClassGraft.Text.ModifiedUtf8
import ClassGraft.Proofs.Reading

namespace ClassGraft

namespace Utf16

theorem isLeading_iff {u : UInt16} : isLeading u ↔ 0xD800 ≤ u.toNat ∧ u.toNat < 0xDC00 := by
  simp only [isLeading, Bool.and_eq_true, decide_eq_true_eq, UInt16.le_iff_toNat_le,
    UInt16.lt_iff_toNat_lt]
  rfl

theorem isTrailing_iff {u : UInt16} : isTrailing u ↔ 0xDC00 ≤ u.toNat ∧ u.toNat < 0xE000 := by
  simp only [isTrailing, Bool.and_eq_true, decide_eq_true_eq, UInt16.le_iff_toNat_le,
    UInt16.lt_iff_toNat_lt]
  rfl

/-- A unit that is no surrogate stands for the character of its number. -/
theorem decode_cons_of_not_surrogate {u : UInt16} (h : u.toNat < 0xD800 ∨ 0xE000 ≤ u.toNat)
    (rest : List UInt16) : decode (u :: rest) = Char.ofNat u.toNat :: decode rest := by
  rw [decode.eq_def]
  simp only
  rw [if_neg (by rw [isLeading_iff]; omega), if_neg (by rw [isTrailing_iff]; omega)]

/-- The character of a unit that is no surrogate is encoded as that unit. -/
theorem ofChar_ofNat {u : UInt16} (h : u.toNat < 0xD800 ∨ 0xE000 ≤ u.toNat) :
    ofChar (Char.ofNat u.toNat) = [u] := by
  have hlt := u.toNat_lt
  have hvalid : u.toNat.isValidChar := by
    rw [Nat.isValidChar]
    omega
  rw [ofChar, Char.toNat_ofNat, if_pos hvalid, if_pos hlt, UInt16.ofNat_toNat]

theorem decode_ofChar_append (c : Char) (rest : List UInt16) :
    decode (ofChar c ++ rest) = c :: decode rest := by
  have hvalid : c.toNat < 0xD800 ∨ 0xDFFF < c.toNat ∧ c.toNat < 0x110000 := c.valid
  rw [ofChar]
  by_cases hbasic : c.toNat < 0x10000
  · -- A character of the basic plane is one unit, and no surrogate.
    rw [if_pos hbasic, List.singleton_append]
    have hu : (UInt16.ofNat c.toNat).toNat = c.toNat := UInt16.toNat_ofNat_of_lt' hbasic
    rw [decode_cons_of_not_surrogate (by omega), hu, Char.ofNat_toNat]
  · -- Any other is a pair, whose halves give its number back.
    rw [if_neg hbasic]
    have hlead : (UInt16.ofNat (0xD800 + (c.toNat - 0x10000) / 0x400)).toNat =
        0xD800 + (c.toNat - 0x10000) / 0x400 :=
      UInt16.toNat_ofNat_of_lt' (by show _ < 65536; omega)
    have htrail : (UInt16.ofNat (0xDC00 + (c.toNat - 0x10000) % 0x400)).toNat =
        0xDC00 + (c.toNat - 0x10000) % 0x400 :=
      UInt16.toNat_ofNat_of_lt' (by show _ < 65536; omega)
    rw [List.cons_append, List.singleton_append, decode.eq_def]
    simp only
    rw [if_pos (by rw [isLeading_iff, hlead]; omega),
      if_pos (by rw [isTrailing_iff, htrail]; omega), ofPair, hlead, htrail]
    have hnumber : 0x10000 + (0xD800 + (c.toNat - 0x10000) / 0x400 - 0xD800) * 0x400 +
        (0xDC00 + (c.toNat - 0x10000) % 0x400 - 0xDC00) = c.toNat := by omega
    rw [hnumber, Char.ofNat_toNat]

theorem decode_encode (text : List Char) : decode (encode text) = text := by
  induction text with
  | nil => rfl
  | cons c rest ih =>
    rw [encode, List.flatMap_cons, decode_ofChar_append, ← encode, ih]

end Utf16

namespace ModifiedUtf8

/-! ### Forms of units -/

/-- The bytes are a form of the unit: one byte for a number from 1 on that fits seven bits, two for
one that fits eleven, and three for any. -/
inductive Form : UInt16 → Bytes → Prop
  | one {u : UInt16} (h : 0x01 ≤ u.toNat ∧ u.toNat ≤ 0x7F) : Form u [UInt8.ofNat u.toNat]
  | two {u : UInt16} (h : u.toNat ≤ 0x7FF) :
    Form u [UInt8.ofNat (0xC0 + u.toNat / 0x40), UInt8.ofNat (0x80 + u.toNat % 0x40)]
  | three (u : UInt16) :
    Form u [UInt8.ofNat (0xE0 + u.toNat / 0x1000), UInt8.ofNat (0x80 + u.toNat / 0x40 % 0x40),
      UInt8.ofNat (0x80 + u.toNat % 0x40)]

theorem toNat_ofNat_of_lt {n : Nat} (h : n < 256) : (UInt8.ofNat n).toNat = n :=
  UInt8.toNat_ofNat_of_lt' h

theorem isContinuation_ofNat (n : Nat) : isContinuation (UInt8.ofNat (0x80 + n % 0x40)) := by
  rw [isContinuation, toNat_ofNat_of_lt (by omega), beq_iff_eq]
  omega

theorem payload_ofNat (n : Nat) : payload (UInt8.ofNat (0x80 + n % 0x40)) = n % 0x40 := by
  rw [payload, toNat_ofNat_of_lt (by omega)]
  omega

/-- A continuation byte is made up of its payload. -/
theorem ofNat_payload {b : UInt8} (h : isContinuation b) : UInt8.ofNat (0x80 + payload b) = b := by
  rw [isContinuation, beq_iff_eq] at h
  have hb : 0x80 + payload b = b.toNat := by
    rw [payload]
    omega
  rw [hb, UInt8.ofNat_toNat]

/-- A unit is read back from each of its forms. -/
theorem unitsFrom_of_form {u : UInt16} {b : Bytes} (h : Form u b) (index : Nat) (rest : Bytes) :
    unitsFrom index (b ++ rest) = (u :: ·) <$> unitsFrom (index + b.length) rest := by
  have hu : u.toNat < 65536 := u.toNat_lt
  cases h with
  | one h =>
    rw [List.singleton_append, unitsFrom.eq_def]
    simp only
    rw [toNat_ofNat_of_lt (by omega), if_pos h, UInt16.ofNat_toNat]
    rfl
  | two h =>
    rw [List.cons_append, List.singleton_append, unitsFrom.eq_def]
    simp only
    rw [toNat_ofNat_of_lt (by omega), if_neg (by omega), if_pos (by omega),
      if_pos (isContinuation_ofNat _), payload_ofNat]
    have hunit : (0xC0 + u.toNat / 0x40) % 0x20 * 0x40 + u.toNat % 0x40 = u.toNat := by omega
    rw [hunit, UInt16.ofNat_toNat]
    rfl
  | three =>
    rw [List.cons_append, List.cons_append, List.singleton_append, unitsFrom.eq_def]
    simp only
    rw [toNat_ofNat_of_lt (by omega), if_neg (by omega), if_neg (by omega), if_pos (by omega),
      if_pos (isContinuation_ofNat _), if_pos (isContinuation_ofNat _), payload_ofNat,
      payload_ofNat]
    have hunit : (0xE0 + u.toNat / 0x1000) % 0x10 * 0x1000 + u.toNat / 0x40 % 0x40 * 0x40 +
        u.toNat % 0x40 = u.toNat := by omega
    rw [hunit, UInt16.ofNat_toNat]
    rfl

/-- Two bytes that are read together are a form of a unit. -/
theorem form_two {a b : UInt8} (ha : 0xC0 ≤ a.toNat ∧ a.toNat ≤ 0xDF) (hb : isContinuation b) :
    Form (UInt16.ofNat (a.toNat % 0x20 * 0x40 + payload b)) [a, b] := by
  have hpayload : payload b < 0x40 := Nat.mod_lt _ (by decide)
  have hunit : (UInt16.ofNat (a.toNat % 0x20 * 0x40 + payload b)).toNat =
      a.toNat % 0x20 * 0x40 + payload b :=
    UInt16.toNat_ofNat_of_lt' (by show _ < 65536; omega)
  have hform := Form.two (u := UInt16.ofNat (a.toNat % 0x20 * 0x40 + payload b))
    (by rw [hunit]; omega)
  rw [hunit] at hform
  have hfirst : 0xC0 + (a.toNat % 0x20 * 0x40 + payload b) / 0x40 = a.toNat := by omega
  have hsecond : (a.toNat % 0x20 * 0x40 + payload b) % 0x40 = payload b := by omega
  rwa [hfirst, hsecond, UInt8.ofNat_toNat, ofNat_payload hb] at hform

/-- So are three. -/
theorem form_three {a b c : UInt8} (ha : 0xE0 ≤ a.toNat ∧ a.toNat ≤ 0xEF)
    (hb : isContinuation b) (hc : isContinuation c) :
    Form (UInt16.ofNat (a.toNat % 0x10 * 0x1000 + payload b * 0x40 + payload c)) [a, b, c] := by
  have hpayload : payload b < 0x40 := Nat.mod_lt _ (by decide)
  have hpayload' : payload c < 0x40 := Nat.mod_lt _ (by decide)
  have hunit : (UInt16.ofNat (a.toNat % 0x10 * 0x1000 + payload b * 0x40 + payload c)).toNat =
      a.toNat % 0x10 * 0x1000 + payload b * 0x40 + payload c :=
    UInt16.toNat_ofNat_of_lt' (by show _ < 65536; omega)
  have hform :=
    Form.three (UInt16.ofNat (a.toNat % 0x10 * 0x1000 + payload b * 0x40 + payload c))
  rw [hunit] at hform
  have hfirst : 0xE0 + (a.toNat % 0x10 * 0x1000 + payload b * 0x40 + payload c) / 0x1000 =
      a.toNat := by omega
  have hsecond : (a.toNat % 0x10 * 0x1000 + payload b * 0x40 + payload c) / 0x40 % 0x40 =
      payload b := by omega
  have hthird : (a.toNat % 0x10 * 0x1000 + payload b * 0x40 + payload c) % 0x40 = payload c := by
    omega
  rwa [hfirst, hsecond, hthird, UInt8.ofNat_toNat, ofNat_payload hb, ofNat_payload hc] at hform

theorem many_form_of_unitsFrom {index : Nat} {bytes : Bytes} {units : List UInt16}
    (h : unitsFrom index bytes = .ok units) : Bytes.Many Form units bytes := by
  -- A sequence that is read is followed by those that are read behind it.
  have hcons : ∀ {u : UInt16} {b rest : Bytes} {next : Nat}, Form u b →
      (∀ {units}, unitsFrom next rest = .ok units → Bytes.Many Form units rest) →
      ∀ {units}, (u :: ·) <$> unitsFrom next rest = .ok units →
        Bytes.Many Form units (b ++ rest) := by
    intro u b rest next hform ih units h
    cases hrest : unitsFrom next rest with
    | error cause =>
      rw [hrest] at h
      exact absurd h (by simp [Functor.map, Except.map])
    | ok tail =>
      rw [hrest] at h
      obtain rfl := Except.ok.inj h
      exact ⟨b, rest, hform, ih hrest, rfl⟩
  fun_induction unitsFrom index bytes generalizing units with
  | case1 =>
    obtain rfl := Except.ok.inj h
    rfl
  | case2 index a rest ha ih =>
    have hunit : (UInt16.ofNat a.toNat).toNat = a.toNat :=
      UInt16.toNat_ofNat_of_lt' (by show _ < 65536; omega)
    have hform := Form.one (u := UInt16.ofNat a.toNat) (by rwa [hunit])
    rw [hunit, UInt8.ofNat_toNat] at hform
    exact hcons hform ih h
  | case3 index a _ ha b rest hb ih => exact hcons (form_two ha hb) ih h
  | case6 index a _ _ ha b hb c rest hc ih => exact hcons (form_three ha hb hc) ih h
  | _ => exact absurd h (by simp)

/-- Units are read from exactly their forms. -/
theorem unitsFrom_eq_ok_iff {index : Nat} {bytes : Bytes} {units : List UInt16} :
    unitsFrom index bytes = .ok units ↔ Bytes.Many Form units bytes := by
  refine ⟨many_form_of_unitsFrom, fun h => ?_⟩
  induction units generalizing index bytes with
  | nil =>
    obtain rfl : bytes = [] := h
    rw [unitsFrom]
  | cons u units ih =>
    obtain ⟨a, b, hu, hunits, rfl⟩ := h
    rw [unitsFrom_of_form hu, ih hunits]
    rfl

/-- A unit is encoded in one of its forms. -/
theorem form_ofUnit (u : UInt16) : Form u (ofUnit u) := by
  rw [ofUnit]
  by_cases h₁ : 0x01 ≤ u.toNat ∧ u.toNat ≤ 0x7F
  · rw [if_pos h₁]
    exact .one h₁
  by_cases h₂ : u.toNat ≤ 0x7FF
  · rw [if_neg h₁, if_pos h₂]
    exact .two h₂
  · rw [if_neg h₁, if_neg h₂]
    exact .three u

theorem unitsFrom_flatMap (index : Nat) (units : List UInt16) :
    unitsFrom index (units.flatMap ofUnit) = .ok units := by
  refine unitsFrom_eq_ok_iff.mpr ((Bytes.many_iff_flatMap.mpr rfl).mono fun u _ b hb => ?_)
  rw [hb]
  exact form_ofUnit u

/-! ### Decoding -/

/-- Bytes that are characters of their own are read as such. -/
theorem unitsFrom_of_isPlain {bytes : Bytes} (h : isPlain bytes) (index : Nat) :
    unitsFrom index bytes = .ok (bytes.map fun b => UInt16.ofNat b.toNat) := by
  induction bytes generalizing index with
  | nil => rw [unitsFrom, List.map_nil]
  | cons b rest ih =>
    simp only [isPlain, List.all_cons, Bool.and_eq_true, decide_eq_true_eq] at h
    rw [unitsFrom.eq_def]
    simp only
    rw [if_pos h.1, ih (by simpa [isPlain] using h.2)]
    rfl

theorem decodePlain_eq {bytes : Bytes} (h : isPlain bytes) :
    decodePlain bytes = String.ofList (Utf16.decode (bytes.map fun b => UInt16.ofNat b.toNat)) := by
  rw [decodePlain]
  congr 1
  induction bytes with
  | nil => rfl
  | cons b rest ih =>
    simp only [isPlain, List.all_cons, Bool.and_eq_true, decide_eq_true_eq] at h
    have hu : (UInt16.ofNat b.toNat).toNat = b.toNat :=
      UInt16.toNat_ofNat_of_lt' (by show _ < 65536; omega)
    rw [List.map_cons, List.map_cons, Utf16.decode_cons_of_not_surrogate (by omega), hu,
      ih (by simpa [isPlain] using h.2)]

/-- The short way and the long way agree. -/
theorem decode_eq_decodeSequences (bytes : Bytes) :
    decode bytes = (decodeSequences bytes).mapError .malformed := by
  rw [decode]
  by_cases h : isPlain bytes
  · rw [if_pos h, decodePlain_eq h, decodeSequences, unitsFrom_of_isPlain h]
    rfl
  · rw [if_neg h]

/-- What is encoded decodes to itself. -/
theorem decode_encode (text : String) : decode (encode text) = .ok text := by
  rw [decode_eq_decodeSequences, decodeSequences, encode, unitsFrom_flatMap]
  show Except.ok (String.ofList (Utf16.decode (Utf16.encode text.toList))) = _
  rw [Utf16.decode_encode, String.ofList_toList]

/-! ### Lengths -/

theorem length_ofUnit_le (u : UInt16) : (ofUnit u).length ≤ 3 := by
  rw [ofUnit]
  split
  · exact Nat.le_add_left 1 2
  · split
    · exact Nat.le_add_left 2 1
    · exact Nat.le_refl 3

theorem length_ofUnit_of_gt {u : UInt16} (h : 0x7FF < u.toNat) : (ofUnit u).length = 3 := by
  rw [ofUnit, if_neg (by omega), if_neg (by omega)]
  rfl

/-- No unit is encoded in more bytes than any of its forms has. -/
theorem length_ofUnit_le_of_form {u : UInt16} {b : Bytes} (h : Form u b) :
    (ofUnit u).length ≤ b.length := by
  cases h with
  | one h => rw [ofUnit, if_pos h]
  | two h =>
    unfold ofUnit
    dsimp only
    rw [if_pos h]
    split
    · exact Nat.le_add_left 1 1
    · exact Nat.le_refl 2
  | three => exact length_ofUnit_le u

theorem length_flatMap_ofUnit_le {bytes : Bytes} {units : List UInt16}
    (h : Bytes.Many Form units bytes) : (units.flatMap ofUnit).length ≤ bytes.length := by
  rw [List.length_flatMap]
  exact h.sum_le fun _ _ _ => length_ofUnit_le_of_form

/-- No character takes more than a pair of surrogates. -/
theorem length_ofChar_le (c : Char) : ((Utf16.ofChar c).flatMap ofUnit).length ≤ 6 := by
  rw [Utf16.ofChar]
  split
  · rw [List.flatMap_singleton]
    exact (length_ofUnit_le _).trans (by decide)
  · rw [List.flatMap_cons, List.flatMap_singleton, List.length_append]
    exact Nat.add_le_add (length_ofUnit_le _) (length_ofUnit_le _)

/-- What units stand for is encoded in no more bytes than the units: an unpaired surrogate takes as
many as the replacement character. -/
theorem length_encode_decode_le (units : List UInt16) :
    ((Utf16.encode (Utf16.decode units)).flatMap ofUnit).length ≤
      (units.flatMap ofUnit).length := by
  have hcons : ∀ (front rest : List UInt16) {c : Char} {text : List Char},
      ((Utf16.ofChar c).flatMap ofUnit).length ≤ (front.flatMap ofUnit).length →
      ((Utf16.encode text).flatMap ofUnit).length ≤ (rest.flatMap ofUnit).length →
      ((Utf16.encode (c :: text)).flatMap ofUnit).length ≤
        ((front ++ rest).flatMap ofUnit).length := by
    intro front rest c text hc htext
    rw [Utf16.encode, List.flatMap_cons, ← Utf16.encode, List.flatMap_append, List.flatMap_append,
      List.length_append, List.length_append]
    exact Nat.add_le_add hc htext
  have hreplacement : ∀ {u : UInt16}, 0x7FF < u.toNat →
      ((Utf16.ofChar Utf16.replacement).flatMap ofUnit).length ≤ ([u].flatMap ofUnit).length := by
    intro u hu
    rw [List.flatMap_singleton, length_ofUnit_of_gt hu]
    decide
  have hsurrogate : ∀ {u : UInt16}, Utf16.isLeading u ∨ Utf16.isTrailing u → 0x7FF < u.toNat := by
    intro u hu
    rw [Utf16.isLeading_iff, Utf16.isTrailing_iff] at hu
    omega
  -- Units are taken as the decoder takes them: pairs together, and all others one by one.
  fun_induction Utf16.decode units with
  | case1 => exact Nat.le_refl 0
  | case2 u hu => exact hcons [u] [] (hreplacement (hsurrogate (.inl hu))) (Nat.le_refl 0)
  | case3 u hu v rest hv ih =>
    refine hcons [u, v] rest ?_ ih
    have hpair : ([u, v].flatMap ofUnit).length = 6 := by
      simp [length_ofUnit_of_gt (hsurrogate (.inl hu)),
        length_ofUnit_of_gt (hsurrogate (.inr hv))]
    rw [hpair]
    exact length_ofChar_le _
  | case4 u hu v rest hv ih => exact hcons [u] (v :: rest) (hreplacement (hsurrogate (.inl hu))) ih
  | case5 u rest hu hv ih => exact hcons [u] rest (hreplacement (hsurrogate (.inr hv))) ih
  | case6 u rest hu hv ih =>
    refine hcons [u] rest (le_of_eq ?_) ih
    rw [Utf16.isLeading_iff] at hu
    rw [Utf16.isTrailing_iff] at hv
    rw [Utf16.ofChar_ofNat (by omega)]

/-- No text is encoded in more bytes than it has been decoded from. -/
theorem length_encode_le {bytes : Bytes} {text : String} (h : decode bytes = .ok text) :
    (encode text).length ≤ bytes.length := by
  rw [decode_eq_decodeSequences, decodeSequences] at h
  cases hunits : unitsFrom 0 bytes with
  | error cause =>
    rw [hunits] at h
    exact absurd h (by simp [Except.mapError, bind, Except.bind])
  | ok units =>
    rw [hunits] at h
    obtain rfl := Except.ok.inj h
    rw [encode, String.toList_ofList]
    exact (length_encode_decode_le units).trans
      (length_flatMap_ofUnit_le (unitsFrom_eq_ok_iff.mp hunits))

end ModifiedUtf8

end ClassGraft
