/-
What files hold.

A text is decoded from exactly the bytes that encode it (`Utf8.decode_eq_ok_iff`): a character is
read from its sequence whatever follows (`Utf8.charsFrom_of_sequence`), nothing but sequences is
read (`Utf8.many_sequence_of_charsFrom`), and each character is encoded in the one that it has
(`Utf8.sequence_iff`).

So a class file is read from disk as it is from memory, and so is mapping text, with one exception:
no file may be empty, but a text may.  There and nowhere else the two ways part
(`ofDisk_agrees_iff`).
-/
import ClassGraft.ClassFile.Reader
import ClassGraft.Proofs.EncodedText
import ClassGraft.Proofs.MappingText

namespace ClassGraft

namespace Utf8

open ModifiedUtf8 (toNat_ofNat_of_lt)

/-! ### Sequences -/

theorem isContinuation_iff {b : UInt8} :
    isContinuation b ↔ 0x80 ≤ b.toNat ∧ b.toNat < 0xC0 := by
  rw [isContinuation, beq_iff_eq]
  omega

theorem mayFollow_iff {a b : UInt8} : mayFollow a b ↔ isContinuation b ∧
    (a.toNat = 0xE0 → 0xA0 ≤ b.toNat) ∧ (a.toNat = 0xED → b.toNat ≤ 0x9F) ∧
      (a.toNat = 0xF0 → 0x90 ≤ b.toNat) ∧ (a.toNat = 0xF4 → b.toNat ≤ 0x8F) := by
  simp only [mayFollow, Bool.and_eq_true, beq_iff_eq, ← UInt8.toNat_inj, UInt8.reduceToNat]
  refine and_congr_right fun _ => ?_
  split_ifs
  all_goals
    simp only [decide_eq_true_eq, UInt8.le_iff_toNat_le, UInt8.reduceToNat, true_iff]
    omega

theorem width_iff (a : UInt8) : (width a = 1 ↔ a.toNat < 0x80) ∧
    (width a = 2 ↔ 0xC2 ≤ a.toNat ∧ a.toNat ≤ 0xDF) ∧
    (width a = 3 ↔ 0xE0 ≤ a.toNat ∧ a.toNat ≤ 0xEF) ∧
    (width a = 4 ↔ 0xF0 ≤ a.toNat ∧ a.toNat ≤ 0xF4) := by
  unfold width
  grind

/-- The sequence of the character of a number. -/
theorem utf8EncodeChar_ofNat {n : Nat} (h : n.isValidChar) :
    String.utf8EncodeChar (Char.ofNat n) =
      if n ≤ 0x7F then [UInt8.ofNat n]
      else if n ≤ 0x7FF then
        [UInt8.ofNat (n / 0x40 % 0x20 + 0xC0), UInt8.ofNat (n % 0x40 + 0x80)]
      else if n ≤ 0xFFFF then
        [UInt8.ofNat (n / 0x1000 % 0x10 + 0xE0), UInt8.ofNat (n / 0x40 % 0x40 + 0x80),
          UInt8.ofNat (n % 0x40 + 0x80)]
      else
        [UInt8.ofNat (n / 0x40000 % 0x08 + 0xF0), UInt8.ofNat (n / 0x1000 % 0x40 + 0x80),
          UInt8.ofNat (n / 0x40 % 0x40 + 0x80), UInt8.ofNat (n % 0x40 + 0x80)] := by
  have hn : (Char.ofNat n).val.toNat = n := by
    rw [Char.toNat_val, Char.toNat_ofNat, if_pos h]
  rw [String.utf8EncodeChar, hn]

theorem ofNat_eq {n : Nat} {b : UInt8} (h : n = b.toNat) : UInt8.ofNat n = b := by
  rw [h, UInt8.ofNat_toNat]

/-- The bytes of one character: a byte that opens a sequence, and those that go on with it. -/
inductive Sequence : Char → Bytes → Prop
  | one {a : UInt8} (ha : width a = 1) : Sequence (Char.ofNat a.toNat) [a]
  | two {a b : UInt8} (ha : width a = 2) (hb : mayFollow a b) :
    Sequence (Char.ofNat (assemble a 0x20 [b])) [a, b]
  | three {a b c : UInt8} (ha : width a = 3) (hb : mayFollow a b) (hc : isContinuation c) :
    Sequence (Char.ofNat (assemble a 0x10 [b, c])) [a, b, c]
  | four {a b c d : UInt8} (ha : width a = 4) (hb : mayFollow a b) (hc : isContinuation c)
      (hd : isContinuation d) :
    Sequence (Char.ofNat (assemble a 0x08 [b, c, d])) [a, b, c, d]

/-- A character is read back from its sequence. -/
theorem charsFrom_of_sequence {char : Char} {bytes : Bytes} (h : Sequence char bytes)
    (index : Nat) (rest : Bytes) :
    charsFrom index (bytes ++ rest) = (char :: ·) <$> charsFrom (index + bytes.length) rest := by
  cases h with
  | one ha =>
    rw [List.singleton_append, charsFrom.eq_def]
    simp only [ha]
    rfl
  | two ha hb =>
    rw [List.cons_append, List.singleton_append, charsFrom.eq_def]
    simp only [ha]
    rw [if_pos hb]
    rfl
  | three ha hb hc =>
    rw [List.cons_append, List.cons_append, List.singleton_append, charsFrom.eq_def]
    simp only [ha]
    rw [if_neg (not_not.mpr hb), if_neg (not_not.mpr hc)]
    rfl
  | four ha hb hc hd =>
    rw [List.cons_append, List.cons_append, List.cons_append, List.singleton_append,
      charsFrom.eq_def]
    simp only [ha]
    rw [if_neg (not_not.mpr hb), if_neg (not_not.mpr hc), if_neg (not_not.mpr hd)]
    rfl

/-- What is read is made up of the sequences of its characters. -/
theorem many_sequence_of_charsFrom {index : Nat} {bytes : Bytes} {text : List Char}
    (h : charsFrom index bytes = .ok text) : Bytes.Many Sequence text bytes := by
  -- A sequence that is read is followed by those that are read behind it.
  have hcons : ∀ {char : Char} {b rest : Bytes} {next : Nat}, Sequence char b →
      (∀ {text}, charsFrom next rest = .ok text → Bytes.Many Sequence text rest) →
      ∀ {text}, (char :: ·) <$> charsFrom next rest = .ok text →
        Bytes.Many Sequence text (b ++ rest) := by
    intro char b rest next hchar ih text h
    cases hrest : charsFrom next rest with
    | error fault =>
      rw [hrest] at h
      exact absurd h (by simp [Functor.map, Except.map])
    | ok tail =>
      rw [hrest] at h
      obtain rfl := Except.ok.inj h
      exact ⟨b, rest, hchar, ih hrest, rfl⟩
  fun_induction charsFrom index bytes generalizing text with
  | case1 =>
    obtain rfl := Except.ok.inj h
    rfl
  | case2 index a rest ha ih => exact hcons (.one ha) ih h
  | case4 index a ha b rest hb ih => exact hcons (.two ha hb) ih h
  | case10 index a ha b c rest hb hc ih =>
    exact hcons (.three ha (not_not.mp hb) (not_not.mp hc)) ih h
  | case17 index a ha b c d rest hb hc hd ih =>
    exact hcons (.four ha (not_not.mp hb) (not_not.mp hc) (not_not.mp hd)) ih h
  | _ => exact absurd h (by simp)

/-- A sequence is the one that its character is encoded in. -/
theorem utf8EncodeChar_of_sequence {char : Char} {bytes : Bytes} (h : Sequence char bytes) :
    String.utf8EncodeChar char = bytes := by
  cases h with
  | @one a ha =>
    have ha := (width_iff a).1.mp ha
    rw [utf8EncodeChar_ofNat (.inl (by omega)), if_pos (by omega), UInt8.ofNat_toNat]
  | @two a b ha hb =>
    have ha := (width_iff a).2.1.mp ha
    have hb := isContinuation_iff.mp (mayFollow_iff.mp hb).1
    have hn : assemble a 0x20 [b] = a.toNat % 0x20 * 0x40 + b.toNat % 0x40 := rfl
    rw [hn, utf8EncodeChar_ofNat (.inl (by omega)), if_neg (by omega), if_pos (by omega),
      ofNat_eq (b := a) (by omega), ofNat_eq (b := b) (by omega)]
  | @three a b c ha hb hc =>
    have ha := (width_iff a).2.2.1.mp ha
    obtain ⟨hb, hshortest, hsurrogate, -⟩ := mayFollow_iff.mp hb
    have hb := isContinuation_iff.mp hb
    have hc := isContinuation_iff.mp hc
    have hn : assemble a 0x10 [b, c] =
        (a.toNat % 0x10 * 0x40 + b.toNat % 0x40) * 0x40 + c.toNat % 0x40 := rfl
    have hvalid : (assemble a 0x10 [b, c]).isValidChar := by
      rw [hn, Nat.isValidChar]
      omega
    rw [utf8EncodeChar_ofNat hvalid, hn, if_neg (by omega), if_neg (by omega), if_pos (by omega),
      ofNat_eq (b := a) (by omega), ofNat_eq (b := b) (by omega), ofNat_eq (b := c) (by omega)]
  | @four a b c d ha hb hc hd =>
    have ha := (width_iff a).2.2.2.mp ha
    obtain ⟨hb, -, -, hshortest, hlast⟩ := mayFollow_iff.mp hb
    have hb := isContinuation_iff.mp hb
    have hc := isContinuation_iff.mp hc
    have hd := isContinuation_iff.mp hd
    have hn : assemble a 0x08 [b, c, d] =
        ((a.toNat % 0x08 * 0x40 + b.toNat % 0x40) * 0x40 + c.toNat % 0x40) * 0x40 +
          d.toNat % 0x40 := rfl
    have hvalid : (assemble a 0x08 [b, c, d]).isValidChar := by
      rw [hn, Nat.isValidChar]
      omega
    rw [utf8EncodeChar_ofNat hvalid, hn, if_neg (by omega), if_neg (by omega), if_neg (by omega),
      ofNat_eq (b := a) (by omega), ofNat_eq (b := b) (by omega), ofNat_eq (b := c) (by omega),
      ofNat_eq (b := d) (by omega)]

theorem isContinuation_ofNat (n : Nat) : isContinuation (UInt8.ofNat (n % 0x40 + 0x80)) := by
  rw [isContinuation_iff, toNat_ofNat_of_lt (by omega)]
  omega

/-- Every character is encoded in a sequence. -/
theorem sequence_utf8EncodeChar (char : Char) : Sequence char (String.utf8EncodeChar char) := by
  obtain ⟨n, hvalid, rfl⟩ : ∃ n : Nat, n.isValidChar ∧ Char.ofNat n = char :=
    ⟨char.toNat, char.valid, Char.ofNat_toNat char⟩
  rw [utf8EncodeChar_ofNat hvalid]
  rw [Nat.isValidChar] at hvalid
  have hlow : (UInt8.ofNat (n % 0x40 + 0x80)).toNat = n % 0x40 + 0x80 :=
    toNat_ofNat_of_lt (by omega)
  have hmiddle : (UInt8.ofNat (n / 0x40 % 0x40 + 0x80)).toNat = n / 0x40 % 0x40 + 0x80 :=
    toNat_ofNat_of_lt (by omega)
  have hhigh : (UInt8.ofNat (n / 0x1000 % 0x40 + 0x80)).toNat = n / 0x1000 % 0x40 + 0x80 :=
    toNat_ofNat_of_lt (by omega)
  split_ifs with h₁ h₂ h₃
  · have ha : (UInt8.ofNat n).toNat = n := toNat_ofNat_of_lt (by omega)
    have h := Sequence.one ((width_iff (UInt8.ofNat n)).1.mpr (by omega))
    rwa [ha] at h
  · have ha : (UInt8.ofNat (n / 0x40 % 0x20 + 0xC0)).toNat = n / 0x40 % 0x20 + 0xC0 :=
      toNat_ofNat_of_lt (by omega)
    have hwidth : width (UInt8.ofNat (n / 0x40 % 0x20 + 0xC0)) = 2 :=
      (width_iff _).2.1.mpr (by omega)
    have h := Sequence.two hwidth (mayFollow_iff.mpr ⟨isContinuation_ofNat n, by omega⟩)
    have hn : assemble (UInt8.ofNat (n / 0x40 % 0x20 + 0xC0)) 0x20
        [UInt8.ofNat (n % 0x40 + 0x80)] = n := by
      simp only [assemble, List.foldl_cons, List.foldl_nil, ha, hlow]
      omega
    rwa [hn] at h
  · have ha : (UInt8.ofNat (n / 0x1000 % 0x10 + 0xE0)).toNat = n / 0x1000 % 0x10 + 0xE0 :=
      toNat_ofNat_of_lt (by omega)
    have hwidth : width (UInt8.ofNat (n / 0x1000 % 0x10 + 0xE0)) = 3 :=
      (width_iff _).2.2.1.mpr (by omega)
    have h := Sequence.three hwidth
      (mayFollow_iff.mpr ⟨isContinuation_ofNat (n / 0x40), by omega⟩) (isContinuation_ofNat n)
    have hn : assemble (UInt8.ofNat (n / 0x1000 % 0x10 + 0xE0)) 0x10
        [UInt8.ofNat (n / 0x40 % 0x40 + 0x80), UInt8.ofNat (n % 0x40 + 0x80)] = n := by
      simp only [assemble, List.foldl_cons, List.foldl_nil, ha, hmiddle, hlow]
      omega
    rwa [hn] at h
  · have ha : (UInt8.ofNat (n / 0x40000 % 0x08 + 0xF0)).toNat = n / 0x40000 % 0x08 + 0xF0 :=
      toNat_ofNat_of_lt (by omega)
    have hwidth : width (UInt8.ofNat (n / 0x40000 % 0x08 + 0xF0)) = 4 :=
      (width_iff _).2.2.2.mpr (by omega)
    have h := Sequence.four hwidth
      (mayFollow_iff.mpr ⟨isContinuation_ofNat (n / 0x1000), by omega⟩)
      (isContinuation_ofNat (n / 0x40)) (isContinuation_ofNat n)
    have hn : assemble (UInt8.ofNat (n / 0x40000 % 0x08 + 0xF0)) 0x08
        [UInt8.ofNat (n / 0x1000 % 0x40 + 0x80), UInt8.ofNat (n / 0x40 % 0x40 + 0x80),
          UInt8.ofNat (n % 0x40 + 0x80)] = n := by
      simp only [assemble, List.foldl_cons, List.foldl_nil, ha, hhigh, hmiddle, hlow]
      omega
    rwa [hn] at h

theorem sequence_iff {char : Char} {bytes : Bytes} :
    Sequence char bytes ↔ bytes = String.utf8EncodeChar char := by
  constructor
  · intro h
    exact (utf8EncodeChar_of_sequence h).symm
  · rintro rfl
    exact sequence_utf8EncodeChar char

/-- Characters are read from exactly their sequences. -/
theorem charsFrom_eq_ok_iff {index : Nat} {bytes : Bytes} {text : List Char} :
    charsFrom index bytes = .ok text ↔ Bytes.Many Sequence text bytes := by
  refine ⟨many_sequence_of_charsFrom, fun h => ?_⟩
  induction text generalizing index bytes with
  | nil =>
    obtain rfl : bytes = [] := h
    rw [charsFrom]
  | cons char text ih =>
    obtain ⟨a, b, hchar, htext, rfl⟩ := h
    rw [charsFrom_of_sequence hchar, ih htext]
    rfl

theorem many_sequence_iff {text : List Char} {bytes : Bytes} :
    Bytes.Many Sequence text bytes ↔ bytes = text.flatMap String.utf8EncodeChar := by
  rw [← Bytes.many_iff_flatMap]
  constructor
  · exact fun h => h.mono fun _ _ _ => sequence_iff.mp
  · exact fun h => h.mono fun _ _ _ => sequence_iff.mpr

/-- A text is decoded from exactly the bytes that encode it. -/
theorem decode_eq_ok_iff {bytes : Bytes} {text : String} :
    decode bytes = .ok text ↔ bytes.toByteArray = text.toByteArray := by
  have htext : decode bytes = .ok text ↔ charsFrom 0 bytes = .ok text.toList := by
    rw [decode]
    cases charsFrom 0 bytes with
    | error fault => simp [Functor.map, Except.map]
    | ok chars =>
      simp only [Functor.map, Except.map, Except.ok.injEq]
      rw [← String.toList_inj, String.toList_ofList]
  rw [htext, charsFrom_eq_ok_iff, many_sequence_iff, ← String.utf8Encode_toList, List.utf8Encode]
  constructor
  · rintro rfl
    rfl
  · intro h
    have := congrArg (fun b : ByteArray => b.data.toList) h
    simpa only [List.toList_data_toByteArray] using this

end Utf8

/-! ### Disk and memory -/

/-- A class file is read from disk as it is from memory. -/
theorem ClassFile.ofDisk_ok [Build] (bytes : Bytes) : ofDisk (.ok bytes) = ofBytes bytes := by
  cases bytes with
  | nil => rfl
  | cons b rest => rfl

namespace Mappings

theorem ofDisk_nil : ofDisk (.ok []) = .error .empty := rfl

theorem ofDisk_of_ne_nil {bytes : Bytes} (hne : bytes ≠ []) :
    ofDisk (.ok bytes) = (Utf8.decode bytes).mapError
      (fun fault => .malformed (.mappingNotUtf8 fault)) >>= parse := by
  rw [ofDisk, Input.ofDisk, Input.ofBytes, dif_neg hne]
  rfl

/-- The text in a file that holds one is read as mapping text. -/
theorem ofDisk_of_decode {bytes : Bytes} {text : String} (hne : bytes ≠ [])
    (h : Utf8.decode bytes = .ok text) : ofDisk (.ok bytes) = parse text := by
  rw [ofDisk_of_ne_nil hne, h]
  rfl

theorem ofDisk_of_not_decode {bytes : Bytes} {fault : Utf8Fault} (hne : bytes ≠ [])
    (h : Utf8.decode bytes = .error fault) :
    ofDisk (.ok bytes) = .error (.malformed (.mappingNotUtf8 fault)) := by
  rw [ofDisk_of_ne_nil hne, h]
  rfl

/-- Of a text, only a line can be at fault. -/
theorem parse_ne_empty (text : String) : parse text ≠ .error .empty := by
  intro h
  rw [parse, MappingRecord.ofText_eq] at h
  cases hread : MappingRecord.ofLines 1 (text.toList.splitOn '\n') with
  | ok records =>
    rw [hread] at h
    exact absurd h (by simp [Except.map])
  | error fault =>
    obtain ⟨n, line, cause, -, -, -, -, rfl⟩ := MappingRecord.ofLines_eq_error hread
    rw [hread] at h
    exact absurd h (by simp [Except.map])

end Mappings

/-- What a file holds is read as it is from memory: a class file always, and mapping text exactly
if the file is not empty.  Bytes that are no text are malformed, and an empty file, which holds the
empty text, is refused as such. -/
theorem ofDisk_agrees_iff [Build] (bytes : Bytes) :
    ClassFile.ofDisk (.ok bytes) = ClassFile.ofBytes bytes ∧
    (∀ text : String, bytes.toByteArray = text.toUTF8 →
      (Mappings.ofDisk (.ok bytes) = Mappings.parse text ↔ bytes ≠ [])) ∧
    (¬bytes.toByteArray.IsValidUTF8 →
      ∃ fault, Mappings.ofDisk (.ok bytes) = .error (.malformed (.mappingNotUtf8 fault))) ∧
    (Mappings.ofDisk (.ok bytes) = .error .empty ↔ bytes = []) := by
  refine ⟨ClassFile.ofDisk_ok bytes, fun text htext => ?_, fun hinvalid => ?_, ?_⟩
  · constructor
    · rintro hread rfl
      exact Mappings.parse_ne_empty text (hread.symm.trans Mappings.ofDisk_nil)
    · exact fun hne => Mappings.ofDisk_of_decode hne (Utf8.decode_eq_ok_iff.mpr htext)
  · have hne : bytes ≠ [] := by
      rintro rfl
      exact hinvalid ByteArray.isValidUTF8_empty
    cases hread : Utf8.decode bytes with
    | error fault => exact ⟨fault, Mappings.ofDisk_of_not_decode hne hread⟩
    | ok text =>
      rw [Utf8.decode_eq_ok_iff] at hread
      exact absurd (hread ▸ text.isValidUTF8) hinvalid
  · refine ⟨fun hempty => ?_, ?_⟩
    · by_contra hne
      cases hread : Utf8.decode bytes with
      | error fault =>
        rw [Mappings.ofDisk_of_not_decode hne hread] at hempty
        exact absurd hempty (by simp)
      | ok text =>
        rw [Mappings.ofDisk_of_decode hne hread] at hempty
        exact Mappings.parse_ne_empty text hempty
    · rintro rfl
      exact Mappings.ofDisk_nil

attribute [local instance] Build.checked

/-- A record with a name of two and four byte sequences is read from a file, and an overlong
sequence is not. -/
theorem ofDisk_agrees_accentedName :
    let accented : Bytes := [67, 76, 58, 32, 97, 32, 195, 169, 240, 157, 132, 158]
    (accented.toByteArray = "CL: a é𝄞".toUTF8 ∧
      Mappings.ofDisk (.ok accented) = Mappings.parse "CL: a é𝄞") ∧
    ¬(([192, 128] : Bytes).toByteArray.IsValidUTF8) ∧
      ∃ fault, Mappings.ofDisk (.ok [192, 128]) = .error (.malformed (.mappingNotUtf8 fault)) := by
  intro accented
  have htext : accented.toByteArray = "CL: a é𝄞".toUTF8 := by decide +kernel
  have hinvalid : ¬(([192, 128] : Bytes).toByteArray.IsValidUTF8) := by decide +kernel
  refine ⟨⟨htext, ?_⟩, hinvalid, ?_⟩
  · exact ((ofDisk_agrees_iff accented).2.1 _ htext).mpr (by decide)
  · exact (ofDisk_agrees_iff [192, 128]).2.2.1 hinvalid

/-- The empty text lists no records, but a file that holds it is refused. -/
theorem ofDisk_emptyText :
    ([] : Bytes).toByteArray = "".toUTF8 ∧ Mappings.parse "" = .ok Mappings.empty ∧
      Mappings.ofDisk (.ok []) ≠ Mappings.parse "" := by
  have hparse : Mappings.parse "" = .ok Mappings.empty := by rfl
  refine ⟨by rfl, hparse, ?_⟩
  rw [hparse, Mappings.ofDisk_nil]
  simp

end ClassGraft
