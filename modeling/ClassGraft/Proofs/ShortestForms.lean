/-
Shortest forms.

Bytes that decode are forms of units, one after the other, and most units have more than one form.
The shortest is the one in which a unit is encoded (`ModifiedUtf8.shortest_iff`).  The units
themselves come back when the text that they decode to is encoded exactly if every surrogate among
them has its partner (`Utf16.encode_decode_eq_iff`).

So bytes are what the text that they decode to is encoded in exactly if all forms in them are the
shortest and no surrogate stands alone; every text decodes from what it is encoded in; and bytes
each of which is a character of its own decode in the short way to what they decode to in the long
one (`ModifiedUtf8.round_trips`).
-/
import ClassGraft.Proofs.EncodedText
import ClassGraft.Text.Utf8

namespace ClassGraft

/-! ### Surrogates -/

namespace Utf16

/-- Whether the unit at a place is a surrogate without its partner: a leading one that no trailing
one follows, or a trailing one that follows no leading one. -/
def Unpaired (units : List UInt16) (place : Nat) : Prop :=
  (units[place]?.any isLeading ∧ ¬units[place + 1]?.any isTrailing) ∨
    (units[place]?.any isTrailing ∧ ¬(0 < place ∧ units[place - 1]?.any isLeading))

variable {u v : UInt16} {rest : List UInt16}

theorem not_isLeading_of_isTrailing (h : isTrailing u) : ¬isLeading u := by
  rw [isTrailing_iff] at h
  rw [isLeading_iff]
  omega

theorem unpaired_succ_succ (u : UInt16) (rest : List UInt16) (place : Nat) :
    Unpaired (u :: rest) (place + 2) ↔ Unpaired rest (place + 1) := by
  simp [Unpaired]

/-- A unit that is no leading surrogate is nobody's partner. -/
theorem unpaired_succ (h : ¬isLeading u) (place : Nat) :
    Unpaired (u :: rest) (place + 1) ↔ Unpaired rest place := by
  cases place with
  | zero => simp [Unpaired, h]
  | succ place => exact unpaired_succ_succ u rest place

theorem unpaired_zero_of_isTrailing (h : isTrailing u) : Unpaired (u :: rest) 0 := by
  simp [Unpaired, h]

theorem unpaired_zero_of_isLeading (h : isLeading u) (hrest : ¬rest[0]?.any isTrailing) :
    Unpaired (u :: rest) 0 := by
  refine .inl ⟨?_, ?_⟩
  · simpa using h
  · simpa using hrest

/-- In front of other units, a unit that is no surrogate changes nothing. -/
theorem forall_not_unpaired_cons_iff (hlead : ¬isLeading u) (htrail : ¬isTrailing u) :
    (∀ place, ¬Unpaired (u :: rest) place) ↔ ∀ place, ¬Unpaired rest place := by
  constructor
  · intro h place hplace
    exact h (place + 1) ((unpaired_succ hlead place).mpr hplace)
  · intro h place
    cases place with
    | zero => simp [Unpaired, hlead, htrail]
    | succ place =>
      rw [unpaired_succ hlead]
      exact h place

/-- Nor does a pair. -/
theorem forall_not_unpaired_pair_iff (hlead : isLeading u) (htrail : isTrailing v) :
    (∀ place, ¬Unpaired (u :: v :: rest) place) ↔ ∀ place, ¬Unpaired rest place := by
  have hlead' : ¬isTrailing u := fun h => not_isLeading_of_isTrailing h hlead
  have htrail' : ¬isLeading v := not_isLeading_of_isTrailing htrail
  have hzero : ¬Unpaired (u :: v :: rest) 0 := by simp [Unpaired, hlead', htrail]
  have hone : ¬Unpaired (u :: v :: rest) 1 := by simp [Unpaired, hlead, htrail']
  constructor
  · intro h place hplace
    refine h (place + 2) ?_
    rwa [unpaired_succ_succ, unpaired_succ htrail']
  · intro h place
    match place with
    | 0 => exact hzero
    | 1 => exact hone
    | place + 2 =>
      rw [unpaired_succ_succ, unpaired_succ htrail']
      exact h place

theorem encode_cons (c : Char) (text : List Char) : encode (c :: text) = ofChar c ++ encode text :=
  List.flatMap_cons

theorem ofChar_replacement : ofChar replacement = [0xFFFD] := by decide

theorem ofChar_ofPair (hlead : isLeading u) (htrail : isTrailing v) :
    ofChar (ofPair u v) = [u, v] := by
  rw [isLeading_iff] at hlead
  rw [isTrailing_iff] at htrail
  have hvalid : (0x10000 + (u.toNat - 0xD800) * 0x400 + (v.toNat - 0xDC00)).isValidChar := by
    rw [Nat.isValidChar]
    omega
  have hchar : (ofPair u v).toNat =
      0x10000 + (u.toNat - 0xD800) * 0x400 + (v.toNat - 0xDC00) := by
    rw [ofPair, Char.toNat_ofNat, if_pos hvalid]
  have hfirst : 0xD800 + ((ofPair u v).toNat - 0x10000) / 0x400 = u.toNat := by
    rw [hchar]
    omega
  have hsecond : 0xDC00 + ((ofPair u v).toNat - 0x10000) % 0x400 = v.toNat := by
    rw [hchar]
    omega
  rw [ofChar, if_neg (by omega), hfirst, hsecond, UInt16.ofNat_toNat, UInt16.ofNat_toNat]

/-- The replacement character is no surrogate, so a surrogate that it stands for is lost. -/
theorem encode_replacement_cons_ne (h : isLeading u ∨ isTrailing u) (text : List Char) :
    encode (replacement :: text) ≠ u :: rest := by
  rw [encode_cons, ofChar_replacement]
  intro heq
  obtain rfl := (List.cons.inj heq).1
  exact absurd h (by decide)

/-- Units come back exactly if no surrogate among them stands alone. -/
theorem encode_decode_eq_iff (units : List UInt16) :
    encode (decode units) = units ↔ ∀ place, ¬Unpaired units place := by
  -- Units are taken as the decoder takes them: pairs together, and all others one by one.
  fun_induction decode units with
  | case1 => simp [encode, Unpaired]
  | case2 u hu =>
    refine iff_of_false (encode_replacement_cons_ne (.inl hu) []) fun h => ?_
    exact h 0 (unpaired_zero_of_isLeading hu (by simp))
  | case3 u hu v rest hv ih =>
    rw [forall_not_unpaired_pair_iff hu hv, ← ih, encode_cons, ofChar_ofPair hu hv]
    exact ⟨List.append_cancel_left, congrArg ([u, v] ++ ·)⟩
  | case4 u hu v rest hv ih =>
    refine iff_of_false (encode_replacement_cons_ne (.inl hu) _) fun h => ?_
    exact h 0 (unpaired_zero_of_isLeading hu (by simpa using hv))
  | case5 u rest hu hv ih =>
    refine iff_of_false (encode_replacement_cons_ne (.inr hv) _) fun h => ?_
    exact h 0 (unpaired_zero_of_isTrailing hv)
  | case6 u rest hu hv ih =>
    have hplain : ofChar (Char.ofNat u.toNat) = [u] := by
      rw [isLeading_iff] at hu
      rw [isTrailing_iff] at hv
      exact ofChar_ofNat (by omega)
    rw [forall_not_unpaired_cons_iff hu hv, ← ih, encode_cons, hplain]
    exact ⟨List.append_cancel_left, congrArg ([u] ++ ·)⟩

end Utf16

/-! ### Bytes -/

namespace ModifiedUtf8

/-- How many bytes the shortest form of a unit has. -/
def shortestLength (u : UInt16) : Nat :=
  if 0x01 ≤ u.toNat ∧ u.toNat ≤ 0x7F then 1 else if u.toNat ≤ 0x7FF then 2 else 3

/-- Whether the bytes are the shortest forms of the units. -/
def Shortest (units : List UInt16) (bytes : Bytes) : Prop :=
  Bytes.Many (fun u b => Form u b ∧ b.length = shortestLength u) units bytes

/-- The shortest form of a unit is the one in which it is encoded. -/
theorem shortest_form_iff {u : UInt16} {b : Bytes} :
    Form u b ∧ b.length = shortestLength u ↔ b = ofUnit u := by
  constructor
  · rintro ⟨h, hlen⟩
    cases h with
    | one h => rw [ofUnit, if_pos h]
    | two h =>
      have h₁ : ¬(0x01 ≤ u.toNat ∧ u.toNat ≤ 0x7F) := by
        intro h₁
        rw [shortestLength, if_pos h₁] at hlen
        exact absurd hlen (by simp)
      rw [ofUnit, if_neg h₁, if_pos h]
    | three =>
      have h₁ : ¬(0x01 ≤ u.toNat ∧ u.toNat ≤ 0x7F) := by
        intro h₁
        rw [shortestLength, if_pos h₁] at hlen
        exact absurd hlen (by simp)
      have h₂ : ¬u.toNat ≤ 0x7FF := by
        intro h₂
        rw [shortestLength, if_neg h₁, if_pos h₂] at hlen
        exact absurd hlen (by simp)
      rw [ofUnit, if_neg h₁, if_neg h₂]
  · rintro rfl
    refine ⟨form_ofUnit u, ?_⟩
    rw [ofUnit, shortestLength]
    split
    · rfl
    · split
      all_goals rfl

theorem shortest_iff {units : List UInt16} {bytes : Bytes} :
    Shortest units bytes ↔ bytes = units.flatMap ofUnit := by
  simp only [Shortest, shortest_form_iff, Bytes.many_iff_flatMap]

theorem bounds_of_mem_ofUnit {u : UInt16} {b : UInt8} (h : b ∈ ofUnit u) :
    0 < b.toNat ∧ b.toNat < 0xF0 := by
  have hu : u.toNat < 65536 := u.toNat_lt
  have hbyte : ∀ n : Nat, 0 < n → n < 0xF0 →
      0 < (UInt8.ofNat n).toNat ∧ (UInt8.ofNat n).toNat < 0xF0 := by
    intro n hpos hlt
    rw [toNat_ofNat_of_lt (by omega)]
    exact ⟨hpos, hlt⟩
  rw [ofUnit] at h
  by_cases h₁ : 0x01 ≤ u.toNat ∧ u.toNat ≤ 0x7F
  · rw [if_pos h₁, List.mem_singleton] at h
    rw [h]
    exact hbyte _ (by omega) (by omega)
  by_cases h₂ : u.toNat ≤ 0x7FF
  · rw [if_neg h₁, if_pos h₂, List.mem_pair] at h
    rcases h with rfl | rfl
    all_goals exact hbyte _ (by omega) (by omega)
  · rw [if_neg h₁, if_neg h₂, List.mem_cons, List.mem_pair] at h
    rcases h with rfl | rfl | rfl
    all_goals exact hbyte _ (by omega) (by omega)

/-- No byte of an encoded text is zero or opens a sequence of four. -/
theorem bounds_of_mem_encode {text : String} {b : UInt8} (h : b ∈ encode text) :
    b ≠ 0 ∧ b < 0xF0 := by
  obtain ⟨u, -, hb⟩ := List.mem_flatMap.mp h
  obtain ⟨hpos, hlt⟩ := bounds_of_mem_ofUnit hb
  refine ⟨?_, UInt8.lt_iff_toNat_lt.mpr hlt⟩
  rintro rfl
  exact absurd hpos (by decide)

theorem decode_eq_ok_iff {bytes : Bytes} {text : String} :
    decode bytes = .ok text ↔ ∃ units, Bytes.Many Form units bytes ∧
      text = String.ofList (Utf16.decode units) := by
  have hread : ∀ units, Bytes.Many Form units bytes ↔ unitsFrom 0 bytes = .ok units :=
    fun _ => unitsFrom_eq_ok_iff.symm
  simp only [hread]
  rw [decode_eq_decodeSequences, decodeSequences]
  cases unitsFrom 0 bytes with
  | error cause => simp [Except.mapError, bind, Except.bind]
  | ok units => simp [Except.mapError, bind, Except.bind, pure, Except.pure, eq_comm]

/-- Bytes come back exactly if they are shortest forms of units without a surrogate that stands
alone. -/
theorem encode_eq_iff {bytes : Bytes} {text : String} (h : decode bytes = .ok text) :
    encode text = bytes ↔ ∃ units, Shortest units bytes ∧ ∀ place, ¬Utf16.Unpaired units place := by
  obtain ⟨units, hunits, rfl⟩ := decode_eq_ok_iff.mp h
  rw [encode, String.toList_ofList]
  constructor
  · -- Both are read as the same units, so encoding has changed none of these.
    intro hbytes
    have hread : unitsFrom 0 bytes = .ok (Utf16.encode (Utf16.decode units)) := by
      rw [← hbytes]
      exact unitsFrom_flatMap 0 _
    have hsame : Utf16.encode (Utf16.decode units) = units :=
      Except.ok.inj (hread.symm.trans (unitsFrom_eq_ok_iff.mpr hunits))
    refine ⟨units, shortest_iff.mpr ?_, (Utf16.encode_decode_eq_iff units).mp hsame⟩
    rw [← hbytes, hsame]
  · rintro ⟨units', hshortest, hpaired⟩
    obtain rfl := shortest_iff.mp hshortest
    have hread : unitsFrom 0 (units'.flatMap ofUnit) = .ok units := unitsFrom_eq_ok_iff.mpr hunits
    obtain rfl := Except.ok.inj ((unitsFrom_flatMap 0 units').symm.trans hread)
    rw [(Utf16.encode_decode_eq_iff units').mpr hpaired]

/-! ### Plain bytes -/

/-- What is plain is the same in the standard encoding. -/
theorem charsFrom_of_isPlain {bytes : Bytes} (h : isPlain bytes) (index : Nat) :
    Utf8.charsFrom index bytes = .ok (bytes.map fun b => Char.ofNat b.toNat) := by
  induction bytes generalizing index with
  | nil => rw [Utf8.charsFrom, List.map_nil]
  | cons b rest ih =>
    simp only [isPlain, List.all_cons, Bool.and_eq_true, decide_eq_true_eq] at h
    have hwidth : Utf8.width b = 1 := if_pos (show b.toNat < 0x80 by omega)
    rw [Utf8.charsFrom.eq_def]
    simp only [hwidth]
    rw [ih (by simpa [isPlain] using h.2)]
    rfl

theorem decodeSequences_of_isPlain {bytes : Bytes} (h : isPlain bytes) :
    decodeSequences bytes = .ok (decodePlain bytes) := by
  rw [decodePlain_eq h, decodeSequences, unitsFrom_of_isPlain h]
  rfl

/-- What a text is encoded in decodes to it and holds neither a zero byte nor one that would open a
sequence of four.  Bytes that decode are what the result is encoded in exactly if they are shortest
forms and no surrogate in them stands alone.  There is one way of decoding, but for plain bytes, the
standard one included, it may be cut short. -/
theorem round_trips :
    (∀ text : String, decode (encode text) = .ok text ∧ ∀ b ∈ encode text, b ≠ 0 ∧ b < 0xF0) ∧
    (∀ (bytes : Bytes) (text : String), decode bytes = .ok text →
      (encode text = bytes ↔
        ∃ units, Shortest units bytes ∧ ∀ place, ¬Utf16.Unpaired units place)) ∧
    ∀ bytes : Bytes, decode bytes = (decodeSequences bytes).mapError .malformed ∧
      (isPlain bytes → decodeSequences bytes = .ok (decodePlain bytes) ∧
        Utf8.decode bytes = .ok (decodePlain bytes)) := by
  refine ⟨fun text => ⟨decode_encode text, fun b => bounds_of_mem_encode⟩,
    fun bytes text => encode_eq_iff, fun bytes => ⟨decode_eq_decodeSequences bytes, fun h => ?_⟩⟩
  refine ⟨decodeSequences_of_isPlain h, ?_⟩
  rw [Utf8.decode, charsFrom_of_isPlain h]
  rfl

/-- Forms of one, two and three bytes, a pair of surrogates among them. -/
def mixedForms : Bytes := [0x41, 0xC0, 0x80, 0xED, 0xA0, 0xBD, 0xED, 0xB8, 0x80]

/-- The bytes above come back.  A letter in two bytes does not, as these are not its shortest form,
nor does a surrogate alone, in place of which another character is read. -/
theorem round_trips_mixedForms :
    (decode mixedForms = .ok "A\x00😀" ∧ encode "A\x00😀" = mixedForms) ∧
    (decode [0xC1, 0x81] = .ok "A" ∧
      ¬∃ units, Shortest units [0xC1, 0x81] ∧ ∀ place, ¬Utf16.Unpaired units place) ∧
    (decode [0xED, 0xA0, 0x80] = .ok "\uFFFD" ∧
      ¬∃ units, Shortest units [0xED, 0xA0, 0x80] ∧ ∀ place, ¬Utf16.Unpaired units place) := by
  have hmixed : decode mixedForms = .ok "A\x00😀" := by decide
  have hlong : decode [0xC1, 0x81] = .ok "A" := by decide
  have halone : decode [0xED, 0xA0, 0x80] = .ok "\uFFFD" := by decide
  have hshortest : Shortest [0x41, 0, 0xD83D, 0xDE00] mixedForms := shortest_iff.mpr (by decide)
  have hpaired : ∀ place, ¬Utf16.Unpaired [0x41, 0, 0xD83D, 0xDE00] place :=
    (Utf16.encode_decode_eq_iff _).mp (by decide)
  refine ⟨⟨hmixed, ?_⟩, ⟨hlong, ?_⟩, halone, ?_⟩
  · exact (round_trips.2.1 _ _ hmixed).mpr ⟨_, hshortest, hpaired⟩
  · exact mt (round_trips.2.1 _ _ hlong).mpr (by decide)
  · exact mt (round_trips.2.1 _ _ halone).mpr (by decide)

end ModifiedUtf8

end ClassGraft
