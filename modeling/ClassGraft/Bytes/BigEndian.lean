/-
Numbers as bytes, the most significant byte first.

`BigEndian.decode` reads any run of bytes as a number and `BigEndian.encode` writes a number
in exactly so many bytes.  A run of bytes that has been read is written back (`encode_decode`);
that a number which fits is read back stands with the other laws that need powers.
-/

namespace ClassGraft

/-- Raw contents of a file, an attribute or a code array. -/
abbrev Bytes := List UInt8

namespace BigEndian

/-- The number that a run of bytes stands for. -/
def decode (bytes : Bytes) : Nat := bytes.foldl (fun n b => n * 256 + b.toNat) 0

/-- The `width` lowest bytes of `n`. -/
def encode : Nat → Nat → Bytes
  | 0, _ => []
  | width + 1, n => encode width (n / 256) ++ [UInt8.ofNat n]

@[simp] theorem length_encode (width n : Nat) : (encode width n).length = width := by
  induction width generalizing n with
  | zero => rfl
  | succ width ih => simp [encode, ih]

theorem decode_append_singleton (bytes : Bytes) (b : UInt8) :
    decode (bytes ++ [b]) = decode bytes * 256 + b.toNat := by
  simp [decode]

theorem encode_decode (bytes : Bytes) : encode bytes.length (decode bytes) = bytes := by
  rcases List.eq_nil_or_concat bytes with rfl | ⟨front, b, rfl⟩
  · rfl
  · rw [List.concat_eq_append, List.length_append, List.length_singleton, encode,
      decode_append_singleton]
    have hb : b.toNat < 256 := b.toNat_lt
    have hdiv : (decode front * 256 + b.toNat) / 256 = decode front := by omega
    rw [hdiv, encode_decode front]
    congr 2
    apply UInt8.toNat_inj.mp
    rw [UInt8.toNat_ofNat']
    omega
termination_by bytes.length

end BigEndian

end ClassGraft
