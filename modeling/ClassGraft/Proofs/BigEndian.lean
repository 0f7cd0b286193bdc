/-
Which numbers fit how many bytes.

* `decode_lt` — so many bytes stand for a number below that power of 256;
* `decode_encode` — a number below it is read back after writing.

With `encode_decode` the two directions are inverse to each other on runs of one length and the
numbers below its power.
-/
import Mathlib
import ClassGraft.Bytes.BigEndian

namespace ClassGraft

namespace BigEndian

theorem decode_encode {width n : Nat} (h : n < 256 ^ width) : decode (encode width n) = n := by
  induction width generalizing n with
  | zero =>
    have : n = 0 := by simpa using h
    subst this
    rfl
  | succ width ih =>
    have hdiv : n / 256 < 256 ^ width := by
      rw [Nat.div_lt_iff_lt_mul (by decide)]
      rwa [Nat.pow_succ] at h
    rw [encode, decode_append_singleton, ih hdiv, UInt8.toNat_ofNat']
    omega

theorem decode_lt (bytes : Bytes) : decode bytes < 256 ^ bytes.length := by
  rcases List.eq_nil_or_concat bytes with rfl | ⟨front, b, rfl⟩
  · decide
  · rw [List.concat_eq_append, decode_append_singleton, List.length_append,
      List.length_singleton, Nat.pow_succ]
    have := decode_lt front
    have hb : b.toNat < 256 := b.toNat_lt
    omega
termination_by bytes.length

end BigEndian

end ClassGraft
