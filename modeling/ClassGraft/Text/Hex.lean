/-
Hexadecimal text.

* `Hex.digit`, `Hex.digitUpper` — one digit of a number below sixteen;
* `Hex.fixed` — a number in exactly so many digits, the most significant first;
* `Hex.upper` — the same with capitals, as fault messages and byte dumps write it;
* `Hex.ofBytes` — two lower-case digits for every byte.
-/

namespace ClassGraft

namespace Hex

/-- The lower-case digit of a number below sixteen. -/
def digit (n : Nat) : Char :=
  if n < 10 then Char.ofNat ('0'.toNat + n) else Char.ofNat ('a'.toNat + (n - 10))

/-- The upper-case digit of a number below sixteen. -/
def digitUpper (n : Nat) : Char :=
  if n < 10 then Char.ofNat ('0'.toNat + n) else Char.ofNat ('A'.toNat + (n - 10))

/-- The `width` lowest digits of `n`, the most significant first. -/
def fixedWith (glyph : Nat → Char) : Nat → Nat → List Char
  | 0, _ => []
  | width + 1, n => fixedWith glyph width (n / 16) ++ [glyph (n % 16)]

/-- The `width` lowest digits of `n` in lower case. -/
def fixed (width n : Nat) : String := String.ofList (fixedWith digit width n)

/-- The `width` lowest digits of `n` in capitals. -/
def upper (width n : Nat) : String := String.ofList (fixedWith digitUpper width n)

/-- Two lower-case digits for every byte. -/
def ofBytes (bytes : List UInt8) : String :=
  String.ofList (bytes.flatMap fun b => [digit (b.toNat / 16), digit (b.toNat % 16)])

end Hex

end ClassGraft
