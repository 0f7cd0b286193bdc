/-
The text encoding of class files.

Every 16-bit unit of a text is encoded on its own: one byte for `U+0001` to `U+007F`, two
bytes for `U+0000` and up to `U+07FF`, three bytes from there on.  So no encoded text holds a
zero byte, and a character outside the basic plane takes six bytes.

* `ModifiedUtf8.encode` writes shortest forms;
* `ModifiedUtf8.decode` reads longer forms and unpaired surrogates as well, and refuses a zero
  byte, a byte that cannot open a sequence and a sequence that is cut short.
-/
import ClassGraft.Text.Utf16
import ClassGraft.Bytes.BigEndian
import ClassGraft.Fault

namespace ClassGraft

namespace ModifiedUtf8

/-- The bytes of one unit. -/
def ofUnit (u : UInt16) : Bytes :=
  let n := u.toNat
  if 0x01 ≤ n ∧ n ≤ 0x7F then [UInt8.ofNat n]
  else if n ≤ 0x7FF then [UInt8.ofNat (0xC0 + n / 0x40), UInt8.ofNat (0x80 + n % 0x40)]
  else [UInt8.ofNat (0xE0 + n / 0x1000), UInt8.ofNat (0x80 + n / 0x40 % 0x40),
    UInt8.ofNat (0x80 + n % 0x40)]

/-- The bytes of a text. -/
def encode (text : String) : Bytes := (Utf16.encode text.toList).flatMap ofUnit

/-- Bytes from `0x80` to `0xBF` continue a sequence. -/
def isContinuation (b : UInt8) : Bool := b.toNat / 0x40 == 2

/-- The six bits that a continuation byte carries. -/
def payload (b : UInt8) : Nat := b.toNat % 0x40

/-- The units in `bytes`, the first of which stands at `index`. -/
def unitsFrom : Nat → Bytes → Except Malformation (List UInt16)
  | _, [] => .ok []
  | index, a :: rest =>
    if 0x01 ≤ a.toNat ∧ a.toNat ≤ 0x7F then
      (UInt16.ofNat a.toNat :: ·) <$> unitsFrom (index + 1) rest
    else if 0xC0 ≤ a.toNat ∧ a.toNat ≤ 0xDF then
      match rest with
      | b :: rest =>
        if isContinuation b then
          (UInt16.ofNat (a.toNat % 0x20 * 0x40 + payload b) :: ·) <$> unitsFrom (index + 2) rest
        else .error (.cutUtf8Sequence (index + 1))
      | [] => .error (.cutUtf8Sequence (index + 1))
    else if 0xE0 ≤ a.toNat ∧ a.toNat ≤ 0xEF then
      match rest with
      | b :: rest =>
        if isContinuation b then
          match rest with
          | c :: rest =>
            if isContinuation c then
              (UInt16.ofNat (a.toNat % 0x10 * 0x1000 + payload b * 0x40 + payload c) :: ·) <$>
                unitsFrom (index + 3) rest
            else .error (.cutUtf8Sequence (index + 2))
          | [] => .error (.cutUtf8Sequence (index + 2))
        else .error (.cutUtf8Sequence (index + 1))
      | [] => .error (.cutUtf8Sequence (index + 1))
    else .error (.badUtf8Byte a index)

/-- Whether every byte is a character of its own. -/
def isPlain (bytes : Bytes) : Bool := bytes.all fun b => 0x01 ≤ b.toNat && b.toNat ≤ 0x7F

/-- The text of bytes each of which is a character of its own. -/
def decodePlain (bytes : Bytes) : String := String.ofList (bytes.map fun b => Char.ofNat b.toNat)

/-- The text of bytes that may hold longer sequences. -/
def decodeSequences (bytes : Bytes) : Except Malformation String := do
  return String.ofList (Utf16.decode (← unitsFrom 0 bytes))

/-- The text that `bytes` encode. -/
def decode (bytes : Bytes) : Except Fault String :=
  if isPlain bytes then .ok (decodePlain bytes)
  else (decodeSequences bytes).mapError .malformed

end ModifiedUtf8

end ClassGraft
