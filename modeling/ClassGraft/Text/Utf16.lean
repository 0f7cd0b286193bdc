/-
Text as 16-bit units.

A character outside the basic plane takes two units, a leading and a trailing surrogate.  Any
list of units decodes: a surrogate without its partner stands for the replacement character, so
`Utf16.decode` is total and undoes `Utf16.encode`.
-/

namespace ClassGraft

namespace Utf16

/-- Units from `0xD800` to `0xDBFF` open a pair. -/
def isLeading (u : UInt16) : Bool := 0xD800 ≤ u && u < 0xDC00

/-- Units from `0xDC00` to `0xDFFF` close a pair. -/
def isTrailing (u : UInt16) : Bool := 0xDC00 ≤ u && u < 0xE000

/-- What an unpaired surrogate stands for. -/
def replacement : Char := Char.ofNat 0xFFFD

/-- The units of one character. -/
def ofChar (c : Char) : List UInt16 :=
  let n := c.toNat
  if n < 0x10000 then [UInt16.ofNat n]
  else
    [UInt16.ofNat (0xD800 + (n - 0x10000) / 0x400), UInt16.ofNat (0xDC00 + (n - 0x10000) % 0x400)]

/-- The units of a text. -/
def encode (text : List Char) : List UInt16 := text.flatMap ofChar

/-- The character that a pair of surrogates stands for. -/
def ofPair (lead trail : UInt16) : Char :=
  Char.ofNat (0x10000 + (lead.toNat - 0xD800) * 0x400 + (trail.toNat - 0xDC00))

/-- The text that units stand for. -/
def decode : List UInt16 → List Char
  | [] => []
  | u :: rest =>
    if isLeading u then
      match rest with
      | [] => [replacement]
      | v :: rest' =>
        if isTrailing v then ofPair u v :: decode rest' else replacement :: decode (v :: rest')
    else if isTrailing u then replacement :: decode rest
    else Char.ofNat u.toNat :: decode rest

end Utf16

end ClassGraft
