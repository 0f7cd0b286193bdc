/-
Columns of a terminal.

`Text.columns` is the number of columns that a line takes on a terminal: most characters take
one, some none and some two (`alone`).  Characters also join those behind them: letters form
ligatures, a variation selector makes a picture of a letter, and pictures are put together with
a joiner.  So a line is measured from its end; `Behind` is what has to be known of the characters
behind the one that is measured, and `Behind.step` measures one character.
-/
import ClassGraft.Text.Columns.Marks

namespace ClassGraft.Text

namespace Columns

/-- Arabic letters with the shape of alef. -/
def alefs : Ranges :=
  [(0x622, 0x623), (0x625, 0x625), (0x627, 0x627), (0x671, 0x673), (0x675, 0x675),
    (0x773, 0x774), (0x870, 0x882)]

/-- Arabic letters with the shape of lam. -/
def lams : Ranges :=
  [(0x644, 0x644), (0x6B5, 0x6B8), (0x76A, 0x76A), (0x8A6, 0x8A6), (0x8C7, 0x8C7)]

/-- Tifinagh consonants. -/
def tifinagh : Ranges := [(0x2D31, 0x2D65), (0x2D6F, 0x2D6F)]

/-- Khmer letters that have a form below another letter. -/
def khmer : Ranges :=
  [(0x1780, 0x1782), (0x1784, 0x1787), (0x1789, 0x178C), (0x178E, 0x1793), (0x1795, 0x1798),
    (0x179B, 0x179D), (0x17A0, 0x17A0), (0x17A2, 0x17A2), (0x17A7, 0x17A7), (0x17AB, 0x17AC),
    (0x17AF, 0x17AF)]

/-- What stands behind a character, as far as the character may join it.  `joined` says that a
joiner stands between the two. -/
inductive Neighbour where
  /-- Nothing that is joined. -/
  | plain
  | alef
  | lamed (joined : Bool)
  | ya (joined : Bool)
  /-- A vowel sign that is joined to ya. -/
  | vowelYa
  | tifinagh (joined : Bool)
  /-- The Tifinagh joiner, with a consonant behind it. -/
  | tifinaghJoiner
  | lisu
  | orkhon (joined : Bool)
  | khmer
  | kiratE
  | kiratAi
  | picture
  /-- A colour of skin. -/
  | tint
  /-- A joiner with a picture behind it. -/
  | joinedPicture
  /-- The frame of a key, joined to a picture. -/
  | joinedKey
  /-- The letter of a flag. -/
  | flag
  /-- Several letters of flags. -/
  | flags
  /-- The letter of a flag, joined to a picture. -/
  | joinedFlag
  /-- Letters of flags in pairs, joined to a picture. -/
  | evenFlags
  /-- Letters of flags in pairs and one more, joined to a picture. -/
  | oddFlags
  /-- The end of the name of a flag with letters of it, joined to a picture. -/
  | nameLetters (count : Nat)
  /-- The end of the name of a flag with digits of it, joined to a picture. -/
  | nameDigits (count : Nat)
  deriving DecidableEq, Repr

namespace Neighbour

/-- Whether this is part of a ligature of letters, which a variation selector does not break. -/
def isLetter : Neighbour → Bool
  | .alef | .lamed _ | .ya _ | .vowelYa | .tifinagh _ | .tifinaghJoiner | .lisu | .orkhon _
  | .khmer => true
  | _ => false

/-- Whether pictures are joined in front of this. -/
def isJoinedPicture : Neighbour → Bool
  | .joinedPicture | .joinedKey => true
  | _ => false

/-- What this is behind a joiner. -/
def join : Neighbour → Neighbour
  | .lamed _ => .lamed true
  | .ya _ => .ya true
  | .tifinagh _ => .tifinagh true
  | .orkhon _ => .orkhon true
  | neighbour => neighbour

end Neighbour

/-- The columns of a character that joins nothing, and what it is to the character in front. -/
def alone (code : Nat) : Int × Neighbour :=
  if isFlagLetter code then (1, .flag)
  else if isTint code then (2, .tint)
  else if alefs.has code then (1, .alef)
  else if code = 0x5DC then (1, .lamed false)
  else if code = 0x1A10 then (1, .ya false)
  else if tifinagh.has code then (1, .tifinagh false)
  else if code = 0xA4FC ∨ code = 0xA4FD then (1, .lisu)
  else if code = 0x10C03 then (1, .orkhon false)
  else if khmer.has code then (1, .khmer)
  else if code = 0x16D67 then (1, .kiratE)
  else if code = 0x16D68 then (1, .kiratAi)
  else if code = 0x17D8 then (3, .plain)
  else if pictures.has code then (2, .picture)
  else if isInvisible code then (0, .plain)
  else if wide.has code then (2, .plain)
  else (1, .plain)

/-- The columns that a character adds to letters that it joins, and what it is then to the
character in front. -/
def joinLetter? (code : Nat) : Neighbour → Option (Int × Neighbour)
  | .alef =>
    if lams.has code then some (0, .plain)
    else if isInvisible code && !separating.has code then some (0, .alef)
    else none
  | .lamed true => if code = 0x5D0 then some (0, .plain) else none
  | .khmer => if code = 0x17D2 then some (-1, .plain) else none
  | .ya true => if code = 0x1A17 then some (0, .vowelYa) else none
  | .vowelYa => if code = 0x1A15 then some (0, .plain) else none
  | .tifinagh joined =>
    if code = tifinaghJoiner then some (1, .tifinaghJoiner)
    else if joined && tifinagh.has code then some (0, .plain)
    else none
  | .tifinaghJoiner => if tifinagh.has code then some (-1, .plain) else none
  | .lisu => if 0xA4F8 ≤ code ∧ code ≤ 0xA4FB then some (0, .plain) else none
  | .orkhon true => if code = 0x10C32 then some (0, .plain) else none
  | .kiratE =>
    if code = 0x16D63 then some (0, .plain)
    else if code = 0x16D67 then some (0, .kiratAi)
    else if code = 0x16D68 then some (1, .kiratE)
    else if code = 0x16D69 then some (0, .plain)
    else none
  | .kiratAi => if code = 0x16D63 then some (0, .plain) else none
  | _ => none

/-- The letter, the digit or the picture that opens the name of a flag, in front of a part of the
name. -/
def joinName? (code letters digits : Nat) : Option (Int × Neighbour) :=
  if 0xE0061 ≤ code ∧ code ≤ 0xE007A ∧ letters < 6 ∧ digits = 0 then
    some (0, .nameLetters (letters + 1))
  else if 0xE0030 ≤ code ∧ code ≤ 0xE0039 ∧ letters ≤ 4 ∧ digits < 3 then
    some (0, .nameDigits (digits + 1))
  else if code = 0x1F3F4 ∧ (3 ≤ letters ∨ digits = 3) then some (0, .picture)
  else none

/-- The columns that a character adds to a picture that it joins, and what it is then to the
character in front. -/
def joinPicture? (code : Nat) : Neighbour → Option (Int × Neighbour)
  | .tint =>
    if tinted.has code then some (0, .picture)
    else if code = joiner then some (0, .joinedPicture)
    else none
  | .picture => if code = joiner then some (0, .joinedPicture) else none
  | .flag => if isFlagLetter code then some (1, .flags) else none
  | .flags =>
    if isFlagLetter code then some (1, .flags)
    else if code = joiner then some (0, .joinedPicture)
    else none
  | .joinedFlag => if isFlagLetter code then some (-1, .evenFlags) else none
  | .evenFlags =>
    if isFlagLetter code then some (3, .oddFlags)
    else if code = joiner then some (0, .joinedPicture)
    else none
  | .oddFlags =>
    if isFlagLetter code then some (-1, .evenFlags)
    else if code = joiner then some (0, .joinedPicture)
    else none
  | .joinedPicture =>
    if code = 0x20E3 then some (0, .joinedKey)
    else if isFlagLetter code then some (1, .joinedFlag)
    else if isTint code then some (0, .tint)
    else if code = 0xE007F then some (0, .nameLetters 0)
    else if pictures.has code then some (0, .picture)
    else none
  | .nameLetters letters => joinName? code letters 0
  | .nameDigits digits => joinName? code 0 digits
  | _ => none

/-- Quotation marks that a variation selector makes wide. -/
def quotes : Ranges := [(0x2018, 0x2019), (0x201C, 0x201D)]

/-- What a variation selector asks for. -/
inductive Presentation where
  | picture
  | text
  /-- A quotation mark that is as wide as the characters of East Asian scripts. -/
  | wide
  deriving DecidableEq, Repr

/-- What stands behind a character: a variation selector, perhaps, and a neighbour. -/
structure Behind where
  neighbour : Neighbour := .plain
  selector : Option Presentation := none
  deriving DecidableEq, Repr

namespace Behind

/-- What is joined across a variation selector that selects nothing. -/
def settled (behind : Behind) : Neighbour :=
  if behind.selector.isSome && !behind.neighbour.isLetter then .plain else behind.neighbour

/-- The columns of a variation selector: none. -/
def select (neighbour : Neighbour) (presentation : Presentation) : Behind :=
  let kept := neighbour.isLetter || presentation == .picture && neighbour.isJoinedPicture
  ⟨if kept then neighbour else .plain, some presentation⟩

/-- Whether a code point is a picture that a variation selector makes a letter of one column. -/
def isTextual (code : Nat) : Bool :=
  selectable.has code && pictures.has code && !(0x1F200 ≤ code && code ≤ 0x1F2FF)

/-- The columns that a character adds to what stands behind it, and what stands behind the next
one. -/
def step (behind : Behind) (code : Nat) : Int × Behind :=
  let neighbour := behind.settled
  if behind.selector = some .picture ∧ selectable.has code then
    (if behind.neighbour.isJoinedPicture then 0 else 2, { neighbour := .picture })
  else if code ≤ 0xA0 then (1, {})
  else if code = 0xFE0F then (0, select neighbour .picture)
  else if code = 0xFE0E then (0, select neighbour .text)
  else if code = 0xFE01 then (0, select neighbour .wide)
  else if behind.selector = some .text ∧ isTextual code then (1, {})
  else if behind.selector = some .wide ∧ quotes.has code then (2, {})
  else if neighbour.isLetter ∧ neighbour ≠ .alef ∧ code = joiner then
    (0, { neighbour := neighbour.join })
  else if neighbour.isLetter ∧ neighbour ≠ .alef ∧ transparent.has code then (0, { neighbour })
  else
    let (width, next) := match joinLetter? code neighbour <|> joinPicture? code neighbour with
      | some joined => joined
      | none => alone code
    (width, { neighbour := next })

end Behind

/-- The columns of a line, and what stands at its start. -/
def measure : List Char → Int × Behind
  | [] => (0, {})
  | c :: rest =>
    let (width, behind) := measure rest
    let (added, next) := behind.step c.toNat
    (width + added, next)

end Columns

/-- The columns that a line takes on a terminal. -/
def columns (line : List Char) : Nat := (Columns.measure line).1.toNat

theorem columns_nil : columns [] = 0 := rfl

end ClassGraft.Text
