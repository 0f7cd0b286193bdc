/-
Standard UTF-8, read strictly.

`Utf8.decode` accepts exactly the well-formed sequences: shortest forms, no surrogates, nothing
above `U+10FFFF`.  A fault names the place where the first ill-formed sequence begins and how
many of its bytes are known to be wrong together; a sequence that only the end of the text cuts
off is incomplete.
-/
import ClassGraft.Bytes.BigEndian
import ClassGraft.Fault

namespace ClassGraft

namespace Utf8

/-- Bytes from `0x80` to `0xBF` continue a sequence. -/
def isContinuation (b : UInt8) : Bool := b.toNat / 0x40 == 2

/-- How many bytes a sequence has that opens with `a`; none if `a` opens no sequence. -/
def width (a : UInt8) : Nat :=
  let n := a.toNat
  if n < 0x80 then 1
  else if 0xC2 ≤ n ∧ n ≤ 0xDF then 2
  else if 0xE0 ≤ n ∧ n ≤ 0xEF then 3
  else if 0xF0 ≤ n ∧ n ≤ 0xF4 then 4
  else 0

/-- Whether `b` may follow `a`: a continuation byte, less those that would make an overlong
form, a surrogate or a number above `U+10FFFF`. -/
def mayFollow (a b : UInt8) : Bool :=
  isContinuation b &&
    (if a == 0xE0 then 0xA0 ≤ b
    else if a == 0xED then b ≤ 0x9F
    else if a == 0xF0 then 0x90 ≤ b
    else if a == 0xF4 then b ≤ 0x8F
    else true)

/-- The number whose bits are those of the opening byte, cut to `top`, and of continuations. -/
def assemble (a : UInt8) (top : Nat) (tail : List UInt8) : Nat :=
  tail.foldl (fun n b => n * 0x40 + b.toNat % 0x40) (a.toNat % top)

/-- The characters in `bytes`, the first of which stands at `index`. -/
def charsFrom : Nat → Bytes → Except Utf8Fault (List Char)
  | _, [] => .ok []
  | index, a :: rest =>
    match width a with
    | 1 => (Char.ofNat a.toNat :: ·) <$> charsFrom (index + 1) rest
    | 2 =>
      match rest with
      | [] => .error (.incomplete index)
      | b :: rest =>
        if mayFollow a b then
          (Char.ofNat (assemble a 0x20 [b]) :: ·) <$> charsFrom (index + 2) rest
        else .error (.invalid 1 index)
    | 3 =>
      match rest with
      | [] => .error (.incomplete index)
      | [b] => .error (if mayFollow a b then .incomplete index else .invalid 1 index)
      | b :: c :: rest =>
        if ¬ mayFollow a b then .error (.invalid 1 index)
        else if ¬ isContinuation c then .error (.invalid 2 index)
        else (Char.ofNat (assemble a 0x10 [b, c]) :: ·) <$> charsFrom (index + 3) rest
    | 4 =>
      match rest with
      | [] => .error (.incomplete index)
      | [b] => .error (if mayFollow a b then .incomplete index else .invalid 1 index)
      | [b, c] =>
        .error (if ¬ mayFollow a b then .invalid 1 index
          else if ¬ isContinuation c then .invalid 2 index
          else .incomplete index)
      | b :: c :: d :: rest =>
        if ¬ mayFollow a b then .error (.invalid 1 index)
        else if ¬ isContinuation c then .error (.invalid 2 index)
        else if ¬ isContinuation d then .error (.invalid 3 index)
        else (Char.ofNat (assemble a 0x08 [b, c, d]) :: ·) <$> charsFrom (index + 4) rest
    | _ => .error (.invalid 1 index)

/-- The text that `bytes` encode. -/
def decode (bytes : Bytes) : Except Utf8Fault String := String.ofList <$> charsFrom 0 bytes

end Utf8

end ClassGraft
