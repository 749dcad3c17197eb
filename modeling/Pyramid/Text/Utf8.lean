import Pyramid.Text.Basic

/-!
# UTF-8

Files hold bytes. `encode` writes a text as UTF-8 and `decode` reads it back, refusing what is not
well formed with the place and the kind of the first fault:

* a byte that starts no character,
* a character broken off by a byte that cannot continue it; the fault covers the bytes before it,
* a character broken off by the end of the file; the fault covers all that is left.

The byte after the first is restricted for four leading bytes (`E0`, `ED`, `F0`, `F4`), which rules
out overlong forms, surrogates and numbers above U+10FFFF. A byte order mark is an ordinary
character.
-/

namespace Pyramid.Utf8

/-- Why a byte sequence is not UTF-8. -/
inductive Reason where
  /-- The byte starts no character. -/
  | start
  /-- A continuation byte was due and another one came. -/
  | continuation
  /-- The file ends inside a character. -/
  | ending
deriving DecidableEq, Repr

/-- The first fault of a byte sequence: which bytes, from which position on, and why. -/
structure Fault where
  position : Nat
  bytes : List UInt8
  reason : Reason
deriving DecidableEq, Repr

/-- The wording of a reason. -/
def Reason.text : Reason → Text
  | .start => "invalid start byte"
  | .continuation => "invalid continuation byte"
  | .ending => "unexpected end of data"

/-- The fault in words: a single byte is shown, several are given by their positions. -/
def Fault.message (f : Fault) : Text :=
  match f.bytes with
  | [b] => "'utf-8' codec can't decode byte 0x" ++ Text.ofNatHex 2 b.toNat ++ " in position "
      ++ Text.ofNat f.position ++ ": " ++ f.reason.text
  | bs => "'utf-8' codec can't decode bytes in position " ++ Text.ofNat f.position ++ "-"
      ++ Text.ofNat (f.position + bs.length - 1) ++ ": " ++ f.reason.text

/-- The bytes of a text. -/
def encode (t : Text) : List UInt8 := t.flatMap String.utf8EncodeChar

/-- What a leading byte announces: how many bytes follow it, the bits it carries itself, and the
range of the byte after it. -/
structure Lead where
  following : Nat
  bits : Nat
  low : UInt8
  high : UInt8

/-- The announcement of a leading byte, if it is one. -/
def lead? (b : UInt8) : Option Lead :=
  let n := b.toNat
  if n < 0x80 then some ⟨0, n, 0x80, 0xBF⟩
  else if n < 0xC2 then none
  else if n < 0xE0 then some ⟨1, n - 0xC0, 0x80, 0xBF⟩
  else if n = 0xE0 then some ⟨2, n - 0xE0, 0xA0, 0xBF⟩
  else if n = 0xED then some ⟨2, n - 0xE0, 0x80, 0x9F⟩
  else if n < 0xF0 then some ⟨2, n - 0xE0, 0x80, 0xBF⟩
  else if n = 0xF0 then some ⟨3, n - 0xF0, 0x90, 0xBF⟩
  else if n < 0xF4 then some ⟨3, n - 0xF0, 0x80, 0xBF⟩
  else if n = 0xF4 then some ⟨3, n - 0xF0, 0x80, 0x8F⟩
  else none

/-- Decoding from a position between two bytes. `owed` is the number of continuation bytes still
due, `bits` what the current character has gathered, `seen` its bytes so far (last one first). -/
def decodeFrom (position owed bits : Nat) (low high : UInt8) (seen : List UInt8) :
    List UInt8 → Except Fault Text
  | [] => if owed = 0 then .ok [] else .error ⟨position - seen.length, seen.reverse, .ending⟩
  | b :: bs =>
    if owed = 0 then
      match lead? b with
      | none => .error ⟨position, [b], .start⟩
      | some l =>
        if l.following = 0 then
          (Char.ofNat l.bits :: ·) <$> decodeFrom (position + 1) 0 0 0 0 [] bs
        else decodeFrom (position + 1) l.following l.bits l.low l.high [b] bs
    else if low ≤ b && b ≤ high then
      let bits := bits * 64 + (b.toNat - 0x80)
      if owed = 1 then (Char.ofNat bits :: ·) <$> decodeFrom (position + 1) 0 0 0 0 [] bs
      else decodeFrom (position + 1) (owed - 1) bits 0x80 0xBF (b :: seen) bs
    else .error ⟨position - seen.length, seen.reverse, .continuation⟩

/-- The text that a file's bytes spell. -/
def decode (bytes : List UInt8) : Except Fault Text := decodeFrom 0 0 0 0 0 [] bytes

end Pyramid.Utf8
