/-
UTF-8 in both directions. Decoding never fails: each maximal run of bytes that
starts a character but does not finish one, and each byte that starts none,
becomes one replacement character U+FFFD.

The decoder is a machine fed one byte at a time; what it has seen of an
unfinished character is its whole state.
-/
namespace LineCensus.Text

/-- The character that may stand at the beginning of a text to show its byte order. -/
def byteOrderMark : Char := Char.ofNat 0xFEFF

/-- The bytes of a text. -/
def encode (cs : List Char) : List UInt8 := cs.flatMap String.utf8EncodeChar

/-- The number of bytes of a text. -/
def byteLength (cs : List Char) : Nat := cs.foldl (fun n c => n + c.utf8Size) 0

/-- A character of which the first bytes have been read: how many are still to
come, the bits read so far, and the range in which the next byte must lie. -/
structure Unfinished where
  missing : Nat
  bits : Nat
  low : UInt8
  high : UInt8

/-- What a first byte starts: a character of one byte, an unfinished one, or nothing. -/
inductive Lead where
  | whole (c : Char)
  | part (u : Unfinished)
  | none

/-- The ranges for the second byte shut out overlong forms, surrogates and
numbers above U+10FFFF. -/
def Lead.ofByte (b : UInt8) : Lead :=
  if b < 0x80 then .whole (Char.ofNat b.toNat)
  else if b < 0xC2 then .none
  else if b < 0xE0 then .part ⟨1, b.toNat - 0xC0, 0x80, 0xBF⟩
  else if b == 0xE0 then .part ⟨2, 0, 0xA0, 0xBF⟩
  else if b == 0xED then .part ⟨2, 13, 0x80, 0x9F⟩
  else if b < 0xF0 then .part ⟨2, b.toNat - 0xE0, 0x80, 0xBF⟩
  else if b == 0xF0 then .part ⟨3, 0, 0x90, 0xBF⟩
  else if b < 0xF4 then .part ⟨3, b.toNat - 0xF0, 0x80, 0xBF⟩
  else if b == 0xF4 then .part ⟨3, 4, 0x80, 0x8F⟩
  else .none

/-- The character that stands for bytes that form none. -/
def replacement : Char := Char.ofNat 0xFFFD

/-- The decoder: the characters found so far, the last one first, and the
unfinished character. -/
structure Decoder where
  found : List Char := []
  unfinished : Option Unfinished := none

/-- Read a byte where a character may start. -/
def Decoder.start (found : List Char) (b : UInt8) : Decoder :=
  match Lead.ofByte b with
  | .whole c => ⟨c :: found, none⟩
  | .part u => ⟨found, some u⟩
  | .none => ⟨replacement :: found, none⟩

/-- Read one byte. A byte that cannot continue the unfinished character ends it
and is read again as a first byte. -/
def Decoder.step (d : Decoder) (b : UInt8) : Decoder :=
  match d.unfinished with
  | none => .start d.found b
  | some u =>
    if u.low ≤ b && b ≤ u.high then
      let bits := u.bits * 64 + (b.toNat - 0x80)
      if u.missing ≤ 1 then ⟨Char.ofNat bits :: d.found, none⟩
      else ⟨d.found, some ⟨u.missing - 1, bits, 0x80, 0xBF⟩⟩
    else .start (replacement :: d.found) b

/-- The text read, when no byte follows. -/
def Decoder.finish (d : Decoder) : List Char :=
  match d.unfinished with
  | none => d.found.reverse
  | some _ => (replacement :: d.found).reverse

/-- The text of any bytes, with U+FFFD where they are not UTF-8. -/
def decodeLossy (bytes : List UInt8) : List Char := (bytes.foldl Decoder.step {}).finish

/-- The text of bytes that are UTF-8. A byte outside every character is replaced
by `decodeLossy`, and then encoding does not give the bytes back. -/
def decode? (bytes : List UInt8) : Option (List Char) :=
  let cs := decodeLossy bytes
  if encode cs = bytes then some cs else none

end LineCensus.Text
