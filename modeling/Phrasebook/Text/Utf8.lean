/-!
# Showing Bytes as Text

Bytes that need not be UTF-8, shown as text. Bytes are taken as long as they can
begin a character. Where the next one cannot go on, what was taken is shown as
one replacement character, and the byte is looked at afresh.

## Main definitions

* `Pending`: A character of which some bytes are missing.
* `stepByte`: The effect of one byte.
* `showBytes`: Bytes as text.
-/

namespace Phrasebook

namespace Text

/-- A character of which the last `missing` bytes are not known. -/
structure Pending where
  /-- The bits of the bytes so far. -/
  code : Nat
  missing : Nat
  /-- The least and the greatest byte that may come next. -/
  low : Nat
  high : Nat

/-- What stands for bytes that are no character. -/
def replacement : Char := '\uFFFD'

/-- The effect of a byte at the front of a character. -/
def leadByte (b : Nat) : List Char × Option Pending :=
  if b < 0x80 then ([Char.ofNat b], none)
  else if b < 0xC2 then ([replacement], none)
  else if b < 0xE0 then ([], some ⟨b - 0xC0, 1, 0x80, 0xBF⟩)
  else if b = 0xE0 then ([], some ⟨0, 2, 0xA0, 0xBF⟩)
  else if b = 0xED then ([], some ⟨0xD, 2, 0x80, 0x9F⟩)
  else if b < 0xF0 then ([], some ⟨b - 0xE0, 2, 0x80, 0xBF⟩)
  else if b = 0xF0 then ([], some ⟨0, 3, 0x90, 0xBF⟩)
  else if b < 0xF4 then ([], some ⟨b - 0xF0, 3, 0x80, 0xBF⟩)
  else if b = 0xF4 then ([], some ⟨4, 3, 0x80, 0x8F⟩)
  else ([replacement], none)

/-- The effect of one byte: the characters that are complete, and the one that is
    not. -/
def stepByte (pending : Option Pending) (b : Nat) : List Char × Option Pending :=
  match pending with
  | none => leadByte b
  | some p =>
    if p.low ≤ b ∧ b ≤ p.high then
      let code := p.code * 64 + (b - 0x80)
      if p.missing = 1 then ([Char.ofNat code], none)
      else ([], some ⟨code, p.missing - 1, 0x80, 0xBF⟩)
    else
      let (chars, next) := leadByte b
      (replacement :: chars, next)

/-- The characters of bytes behind an incomplete one. -/
def showFrom : Option Pending → List UInt8 → List Char
  | none, [] => []
  | some _, [] => [replacement]
  | pending, b :: bytes =>
    let (chars, next) := stepByte pending b.toNat
    chars ++ showFrom next bytes

/-- Bytes as text. -/
def showBytes (bytes : ByteArray) : String := String.ofList (showFrom none bytes.toList)

end Text

end Phrasebook
