import Phrasebook.Json.Lexical

/-!
# Strings of JSON

A string as it is written between quotes, and the text that it stands for.
Writing escapes only what has to be: quotes, backslashes and the controls below
the space. Reading takes every escape of JSON, and puts a character beyond the
first plane together from its two surrogates.

## Main definitions

* `Quoted.write`: A text between quotes.
* `Quoted.read`: The text up to the closing quote.
* `Quoted.skip`: The same without looking at what the escapes stand for.
-/

namespace Phrasebook

namespace Json

/-- The value of a hexadecimal digit. -/
def hexDigit? (c : Char) : Option Nat :=
  if '0' ≤ c ∧ c ≤ '9' then some (c.toNat - '0'.toNat)
  else if 'a' ≤ c ∧ c ≤ 'f' then some (c.toNat - 'a'.toNat + 10)
  else if 'A' ≤ c ∧ c ≤ 'F' then some (c.toNat - 'A'.toNat + 10)
  else none

/-- The value of four hexadecimal digits. -/
def hexValue? (a b c d : Char) : Option Nat := do
  let a ← hexDigit? a
  let b ← hexDigit? b
  let c ← hexDigit? c
  let d ← hexDigit? d
  return ((a * 16 + b) * 16 + c) * 16 + d

namespace Quoted

/-- The number of bytes of a text. -/
def byteCount (s : List Char) : Nat := s.foldl (fun count c => count + c.utf8Size) 0

/-- The failure of a numeric escape whose digits should stand in front of `s`:
    four bytes are taken for the digits, or all of a shorter text. -/
def hexFault (s : List Char) : Fault :=
  if byteCount s < 4 then .here .endInString [] else ⟨.unknownEscape, s, 4⟩

/-- The character of an escape of one letter. -/
def letterEscape? (c : Char) : Option Char :=
  if c = '"' then some '"'
  else if c = '\\' then some '\\'
  else if c = '/' then some '/'
  else if c = 'b' then some '\x08'
  else if c = 'f' then some '\x0c'
  else if c = 'n' then some '\n'
  else if c = 'r' then some '\r'
  else if c = 't' then some '\t'
  else none

/-- Whether a 16-bit unit is the first half of a pair. -/
def isHighSurrogate (unit : Nat) : Bool := 0xD800 ≤ unit && unit ≤ 0xDBFF

/-- Whether a 16-bit unit is the second half of a pair. -/
def isLowSurrogate (unit : Nat) : Bool := 0xDC00 ≤ unit && unit ≤ 0xDFFF

/-- The character of a pair of surrogates. -/
def joinSurrogates (high low : Nat) : Char :=
  Char.ofNat (0x10000 + (high - 0xD800) * 0x400 + (low - 0xDC00))

/-- The 16-bit unit of the four digits at the front of `s`. -/
def unit (s : List Char) : Except Fault Nat :=
  match s with
  | a :: b :: c :: d :: _ =>
    match hexValue? a b c d with
    | some value => .ok value
    | none => .error (hexFault s)
  | _ => .error (hexFault s)

/-- Whether `s` goes on with the mark of a numeric escape. -/
def expectMark : (mark s : List Char) → Except Fault Unit
  | [], _ => .ok ()
  | _ :: _, [] => .error (.here .endInString [])
  | m :: ms, c :: cs =>
    if c = m then expectMark ms cs else .error (.atNext .brokenSurrogatePair (c :: cs))

/-- The character of the numeric escape whose digits stand at the front of `s`,
    and the number of characters that spell it. -/
def numericEscape (s : List Char) : Except Fault (Char × Nat) := do
  let first ← unit s
  let rest := s.drop 4
  if isLowSurrogate first then .error (.here .unpairedSurrogate rest)
  else if isHighSurrogate first then
    expectMark ['\\', 'u'] rest
    let second ← unit (rest.drop 2)
    if isLowSurrogate second then .ok (joinSurrogates first second, 10)
    else .error (.here .unpairedSurrogate (rest.drop 6))
  else .ok (Char.ofNat first, 4)

/-- The character of the escape whose backslash stands in front of `s`, and the
    number of characters that spell it behind the backslash. -/
def escape : List Char → Except Fault (Char × Nat)
  | [] => .error (.here .endInString [])
  | letter :: rest =>
    match letterEscape? letter with
    | some meant => .ok (meant, 1)
    | none =>
      if letter = 'u' then (numericEscape rest).map (fun (meant, width) => (meant, width + 1))
      else .error (.atNext .unknownEscape (letter :: rest))

/-- The number of characters that spell an escape behind its backslash, whatever
    it stands for. -/
def escapeWidth : List Char → Except Fault Nat
  | [] => .error (.here .endInString [])
  | letter :: rest =>
    if (letterEscape? letter).isSome then .ok 1
    else if letter = 'u' then (unit rest).map (fun _ => 5)
    else .error (.atNext .unknownEscape (letter :: rest))

/-- Read up to the closing quote, after passing over `pending` characters of an
    escape. -/
def readFrom : (pending : Nat) → List Char → Except Fault (List Char × List Char)
  | _, [] => .error (.here .endInString [])
  | pending + 1, _ :: rest => readFrom pending rest
  | 0, c :: rest =>
    if c = '"' then .ok ([], rest)
    else if c = '\\' then do
      let (meant, width) ← escape rest
      let (text, rest) ← readFrom width rest
      return (meant :: text, rest)
    else if c < ' ' then .error (.atNext .controlInString (c :: rest))
    else do
      let (text, rest) ← readFrom 0 rest
      return (c :: text, rest)

/-- Read up to the closing quote. The answer is the text that the string stands
    for, and what follows the quote. -/
def read (s : List Char) : Except Fault (List Char × List Char) := readFrom 0 s

/-- Pass over a string up to behind its closing quote, after passing over
    `pending` characters of an escape. -/
def skipFrom : (pending : Nat) → List Char → Except Fault (List Char)
  | _, [] => .error (.here .endInString [])
  | pending + 1, _ :: rest => skipFrom pending rest
  | 0, c :: rest =>
    if c = '"' then .ok rest
    else if c = '\\' then do
      let width ← escapeWidth rest
      skipFrom width rest
    else if c < ' ' then .error (.here .controlInString (c :: rest))
    else skipFrom 0 rest

/-- Pass over a string up to behind its closing quote. Numeric escapes need four
    digits, but surrogates need no partner. -/
def skip (s : List Char) : Except Fault (List Char) := skipFrom 0 s

/-- The hexadecimal digit of a number below sixteen. -/
def hexDigit (n : Nat) : Char :=
  if n < 10 then Char.ofNat ('0'.toNat + n) else Char.ofNat ('a'.toNat + (n - 10))

/-- A character as it is written in a string. -/
def writeChar (c : Char) : List Char :=
  if c = '"' then ['\\', '"']
  else if c = '\\' then ['\\', '\\']
  else if c = '\x08' then ['\\', 'b']
  else if c = '\t' then ['\\', 't']
  else if c = '\n' then ['\\', 'n']
  else if c = '\x0c' then ['\\', 'f']
  else if c = '\r' then ['\\', 'r']
  else if c < ' ' then ['\\', 'u', '0', '0', hexDigit (c.toNat / 16), hexDigit (c.toNat % 16)]
  else [c]

/-- A text as it is written, between quotes. -/
def write (s : List Char) : List Char := '"' :: s.flatMap writeChar ++ ['"']

end Quoted

end Json

end Phrasebook
