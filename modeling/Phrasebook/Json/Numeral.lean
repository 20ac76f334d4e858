import Phrasebook.Json.Fault

/-!
# Numerals of JSON

A number as it is written: a sign, the digits in front of the point, those behind
it, and an exponent. Reading is in two steps, first the form and then the value,
because a value that is only passed over may have any size.

The value of a numeral with a point, an exponent or more digits than fit into 64
bits is a floating-point number. Its digits are gathered into one integer of 64
bits as long as they fit, and the rest of them only moves the exponent. The
integer is then scaled by one power of ten that the format can hold, or by
several where the exponent is smaller still. So the result may differ from the
nearest floating-point number in its last place.

## Main definitions

* `Numeral`: A number as it is written.
* `Numeral.read`: The numeral at the front of a text.
* `Numeral.value`: The number that a numeral stands for.
-/

namespace Phrasebook

namespace Json

/-- The sign of an exponent and its digits. -/
structure Exponent where
  negative : Bool
  digits : List Nat

/-- A number as it is written. -/
structure Numeral where
  negative : Bool
  whole : List Nat
  /-- The digits behind the point, none if there is no point. -/
  fraction : List Nat
  exponent : Option Exponent

namespace Numeral

/-- The value of a decimal digit. -/
def digit? (c : Char) : Option Nat :=
  if '0' ≤ c ∧ c ≤ '9' then some (c.toNat - '0'.toNat) else none

/-- The digits at the front of a text. -/
def readDigits : List Char → List Nat × List Char
  | [] => ([], [])
  | c :: cs =>
    match digit? c with
    | some d => (d :: (readDigits cs).1, (readDigits cs).2)
    | none => ([], c :: cs)

/-- At least one digit; another character in its place is consumed. -/
def readSomeDigits : Reader (List Nat)
  | [] => .error (.here .endInValue [])
  | c :: cs =>
    match digit? c with
    | some d => .ok (d :: (readDigits cs).1, (readDigits cs).2)
    | none => .error (.atNext .malformedNumber (c :: cs))

/-- The digits in front of the point. A leading zero stands alone. -/
def readWhole (s : List Char) : Except Fault (List Nat × List Char) := do
  let (digits, rest) ← readSomeDigits s
  match digits with
  | 0 :: _ :: _ => .error (.atNext .malformedNumber (s.drop 1))
  | _ => .ok (digits, rest)

/-- The point and the digits behind it, if there is a point. -/
def readFraction : Reader (List Nat)
  | [] => .ok ([], [])
  | c :: cs => if c = '.' then readSomeDigits cs else .ok ([], c :: cs)

/-- The sign at the front of a text. Only an exponent may have a plus. -/
def readSign : List Char → Bool × List Char
  | [] => (false, [])
  | c :: cs => if c = '-' then (true, cs) else if c = '+' then (false, cs) else (false, c :: cs)

/-- The exponent, if there is one. -/
def readExponent : Reader (Option Exponent)
  | [] => .ok (none, [])
  | c :: cs =>
    if c = 'e' ∨ c = 'E' then do
      let (negative, cs) := readSign cs
      let (digits, rest) ← readSomeDigits cs
      return (some ⟨negative, digits⟩, rest)
    else .ok (none, c :: cs)

/-- The numeral at the front of a text, behind its sign. -/
def readUnsigned (negative : Bool) : Reader Numeral := fun s => do
  let (whole, s) ← readWhole s
  let (fraction, s) ← readFraction s
  let (exponent, s) ← readExponent s
  return (⟨negative, whole, fraction, exponent⟩, s)

/-- The numeral at the front of a text. -/
def read : Reader Numeral
  | [] => readUnsigned false []
  | c :: cs => if c = '-' then readUnsigned true cs else readUnsigned false (c :: cs)

/-- Append digits to a number as long as it fits into 64 bits; the digits that
    are left over. -/
def gather (n : Nat) : List Nat → Nat × List Nat
  | [] => (n, [])
  | d :: ds => if n * 10 + d < 1 <<< 64 then gather (n * 10 + d) ds else (n, d :: ds)

/-- The greatest exponent that is looked at. -/
def exponentLimit : Nat := (1 <<< 31) - 1

/-- The digits of an exponent behind the first that takes it over the limit. -/
def digitsBeyondLimit (n : Nat) : List Nat → Option (List Nat)
  | [] => none
  | d :: ds => if exponentLimit < n * 10 + d then some ds else digitsBeyondLimit (n * 10 + d) ds

/-- The floating-point number for `10 ^ n`. -/
def powerOfTen (n : Nat) : Float := Float.ofScientific 1 false n

/-- The product `x · 10 ^ exponent`, if it is finite. -/
def scale (x : Float) (exponent : Int) : Option Float :=
  if exponent.natAbs ≤ 308 then
    let scaled :=
      if 0 ≤ exponent then x * powerOfTen exponent.natAbs else x / powerOfTen exponent.natAbs
    if scaled.isInf then none else some scaled
  else if x == 0 then some x
  else if 0 ≤ exponent then none
  else scale (x / powerOfTen 308) (exponent + 308)
termination_by exponent.natAbs
decreasing_by omega

/-- The value of digits in base ten. -/
def ofDigits (digits : List Nat) : Nat := digits.foldl (fun n d => n * 10 + d) 0

/-- The number that a numeral stands for. Otherwise the number is too large, and
    the answer is how many of its characters are not looked at any more: an
    exponent beyond the limit is refused at once. -/
def value (n : Numeral) : Except Nat Number :=
  let (front, overflow) := gather 0 n.whole
  let isInteger := n.fraction.isEmpty && n.exponent.isNone && overflow.isEmpty
  if isInteger && !n.negative then .ok (.integer front)
  else if isInteger && 0 < front && front ≤ 1 <<< 63 then .ok (.integer (-front))
  else
    let (significand, unused) := gather front n.fraction
    let moved : Int := (overflow.length : Int) - ((n.fraction.length - unused.length : Nat) : Int)
    let signed (x : Float) : Number := .real (if n.negative then -x else x)
    let scaled (exponent : Int) : Except Nat Number :=
      match scale (UInt64.ofNat significand).toFloat exponent with
      | some x => .ok (signed x)
      | none => .error 0
    match n.exponent with
    | none => scaled moved
    | some e =>
      match digitsBeyondLimit 0 e.digits with
      | some behind => if significand = 0 ∨ e.negative then .ok (signed 0) else .error behind.length
      | none => scaled (if e.negative then moved - ofDigits e.digits else moved + ofDigits e.digits)

/-- The number at the front of a text. -/
def readValue : Reader Number := fun s => do
  let (numeral, rest) ← read s
  match numeral.value with
  | .ok number => .ok (number, rest)
  | .error unread =>
    .error (.here .numberTooLarge (s.drop (s.length - rest.length - unread)))

end Numeral

end Json

end Phrasebook
