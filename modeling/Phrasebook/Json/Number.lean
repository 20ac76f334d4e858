import Phrasebook.Decimal.Shortest

/-!
# Numbers of a JSON Document

A number is an integer if it is written without point and exponent and fits
into 64 bits, and otherwise a floating-point number of double precision.

## Main definitions

* `Number`: The value of a number.
* `Number.text`: The value as text.
-/

namespace Phrasebook

namespace Json

/-- The value of a number. -/
inductive Number where
  | integer (value : Int)
  | real (value : Float)
  deriving Inhabited

/-- Numbers from `0.00001` up to `10 ^ 16` are written positionally. -/
def realLayout : Decimal.Layout := ⟨-5, 16⟩

namespace Number

/-- A finite floating-point number as text, in the fewest digits that read
    back. -/
def realText (value : Float) : String :=
  let bits := value.toBits
  let magnitude := bits % (1 <<< 63)
  let sign := if bits = magnitude then "" else "-"
  if magnitude = 0 then sign ++ "0.0"
  else
    let decimal := (Decimal.Interval.ofBits magnitude).shortest
    sign ++ Decimal.layOut realLayout decimal.1 decimal.2

/-- The text of a number. -/
def text : Number → String
  | integer value => toString value
  | real value => realText value

end Number

end Json

end Phrasebook
