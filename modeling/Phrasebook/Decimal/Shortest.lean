/-!
# Shortest Decimals

The decimal with the fewest digits among those that a binary floating-point
number is nearest to, and of several such decimals the one nearest to the
number.

A finite number of the binary format is `significand · 2 ^ exponent`. The reals
that round to it form an interval around it, whose ends count when the
significand is even. The search goes through the grids of multiples of `10 ^ k`
from coarse to fine and stops at the first that meets the interval: a coarser
grid means fewer digits. On each grid only the two neighbours of the number have
to be looked at. All arithmetic is exact, on natural numbers over one
denominator.

## Main definitions

* `Interval`: A number with the reals that round to it.
* `Interval.ofBits`: The interval of a finite number of the binary format.
* `Interval.shortest`: The shortest decimal inside an interval.
* `layOut`: The text of a decimal.
-/

namespace Phrasebook

namespace Decimal

/-- A positive number and the ends of an interval around it, all three over
    `denominator`. -/
structure Interval where
  low : Nat
  value : Nat
  high : Nat
  denominator : Nat
  /-- Whether the ends belong to the interval. -/
  closed : Bool

/-- The interval of the double-precision number with these bits, the sign left
    aside. The gap below a power of two is half the gap above it. -/
def Interval.ofBits (bits : UInt64) : Interval :=
  let fraction := bits.toNat % (1 <<< 52)
  let biased := (bits.toNat >>> 52) % (1 <<< 11)
  let significand := if biased = 0 then fraction else (1 <<< 52) + fraction
  let shift := max biased 1
  let down := if fraction = 0 ∧ 1 < biased then 1 else 2
  -- Four units of the last place fit into the scale, so that its halves and quarters are whole.
  let scale := 1 <<< (shift - 1075)
  ⟨(4 * significand - down) * scale, 4 * significand * scale, (4 * significand + 2) * scale,
    4 <<< (1075 - shift), significand % 2 = 0⟩

namespace Interval

/-- Whether `digits · 10 ^ grid` lies in the interval. -/
def holds (i : Interval) (digits : Nat) (grid : Int) : Bool :=
  let point := digits * Nat.pow 10 grid.toNat * i.denominator
  let unit := Nat.pow 10 (-grid).toNat
  if i.closed then i.low * unit ≤ point && point ≤ i.high * unit
  else i.low * unit < point && point < i.high * unit

/-- The greatest number of steps of `10 ^ grid` up to the value. -/
def stepsBelow (i : Interval) (grid : Int) : Nat :=
  i.value * Nat.pow 10 (-grid).toNat / (Nat.pow 10 grid.toNat * i.denominator)

/-- Whether the value lies in the upper half between `digits` steps of
    `10 ^ grid` and the next, or half-way with `digits` odd. -/
def nearerAbove (i : Interval) (digits : Nat) (grid : Int) : Bool :=
  let twice := 2 * i.value * Nat.pow 10 (-grid).toNat
  let middle := (2 * digits + 1) * Nat.pow 10 grid.toNat * i.denominator
  middle < twice || (middle == twice && digits % 2 == 1)

/-- The first hit on the grids from `grid` downwards. -/
def search (i : Interval) : (rounds : Nat) → (grid : Int) → Nat × Int
  | 0, grid => (i.stepsBelow grid, grid)
  | rounds + 1, grid =>
    let below := i.stepsBelow grid
    match i.holds below grid, i.holds (below + 1) grid with
    | true, true => (if i.nearerAbove below grid then below + 1 else below, grid)
    | true, false => (below, grid)
    | false, true => (below + 1, grid)
    | false, false => i.search rounds (grid - 1)

/-- The shortest decimal of the interval, as digits and a power of ten. No
    double-precision number needs a grid outside `10 ^ 330` to `10 ^ -370`. -/
def shortest (i : Interval) : Nat × Int := i.search 700 330

end Interval

/-- How decimals are written: positionally for a decimal point from behind
    `leastPoint` to `greatestPoint` digits to the right of the front, otherwise
    with an exponent, whose sign is always shown. -/
structure Layout where
  leastPoint : Int
  greatestPoint : Int

/-- The text of `digits · 10 ^ grid`. A positional text has a digit on either
    side of the point. -/
def layOut (layout : Layout) (digits : Nat) (grid : Int) : String :=
  let ds := Nat.toDigits 10 digits
  let point : Int := ds.length + grid
  if 0 ≤ grid ∧ point ≤ layout.greatestPoint then
    String.ofList (ds ++ List.replicate grid.toNat '0') ++ ".0"
  else if 0 < point ∧ point ≤ layout.greatestPoint then
    String.ofList (ds.take point.toNat) ++ "." ++ String.ofList (ds.drop point.toNat)
  else if layout.leastPoint < point ∧ point ≤ 0 then
    "0." ++ String.ofList (List.replicate (-point).toNat '0' ++ ds)
  else
    let sign := if 0 < point then "+" else "-"
    let exponent := sign ++ toString (point - 1).natAbs
    match ds with
    | [d] => String.ofList [d] ++ "e" ++ exponent
    | d :: more => String.ofList (d :: '.' :: more) ++ "e" ++ exponent
    | [] => ""

end Decimal

end Phrasebook
