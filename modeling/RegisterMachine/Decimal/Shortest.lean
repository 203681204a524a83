import RegisterMachine.Decimal.Binary

/-! # The shortest decimal text of a float

The text has the fewest digits that still read back as the same float; of two such decimals the
nearer one is taken, and of two equally near the larger. It is written without an exponent, and
without a point if the value is whole.

* `reads`: a decimal lies among the reals that round to the float.
* `shortest`: the coarsest power of ten with such a multiple, and the multiple.
* `text`: the text, with `NaN`, `inf` and the sign of zero. -/

namespace RegisterMachine.Decimal

/-- The float and the two ends of the interval that rounds to it, in quarters of the last bit. -/
structure Interval where
  low : Nat
  middle : Nat
  high : Nat
  closed : Bool
  exponent : Int
deriving Repr

namespace Interval

/-- The ends belong to the interval iff the mantissa is even. -/
def ofBinary (b : Binary) : Interval where
  low := 4 * b.mantissa - if b.closeBelow then 1 else 2
  middle := 4 * b.mantissa
  high := 4 * b.mantissa + 2
  closed := b.mantissa % 2 == 0
  exponent := b.exponent - 2

/-- The factor that makes `n * 10 ^ grid` comparable with `scaleBits`. -/
def scaleTens (i : Interval) (grid : Int) : Nat :=
  Nat.pow 10 grid.toNat * Nat.pow 2 (-i.exponent).toNat

/-- The factor that makes a number of quarters comparable with `scaleTens`. -/
def scaleBits (i : Interval) (grid : Int) : Nat :=
  Nat.pow 2 i.exponent.toNat * Nat.pow 10 (-grid).toNat

/-- `n * 10 ^ grid` lies in the interval. -/
def reads (i : Interval) (grid : Int) (n : Nat) : Bool :=
  let tens := n * i.scaleTens grid
  let low := i.low * i.scaleBits grid
  let high := i.high * i.scaleBits grid
  if i.closed then low ≤ tens && tens ≤ high else low < tens && tens < high

/-- The multiple of `10 ^ grid` in the interval that is nearest to its middle, if there is one.
Only the two multiples around the middle can be. -/
def onGrid? (i : Interval) (grid : Int) : Option Nat :=
  let tens := i.scaleTens grid
  let middle := i.middle * i.scaleBits grid
  let below := middle / tens
  match i.reads grid below, i.reads grid (below + 1) with
  | true, true => if 2 * (middle - below * tens) < tens then some below else some (below + 1)
  | true, false => some below
  | false, true => some (below + 1)
  | false, false => none

/-- The first of `count` grids, from `grid` downwards, with a multiple in the interval. -/
def firstGrid (i : Interval) : (count : Nat) → (grid : Int) → Nat × Int
  | 0, grid => (0, grid)
  | count + 1, grid =>
    match i.onGrid? grid with
    | some n => (n, grid)
    | none => firstGrid i count (grid - 1)

end Interval

/-- The coarsest grid of a 64-bit float. -/
def topGrid : Int := 309

/-- From `10 ^ 309` down to a tenth of the smallest float. -/
def gridCount : Nat := 640

/-- **The shortest decimal** `n * 10 ^ grid` of a positive float. -/
def shortest (b : Binary) : Nat × Int := (Interval.ofBinary b).firstGrid gridCount topGrid

/-- `n * 10 ^ grid` in positional notation. -/
def positional (n : Nat) (grid : Int) : String :=
  let digits := (toString n).toList
  let zeros (count : Nat) := List.replicate count '0'
  let places := (-grid).toNat
  let row :=
    if places = 0 then digits ++ zeros grid.toNat
    else if places < digits.length then
      digits.take (digits.length - places) ++ '.' :: digits.drop (digits.length - places)
    else '0' :: '.' :: zeros (places - digits.length) ++ digits
  String.ofList row

/-- **The text of a float.** -/
def text (x : Float) : String :=
  if x.isNaN then "NaN"
  else
    let sign := if signBit x then "-" else ""
    let size :=
      if x.isInf then "inf"
      else
        let b := Binary.ofFloat x
        if b.mantissa = 0 then "0"
        else
          let (n, grid) := shortest b
          positional n grid
    sign ++ size

end RegisterMachine.Decimal
