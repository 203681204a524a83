import RegisterMachine.Decimal.Word

/-! # Decimals read as floats

The notation of numbers on the command line: an optional sign, then digits with an optional point
and at least one digit around it, then an optional power of ten; or the words for the values that
are not numbers. The float is the nearest one. -/

namespace RegisterMachine.Decimal

/-- Digits before the point, digits behind it, and what is left. -/
def splitPoint (text : List Char) : List Char × List Char × List Char :=
  let whole := text.takeWhile Char.isDigit
  match text.dropWhile Char.isDigit with
  | '.' :: rest => (whole, rest.takeWhile Char.isDigit, rest.dropWhile Char.isDigit)
  | rest => (whole, [], rest)

/-- A sign, and what is left. -/
def splitSign : List Char → Bool × List Char
  | '-' :: rest => (true, rest)
  | '+' :: rest => (false, rest)
  | rest => (false, rest)

/-- The power of ten at the end: nothing, or `e`, a sign and digits. -/
def exponent? : List Char → Option Int
  | [] => some 0
  | c :: rest =>
    if c = 'e' ∨ c = 'E' then
      let (negative, digits) := splitSign rest
      if digits.isEmpty || !digits.all Char.isDigit then none
      else some (if negative then -(value digits : Int) else value digits)
    else none

/-- `mantissa * 10 ^ exponent` as the nearest float. Beyond `±1000` orders of magnitude only zero
and infinity are left. -/
def nearest (mantissa : Nat) (exponent : Int) : Float :=
  let order := exponent + ((toString mantissa).length : Int)
  if mantissa = 0 ∨ order < -1000 then 0
  else if 1000 < order then 1 / 0
  else if exponent < 0 then Float.ofScientific mantissa true exponent.natAbs
  else Float.ofScientific mantissa false exponent.natAbs

/-- A number without its sign. -/
def size? (text : List Char) : Option Float :=
  let word := String.ofList (text.map Char.toLower)
  if word = "inf" ∨ word = "infinity" then some (1 / 0)
  else if word = "nan" then some (0 / 0)
  else
    let (whole, places, rest) := splitPoint text
    if whole.isEmpty && places.isEmpty then none
    else (exponent? rest).map fun e =>
      nearest (value (whole ++ places)) (e - (places.length : Int))

/-- **The float that a text denotes**, if it is a number. -/
def float? (text : String) : Option Float :=
  let (negative, rest) := splitSign text.toList
  (size? rest).map fun x => if negative then -x else x

end RegisterMachine.Decimal
