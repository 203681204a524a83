/-! # Binary floating point as exact numbers

A finite 64-bit float is `mantissa * 2 ^ exponent`. The questions asked about floats here, such as
which decimal is nearest, are answered on these two numbers in exact arithmetic.

* `Binary.ofFloat` reads them off the bits, the sign apart.
* `Binary.scaled` multiplies by a natural number and rounds to the nearest natural number. -/

namespace RegisterMachine.Decimal

/-- **The size of a finite float.** `closeBelow` says that the next smaller float is only half as
far away as the next larger one, as it is at most powers of two. -/
structure Binary where
  mantissa : Nat
  exponent : Int
  closeBelow : Bool
deriving DecidableEq, Repr

namespace Binary

/-- The mantissa of the smallest float with an exponent of its own, with 52 bits behind the
first. -/
def leadingBit : Nat := 4503599627370496

/-- The exponents that 11 bits tell apart. -/
def exponentCount : Nat := 2048

/-- The 52 bits of the fraction and the 11 bits of the exponent. -/
def ofFloat (x : Float) : Binary :=
  let bits := x.toBits.toNat
  let fraction := bits % leadingBit
  let field := bits / leadingBit % exponentCount
  if field = 0 then ⟨fraction, -1074, false⟩
  else ⟨leadingBit + fraction, (field : Int) - 1075, fraction == 0 && 1 < field⟩

/-- A quotient rounded to the nearest natural number, a half to the even neighbour. -/
def roundQuotient (numerator denominator : Nat) : Nat :=
  let whole := numerator / denominator
  let rest := 2 * (numerator % denominator)
  if rest < denominator ∨ (rest = denominator ∧ whole % 2 = 0) then whole else whole + 1

/-- `factor` times the float, rounded. -/
def scaled (b : Binary) (factor : Nat) : Nat :=
  roundQuotient (b.mantissa * factor * Nat.pow 2 b.exponent.toNat) (Nat.pow 2 (-b.exponent).toNat)

end Binary

/-- The sign bit of a float. -/
def signBit (x : Float) : Bool := 9223372036854775808 ≤ x.toBits.toNat

end RegisterMachine.Decimal
