/-!
# Shortest decimals

A binary floating-point number stands for all reals that round to it, an interval
around it.  Among the decimals in that interval one has the fewest digits, and
that one is how the number is written.  `shortest` finds it by trying ever finer
grids of decimals.  On each grid only the two neighbours of the number can be
the nearest, so only these are tried.  All arithmetic is exact.
-/

namespace VerifiedLinks

/-- The decimal `coefficient * 10 ^ exponent`. -/
structure Decimal where
  /-- The digits, read as a whole number. -/
  coefficient : Nat
  /-- The power of ten by which they are moved. -/
  exponent : Int

namespace Decimal

/-- A positive number with the interval of the reals that round to it, as
numerators over one denominator. -/
structure Interval where
  /-- The lower end. -/
  low : Nat
  /-- The number itself. -/
  mid : Nat
  /-- The upper end. -/
  high : Nat
  /-- The common denominator. -/
  den : Nat
  /-- The ends round to the number, too. -/
  closed : Bool

/-- The leading bit of a mantissa. -/
def leadingBit : Nat := 0x10000000000000

/-- The interval of `mantissa * 2 ^ exponent`.  Below a power of two the grid of
floating-point numbers is twice as fine, so the lower half is half as wide. -/
def Interval.of (mantissa : Nat) (exponent : Int) : Interval :=
  let up := Nat.pow 2 (exponent - 2).toNat
  let below := if mantissa = leadingBit ∧ -1074 < exponent then 1 else 2
  { low := (4 * mantissa - below) * up
    mid := 4 * mantissa * up
    high := (4 * mantissa + 2) * up
    den := Nat.pow 2 (2 - exponent).toNat
    closed := mantissa % 2 = 0 }

/-- The number of digits of a whole number, none for zero. -/
def digitCount (n : Nat) : Nat :=
  if n = 0 then 0 else (Nat.toDigits 10 n).length

/-- The power of ten of the leading digit of a positive number. -/
def Interval.magnitude (i : Interval) : Int :=
  if i.den ≤ i.mid then digitCount (i.mid / i.den) - 1
  else -digitCount ((i.den - 1) / i.mid)

/-- The nearest multiple of `10 ^ k` that lies in the interval, the even one of
two that are equally near. -/
def Interval.onGrid (i : Interval) (k : Int) : Option Decimal :=
  let up := Nat.pow 10 (-k).toNat
  let unit := i.den * Nat.pow 10 k.toNat
  let c := i.mid * up / unit
  let within (n : Nat) : Bool :=
    if i.closed then i.low * up ≤ n * unit && n * unit ≤ i.high * up
    else i.low * up < n * unit && n * unit < i.high * up
  let down := i.mid * up - c * unit
  let away := (c + 1) * unit - i.mid * up
  if within c && (!within (c + 1) || down < away || (down = away && c % 2 = 0)) then
    some ⟨c, k⟩
  else if within (c + 1) then some ⟨c + 1, k⟩
  else none

/-- The shortest decimal in the interval of a positive floating-point number.
The first grid is coarser than the leading digit, for a number just below a power
of ten.  Seventeen digits always suffice. -/
def shortest (mantissa : Nat) (exponent : Int) : Decimal :=
  let i := Interval.of mantissa exponent
  ((List.range 18).findSome? fun n : Nat => i.onGrid (i.magnitude + 1 - n)).getD ⟨mantissa, 0⟩

end Decimal

end VerifiedLinks
