import VerifiedLinks.Decimal.Shortest

/-!
# Numbers

A JSON number without a fraction and without an exponent that fits into 64 bits
is an *integer*; any other is a *real*, kept as a floating-point number.  A
number beyond the largest floating-point number cannot be kept at all.

`Numeral` is a number as it is written: a sign, up to 64 bits of digits, and a
power of ten.  Digits that no longer fit are dropped, those in front of the
point at the cost of a higher power.  `Numeral.number?` is its value and
`Number.text` the way a number is written in a message.
-/

namespace VerifiedLinks.Json

/-- The value of a number. -/
inductive Number where
  | integer (n : Int)
  | real (x : Float)

/-! ## Written numbers -/

/-- A number as it is written. -/
structure Numeral where
  /-- There is a minus sign. -/
  negative : Bool
  /-- There is neither a point nor an exponent, and no digit was dropped. -/
  whole : Bool
  /-- The digits that were kept. -/
  significand : Nat
  /-- The power of ten by which they are moved. -/
  exponent : Int

/-- The value of a digit. -/
def digitValue (c : Char) : Nat := c.toNat - '0'.toNat

/-- The largest number of 64 bits. -/
def maxSignificand : Nat := 0xFFFFFFFFFFFFFFFF

/-- The largest number of 64 bits that has a negative counterpart of 64 bits. -/
def maxNegated : Nat := 0x8000000000000000

/-- A significand with one more digit, if 64 bits suffice. -/
def pushDigit? (n : Nat) (c : Char) : Option Nat :=
  let n' := 10 * n + digitValue c
  if n' ≤ maxSignificand then some n' else none

/-- A significand with the digits in front of the point, and the number of those
that had to be dropped. -/
def pushWhole : Nat → List Char → Nat × Nat
  | n, [] => (n, 0)
  | n, c :: cs =>
    match pushDigit? n c with
    | some n' => pushWhole n' cs
    | none => (n, (c :: cs).length)

/-- A significand with the digits after the point, and the number of those that
were kept. -/
def pushFraction : Nat → List Char → Nat × Nat
  | n, [] => (n, 0)
  | n, c :: cs =>
    match pushDigit? n c with
    | some n' => (pushFraction n' cs).map id (· + 1)
    | none => (n, 0)

/-- The number written with the given digits in front of the point, and with the
given digits after it and power of ten, if there are any. -/
def Numeral.of (negative : Bool) (whole : List Char) (fraction : Option (List Char))
    (power : Option Int) : Numeral :=
  let (n, dropped) := pushWhole 0 whole
  let (n, kept) := pushFraction n (fraction.getD [])
  { negative
    whole := fraction.isNone && power.isNone && dropped == 0
    significand := n
    exponent := dropped - kept + power.getD 0 }

/-! ## Values -/

/-- A power of ten as a floating-point number. -/
def powerOfTen (k : Nat) : Float := Float.ofScientific 1 false k

/-- A significand of at most 64 bits times a power of ten, unless that is beyond
the largest floating-point number.  A small power is divided out in two parts. -/
def scale? (significand : Nat) (exponent : Int) : Option Float :=
  let x := significand.toUInt64.toFloat
  if significand = 0 then some x
  else if 308 < exponent then none
  else if 0 ≤ exponent then
    let y := x * powerOfTen exponent.toNat
    if y.isInf then none else some y
  else if -308 ≤ exponent then some (x / powerOfTen (-exponent).toNat)
  else if -616 ≤ exponent then
    some (x / powerOfTen 308 / powerOfTen (-exponent - 308).toNat)
  else some 0

/-- The value of a written number.  Zero with a sign is real, since no integer
keeps its sign. -/
def Numeral.number? (n : Numeral) : Option Number :=
  if n.whole && !n.negative then some (.integer n.significand)
  else if n.whole && n.significand ≠ 0 && n.significand ≤ maxNegated then
    some (.integer (-n.significand))
  else (scale? n.significand n.exponent).map fun x => .real (if n.negative then -x else x)

/-! ## Text -/

/-- A decimal in positional notation if it is at least `10 ^ -5` and below
`10 ^ 16`, and with a signed exponent otherwise.  A point or an exponent always
shows. -/
def decimalText (d : Decimal) : String :=
  let digits := Nat.toDigits 10 d.coefficient
  let point : Int := digits.length + d.exponent
  let zeros (k : Int) : List Char := List.replicate k.toNat '0'
  if 0 ≤ d.exponent && point ≤ 16 then String.ofList (digits ++ zeros d.exponent ++ ['.', '0'])
  else if 0 < point && point ≤ 16 then
    String.ofList (digits.take point.toNat ++ '.' :: digits.drop point.toNat)
  else if -5 < point && point ≤ 0 then
    String.ofList ('0' :: '.' :: zeros (-point) ++ digits)
  else
    let fraction := match digits.drop 1 with
      | [] => []
      | ds => '.' :: ds
    let sign := if 0 < point then "+" else ""
    String.ofList (digits.take 1 ++ fraction) ++ "e" ++ sign ++ toString (point - 1)

/-- A finite floating-point number in the fewest digits that read back. -/
def realText (x : Float) : String :=
  let sign := if x.toBits >>> 63 = 1 then "-" else ""
  let field := (x.toBits >>> 52 &&& 0x7FF).toNat
  let low := (x.toBits &&& 0xFFFFFFFFFFFFF).toNat
  let text :=
    if field = 0 && low = 0 then "0.0"
    else if field = 0 then decimalText (Decimal.shortest low (-1074))
    else decimalText (Decimal.shortest (Decimal.leadingBit + low) (field - 1075))
  sign ++ text

/-- How a number is written in a message. -/
def Number.text : Number → String
  | integer n => toString n
  | real x => realText x

end VerifiedLinks.Json
