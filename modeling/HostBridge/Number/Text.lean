import HostBridge.Number.Binary64

namespace HostBridge

def digitsOf (n : Nat) : List Char :=
  Nat.toDigits 10 n

/-- The value `digits * 10 ^ exponent`. -/
structure Decimal where
  digits : Nat
  exponent : Int

namespace Decimal

/-- The number nearest a numeral. No power of ten is formed for a numeral that is far above the
largest finite number or far below half the smallest. -/
def nearest (negative : Bool) (d : Decimal) : Binary64 :=
  let top := d.exponent + (digitsOf d.digits).length
  if d.digits = 0 ∨ top < -400 then .zero negative
  else if 400 < top then .infinite negative
  else .ofRatio negative (d.digits * Nat.pow 10 d.exponent.toNat)
    (Nat.pow 10 (-d.exponent).toNat)

/-- The power of ten just above a positive number of units: it has this many digits before the
point, or minus this many zeros after it. -/
def magnitude (units : Nat) : Int :=
  (digitsOf (units * Nat.pow 10 400 / Binary64.unitsPerOne)).length - 400

/-- The two neighbours of a number of units on the grid of `10 ^ exponent`, the closer first and on
a tie the even one. -/
def neighbours (units : Nat) (exponent : Int) : Decimal × Decimal :=
  let n := units * Nat.pow 10 (-exponent).toNat
  let d := Binary64.unitsPerOne * Nat.pow 10 exponent.toNat
  let low : Decimal := ⟨n / d, exponent⟩
  let high : Decimal := ⟨n / d + 1, exponent⟩
  if Binary64.roundQuotient n d = low.digits then (low, high) else (high, low)

/-- The first of two numerals that reads back as a number. -/
def firstNearest (x : Binary64) (pair : Decimal × Decimal) : Option Decimal :=
  if pair.1.nearest false = x then some pair.1
  else if pair.2.nearest false = x then some pair.2
  else none

/-- The neighbour with `count` digits that reads back as the number. -/
def ofCount? (units count : Nat) : Option Decimal :=
  firstNearest (Binary64.ofUnits false units 1) (neighbours units (magnitude units - count))

/-- The shortest numeral that reads back as a positive number of units. Seventeen digits always
do; the exact expansion stands behind them. -/
def shortest (units : Nat) : Decimal :=
  ((List.range 17).findSome? fun count => ofCount? units (count + 1)).getD
    ⟨units * Nat.pow 5 1074, -1074⟩

end Decimal

/-- The longest decimal text of a whole number that is written or read. -/
def digitLimit : Nat := 4300

/-- The least number whose decimal text is over the limit. -/
def tooLarge : Nat := Nat.pow 10 digitLimit

theorem digitLimit_lt_tooLarge : digitLimit < tooLarge := by
  unfold tooLarge
  generalize digitLimit = n
  exact Nat.lt_pow_self (by decide)

def signed (negative : Bool) (text : String) : String :=
  if negative then "-" ++ text else text

def decimalText (n : Int) : String :=
  signed (decide (n < 0)) (String.ofList (digitsOf n.natAbs))

/-- The decimal text of a whole number, if it keeps to the limit. -/
def decimalText? (n : Int) : Option String :=
  if n.natAbs < tooLarge then some (decimalText n) else none

def zeros (n : Nat) : List Char :=
  List.replicate n '0'

/-- The digits of a whole number, with zeros in front up to a width. -/
def padded (width n : Nat) : List Char :=
  zeros (width - (digitsOf n).length) ++ digitsOf n

/-- Digits without the zeros that end them. -/
def dropEndZeros (ds : List Char) : List Char :=
  (ds.reverse.dropWhile (· == '0')).reverse

/-- The hexadecimal text of a whole number, which has no limit. -/
def hexText (n : Int) : String :=
  signed (decide (n < 0)) ("0x" ++ String.ofList (Nat.toDigits 16 n.natAbs))

namespace Decimal

def figures (d : Decimal) : List Char :=
  dropEndZeros (digitsOf d.digits)

/-- How many digits of a numeral stand before the point; minus the zeros right after it. -/
def point (d : Decimal) : Int :=
  d.exponent + (digitsOf d.digits).length

end Decimal

/-- Figures with a point after the given place, and at least one digit on both sides of it. -/
def positional (figures : List Char) (point : Int) : List Char :=
  let whole := figures.take point.toNat ++ zeros (point.toNat - figures.length)
  let fraction := zeros (-point).toNat ++ figures.drop point.toNat
  (if whole.isEmpty then ['0'] else whole) ++ '.' :: (if fraction.isEmpty then ['0'] else fraction)

/-- A power of ten as an exponent: its sign and two digits or more. -/
def exponentText (e : Int) : List Char :=
  'e' :: (if e < 0 then '-' else '+') :: padded 2 e.natAbs

/-- Figures with a point after the first, and an exponent. -/
def scientific (figures : List Char) (point : Int) : List Char :=
  let fraction := figures.drop 1
  figures.take 1 ++ (if fraction.isEmpty then [] else '.' :: fraction) ++ exponentText (point - 1)

/-- The text of a positive number of units. -/
def unitsText (units : Nat) : List Char :=
  let d := Decimal.shortest units
  if -4 < d.point ∧ d.point ≤ 16 then positional d.figures d.point
  else scientific d.figures d.point

namespace Binary64

/-- The text of a double: the fewest digits that read back as it, with a point or an exponent. -/
def text : Binary64 → String
  | .nan _ => "nan"
  | .infinite negative => signed negative "inf"
  | .finite negative m p _ =>
    signed negative (if m = 0 then "0.0" else String.ofList (unitsText (m * Nat.pow 2 p)))

end Binary64

end HostBridge
