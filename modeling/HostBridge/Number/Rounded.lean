import HostBridge.Number.Text

namespace HostBridge

/-- How a rounded double is written, with the number of places after the point or, in the general
way, of digits. -/
inductive Rounding where
  | fixed (places : Nat)
  | scientific (places : Nat)
  | general (digits : Nat)

namespace Rounding

/-- The digits after a point; the point may be kept where none are left. -/
def fraction (keep : Bool) (ds : List Char) : List Char :=
  if ds.isEmpty && !keep then [] else '.' :: ds

/-- A number of units with a fixed point. -/
def fixedText (keep : Bool) (places units : Nat) : List Char :=
  let ds := padded (places + 1)
    (Binary64.roundQuotient (units * Nat.pow 10 places) Binary64.unitsPerOne)
  ds.take (ds.length - places) ++ fraction keep (ds.drop (ds.length - places))

/-- The leading digits of a number of units, rounded to a positive count of them, and the power of
ten of the first. Rounding up may carry into a new first digit. -/
def leading (count units : Nat) : List Char × Int :=
  if units = 0 then (zeros count, 0)
  else
    let e := Decimal.magnitude units - 1
    let shift := count - 1 - e
    let ds := digitsOf (Binary64.roundQuotient (units * Nat.pow 10 shift.toNat)
      (Binary64.unitsPerOne * Nat.pow 10 (-shift).toNat))
    (ds.take count, e + (ds.length - count : Nat))

/-- Leading digits with a point after the first, and an exponent. -/
def withExponent (keep : Bool) (ds : List Char) (e : Int) : List Char :=
  ds.take 1 ++ fraction keep (ds.drop 1) ++ exponentText e

/-- Leading digits in the shorter way: with an exponent where the number is below the fourth place
or longer than its digits. Unless they are kept, the zeros after the point are dropped. -/
def shorter (keep : Bool) (ds : List Char) (e : Int) : List Char :=
  let trimmed := fun zs => if keep then zs else dropEndZeros zs
  if -4 ≤ e ∧ e < ds.length then
    let whole := ds.take (e + 1).toNat
    (if whole.isEmpty then ['0'] else whole) ++
      fraction keep (trimmed (zeros (-e - 1).toNat ++ ds.drop (e + 1).toNat))
  else ds.take 1 ++ fraction keep (trimmed (ds.drop 1)) ++ exponentText e

/-- The text of a number of units. Where `keep` is set, the point stays without digits after it and
the general way keeps its zeros. -/
def unitsText (keep : Bool) (units : Nat) : Rounding → List Char
  | fixed places => fixedText keep places units
  | scientific places =>
    let (ds, e) := leading (places + 1) units
    withExponent keep ds e
  | general digits =>
    let (ds, e) := leading (max digits 1) units
    shorter keep ds e

end Rounding

namespace Binary64

/-- Whether the sign of a number is written; NaN has none. -/
def isNegative : Binary64 → Bool
  | .nan _ => false
  | .infinite negative | .finite negative .. => negative

/-- The rounded text of a number without its sign. -/
def sizeText (x : Binary64) (keep : Bool) (r : Rounding) : List Char :=
  match x with
  | .nan _ => "nan".toList
  | .infinite _ => "inf".toList
  | .finite _ m p _ => r.unitsText keep (m * Nat.pow 2 p)

def rounded (x : Binary64) (r : Rounding) : String :=
  signed x.isNegative (String.ofList (x.sizeText false r))

end Binary64

end HostBridge
