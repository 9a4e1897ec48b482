namespace HostBridge

/-- A significand `m` and an exponent `p` that stand for `m * 2 ^ p` units, each value once. -/
def Binary64.Canonical (m p : Nat) : Prop :=
  m < Nat.pow 2 53 ∧ p ≤ 2045 ∧ (Nat.pow 2 52 ≤ m ∨ p = 0)

instance (m p : Nat) : Decidable (Binary64.Canonical m p) :=
  inferInstanceAs (Decidable (_ ∧ _ ∧ _))

/-- Which object a NaN is. Calculations tell no NaN from another, but a table that looks for one as
a key finds the very object. -/
inductive Binary64.NaN where
  /-- The one that stands for all that is no number. -/
  | coerced
  /-- The one that is read from every text of JSON. -/
  | json
  /-- One of those that values from elsewhere may share, by its number. -/
  | shared (number : Nat)
  /-- A new one, which is met nowhere else. -/
  | fresh
  deriving DecidableEq

/-- A double. A finite one is a whole number of units of `2 ^ -1074`, and every operation gives the
exact result rounded once: to the nearest double, and on a tie to the even one. -/
inductive Binary64 where
  | nan (object : Binary64.NaN)
  | infinite (negative : Bool)
  | finite (negative : Bool) (significand exponent : Nat)
      (canonical : Binary64.Canonical significand exponent)
  deriving DecidableEq

namespace Binary64

def unitsPerOne : Nat := Nat.pow 2 1074

def zero (negative : Bool) : Binary64 :=
  .finite negative 0 0 (by decide)

instance : Inhabited Binary64 := ⟨zero false⟩

/-- The whole number nearest `n / d`; a tie goes to the even one. -/
def roundQuotient (n d : Nat) : Nat :=
  let q := n / d
  let twice := 2 * (n % d)
  if twice < d then q
  else if d < twice then q + 1
  else if q % 2 = 0 then q else q + 1

/-- The number of `m * 2 ^ p` units, where rounding may have carried `m` up to `2 ^ 53`; infinite
when no finite number has that many. -/
def pack (negative : Bool) (m p : Nat) : Binary64 :=
  if h : Canonical m p then .finite negative m p h
  else if h : Canonical (m / 2) (p + 1) then .finite negative (m / 2) (p + 1) h
  else .infinite negative

/-- The number nearest `n / d` units. -/
def ofUnits (negative : Bool) (n d : Nat) : Binary64 :=
  let p := (n / d).log2 - 52
  pack negative (roundQuotient n (d * Nat.pow 2 p)) p

def ofRatio (negative : Bool) (n d : Nat) : Binary64 :=
  ofUnits negative (n * unitsPerOne) d

/-- The number nearest a whole number, if that is finite. -/
def ofInt? (n : Int) : Option Binary64 :=
  match ofRatio (decide (n < 0)) n.natAbs 1 with
  | .infinite _ => none
  | x => some x

/-- How many units a finite number is; both zeros are none. -/
def units? : Binary64 → Option Int
  | .nan _ | .infinite _ => none
  | .finite negative m p _ =>
    let size : Int := (m * Nat.pow 2 p : Nat)
    some (if negative then -size else size)

def isNaN : Binary64 → Bool
  | .nan _ => true
  | _ => false

/-- The whole number equal to `x`, if there is one. -/
def toInt? (x : Binary64) : Option Int := do
  let u ← x.units?
  if u % unitsPerOne = 0 then some (u / unitsPerOne) else none

/-- The greatest whole number not above `x`, if `x` is finite. -/
def floor? (x : Binary64) : Option Int :=
  x.units?.map (· / (unitsPerOne : Int))

/-- The whole number that is left of `x` without the part behind its point, if `x` is finite. -/
def truncate? (x : Binary64) : Option Int :=
  x.units?.map (Int.tdiv · unitsPerOne)

/-- Whether two objects are one. A new one is compared with others only. -/
def NaN.same : NaN → NaN → Bool
  | .fresh, _ => false
  | i, j => i == j

theorem NaN.same_iff {i j : NaN} : i.same j = true ↔ i ≠ .fresh ∧ j = i := by
  cases i with
  | fresh => exact iff_of_false Bool.false_ne_true fun h => h.1 rfl
  | coerced | json | shared =>
    apply beq_iff_eq.trans
    exact ⟨fun h => ⟨nofun, h.symm⟩, fun h => h.2.symm⟩

/-- Whether two numbers are one as keys: they are equal, as the zeros are, or they are one NaN. -/
def same (x y : Binary64) : Bool :=
  match x, y with
  | .nan i, .nan j => i.same j
  | .nan _, _ | _, .nan _ => false
  | .infinite s, .infinite t => s == t
  | _, _ => match x.units?, y.units? with
    | some u, some v => u == v
    | _, _ => false

def lt (x y : Binary64) : Bool :=
  match x, y with
  | .nan _, _ | _, .nan _ => false
  | .infinite s, .infinite t => s && !t
  | .infinite s, .finite .. => s
  | .finite .., .infinite t => !t
  | .finite .., .finite .. => match x.units?, y.units? with
    | some u, some v => decide (u < v)
    | _, _ => false

def sameInt (x : Binary64) (n : Int) : Bool :=
  x.units? == some (n * unitsPerOne)

def ltInt (x : Binary64) (n : Int) : Bool :=
  match x with
  | .nan _ => false
  | .infinite s => s
  | .finite .. => x.units?.any (· < n * unitsPerOne)

def intLt (n : Int) (x : Binary64) : Bool :=
  match x with
  | .nan _ => false
  | .infinite s => !s
  | .finite .. => x.units?.any (n * unitsPerOne < ·)

def isZero (x : Binary64) : Bool :=
  x.units? == some 0

/-- The sum; a zero sum is negative only when both zeros are. -/
def add (x y : Binary64) : Binary64 :=
  match x, y with
  | .nan _, _ | _, .nan _ => .nan .fresh
  | .infinite s, .infinite t => if s == t then .infinite s else .nan .fresh
  | .infinite s, .finite .. => .infinite s
  | .finite .., .infinite t => .infinite t
  | .finite s .., .finite t .. =>
    let u := x.units?.getD 0 + y.units?.getD 0
    if u = 0 then zero (s && t) else ofUnits (decide (u < 0)) u.natAbs 1

def div (x y : Binary64) : Binary64 :=
  match x, y with
  | .nan _, _ | _, .nan _ => .nan .fresh
  | .infinite _, .infinite _ => .nan .fresh
  | .infinite s, .finite t .. => .infinite (s != t)
  | .finite s .., .infinite t => zero (s != t)
  | .finite s m p _, .finite t n q _ => ofRatio (s != t) (m * Nat.pow 2 p) (n * Nat.pow 2 q)

end Binary64

end HostBridge
