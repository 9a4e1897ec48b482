import HostBridge.Number.Text
import HostBridge.Text.Character
import HostBridge.Text.Blank

namespace HostBridge

/-- The result of reading a number: whole numbers are kept exact. -/
inductive Number where
  | int (n : Int)
  | float (x : Binary64)
  deriving DecidableEq

/-- The parts of a decimal numeral; digits are kept as values. -/
structure Numeral where
  negative : Bool
  whole : List Nat
  /-- The digits after the point, if there is a point. -/
  fraction : Option (List Nat)
  /-- Whether the exponent is negative, and its digits. -/
  exponent : Option (Bool × List Nat)

namespace Numeral

def takeSign : List Char → Bool × List Char
  | '-' :: cs => (true, cs)
  | '+' :: cs => (false, cs)
  | cs => (false, cs)

/-- An optional point with the digits after it, and the rest. -/
def takeFraction : List Char → Option (List Nat) × List Char
  | '.' :: cs => let (vs, rest) := Text.takeDigits cs; (some vs, rest)
  | cs => (none, cs)

/-- An optional exponent that ends the text. -/
def readExponent? : List Char → Option (Option (Bool × List Nat))
  | [] => some none
  | c :: cs =>
    if c = 'e' ∨ c = 'E' then
      let (negative, cs) := takeSign cs
      match Text.takeDigits cs with
      | (v :: vs, []) => some (some (negative, v :: vs))
      | _ => none
    else none

def ofChars? (cs : List Char) : Option Numeral := do
  let (negative, cs) := takeSign cs
  let (whole, cs) := Text.takeDigits cs
  let (fraction, cs) := takeFraction cs
  if whole.isEmpty && (fraction.getD []).isEmpty then none
  else
    let exponent ← readExponent? cs
    return { negative, whole, fraction, exponent }

/-- Whether the numeral is a sign and digits only, no more of them than the limit. -/
def isWhole (n : Numeral) : Bool :=
  n.fraction.isNone && n.exponent.isNone && n.whole.length ≤ digitLimit

def power (n : Numeral) : Int :=
  match n.exponent with
  | none => 0
  | some (true, vs) => -(Text.ofDigitValues 10 vs : Int)
  | some (false, vs) => Text.ofDigitValues 10 vs

/-- The digits of a numeral as one whole number, and the power of ten that scales it. -/
def toDecimal (n : Numeral) : Decimal :=
  let fraction := n.fraction.getD []
  ⟨Text.ofDigitValues 10 (n.whole ++ fraction), n.power - fraction.length⟩

def toFloat (n : Numeral) : Binary64 :=
  n.toDecimal.nearest n.negative

def toInt (n : Numeral) : Int :=
  let size : Int := Text.ofDigitValues 10 n.whole
  if n.negative then -size else size

def toNumber (n : Numeral) : Number :=
  if n.isWhole then .int n.toInt else .float n.toFloat

end Numeral

namespace Number

def nan : Number := .float (.nan .coerced)

/-- The value of a digit in bases up to thirty-six, letters of either case after the nine. -/
def letterValue? (c : Char) : Option Nat :=
  let n := c.toNat
  if 0x30 ≤ n ∧ n ≤ 0x39 then some (n - 0x30)
  else if 0x41 ≤ n ∧ n ≤ 0x5a then some (n - 0x37)
  else if 0x61 ≤ n ∧ n ≤ 0x7a then some (n - 0x57)
  else none

/-- The base that a letter after a leading zero announces. -/
def baseOf? (c : Char) : Option Nat :=
  if c = 'x' ∨ c = 'X' then some 16
  else if c = 'o' ∨ c = 'O' then some 8
  else if c = 'b' ∨ c = 'B' then some 2
  else none

/-- One or more digits, all valid in the base. -/
def readBase? (base : Nat) (cs : List Char) : Option Nat := do
  let vs ← cs.mapM letterValue?
  if !vs.isEmpty && vs.all (· < base) then some (Text.ofDigitValues base vs) else none

/-- A zero, the letter of a base and digits in it. -/
def readRadix? : List Char → Option Nat
  | '0' :: c :: cs => do readBase? (← baseOf? c) cs
  | _ => none

def readInfinity? (cs : List Char) : Option Binary64 :=
  if cs = "Infinity".toList ∨ cs = "+Infinity".toList then some (.infinite false)
  else if cs = "-Infinity".toList then some (.infinite true)
  else none

/-- The number that a text without blanks around it denotes. -/
def ofChars (cs : List Char) : Number :=
  if cs.isEmpty then .int 0
  else match readInfinity? cs with
    | some x => .float x
    | none => match readRadix? cs with
      | some n => .int n
      | none => match Numeral.ofChars? cs with
        | some n => n.toNumber
        | none => nan

/-- The number that a text denotes, with blanks around it: a decimal numeral, a whole number in a
base that its prefix announces, or an infinity. What denotes none is NaN. -/
def ofText (s : String) : Number :=
  ofChars (Text.trim s.toList)

end Number

namespace Binary64

/-- The special values by name, in any case of letters and after an optional sign. -/
def ofName? (cs : List Char) : Option Binary64 :=
  let (negative, name) := Numeral.takeSign cs
  match String.ofList (name.map Char.toLower) with
  | "inf" | "infinity" => some (.infinite negative)
  | "nan" => some (.nan .fresh)
  | _ => none

/-- Digits grouped by single low lines, without them; a low line that does not stand between two
digits is kept. -/
def ungroup : List Char → List Char
  | c :: '_' :: d :: cs =>
    if (Text.digitValue? c).isSome && (Text.digitValue? d).isSome then c :: ungroup (d :: cs)
    else c :: '_' :: ungroup (d :: cs)
  | c :: cs => c :: ungroup cs
  | [] => []

/-- The double that a text stands for where grouped digits and named special values are allowed. -/
def ofText? (s : String) : Option Binary64 :=
  let cs := Text.trim s.toList
  match ofName? cs with
  | some x => some x
  | none => (Numeral.ofChars? (ungroup cs)).map Numeral.toFloat

end Binary64

end HostBridge
