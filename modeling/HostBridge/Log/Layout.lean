import HostBridge.Native.Operation
import HostBridge.Number.Rounded

namespace HostBridge.Log

/-- How a value is filled into a message: its flags, the least width, and the precision. -/
structure Layout where
  /-- Whether the value stands at the left of its width. -/
  left : Bool
  /-- Whether a number that is not negative has a plus sign. -/
  plus : Bool
  /-- Whether a number without a sign has a blank in place of it. -/
  blank : Bool
  /-- Whether numbers are marked with their base, and keep their point. -/
  marked : Bool
  /-- Whether numbers are filled up with zeros. -/
  zero : Bool
  width : Nat
  precision : Option Nat

/-- A value before it is filled up. The mark of a base stands between the sign and the body. -/
structure Written where
  isNumber : Bool
  negative : Bool
  mark : List Char
  body : List Char

namespace Layout

def plain : Layout :=
  { left := false, plus := false, blank := false, marked := false, zero := false, width := 0,
    precision := none }

/-- The greatest width, and the greatest precision of a number, that is laid out at all. -/
def longest : Nat := Nat.pow 10 7

/-- The greatest precision that a whole number can be asked for. -/
def digitsLimit : Nat := Nat.pow 2 31 - 4

def text (l : Layout) (s : String) : Written :=
  let body := match l.precision with
    | none => s.toList
    | some n => s.toList.take n
  { isNumber := false, negative := false, mark := [], body }

/-- A whole number by its digits, which are as many as the precision at least. -/
def whole (l : Layout) (negative : Bool) (mark digits : List Char) : Attempt Written :=
  let count := l.precision.getD 0
  if digitsLimit < count then .error .overflow
  else if longest < count then .error .tooLong
  else .ok { isNumber := true, negative, mark, body := zeros (count - digits.length) ++ digits }

def decimal (l : Layout) (n : Int) : Attempt Written :=
  if n.natAbs < tooLarge then l.whole (decide (n < 0)) [] (digitsOf n.natAbs)
  else .error .tooManyDigits

/-- A whole number in another base, marked by a zero and the letter where marks are asked for. -/
def inBase (l : Layout) (base : Nat) (letter : Char) (n : Int) : Attempt Written :=
  let digits := Nat.toDigits base n.natAbs
  l.whole (decide (n < 0)) (if l.marked then ['0', letter] else [])
    (if letter = 'X' then digits.map Char.toUpper else digits)

/-- A double with six places or digits, if no precision is asked for. -/
def double (l : Layout) (r : Nat → Rounding) (upper : Bool) (x : Binary64) : Attempt Written :=
  let count := l.precision.getD 6
  if longest < count then .error .tooLong
  else
    let body := x.sizeText l.marked (r count)
    .ok { isNumber := true, negative := x.isNegative, mark := [],
          body := if upper then body.map Char.toUpper else body }

def cut : Native → Attempt Int
  | .float x => match x with
    | .nan _ => .error .badFormat
    | .infinite _ => .error .overflow
    | .finite .. => .ok (x.truncate?.getD 0)
  | v => integer v
where
  integer (v : Native) : Attempt Int :=
    match v.asInt? with
    | some n => .ok n
    | none => .error .badOperand

/-- A whole number of which no part was cut off. -/
def exact (v : Native) : Attempt Int :=
  cut.integer v

/-- One character, given as a text or by its code point, which may also be a unit of a pair. -/
def character : Native → Attempt Char
  | .text s => match s.toList with
    | [c] => .ok c
    | _ => .error .badOperand
  | v => do
    let n ← exact v
    if n < 0 ∨ 0x10ffff < n then .error .overflow
    else return if Text.isHighUnit n.toNat || Text.isLowUnit n.toNat then Text.standIn n.toNat
      else Char.ofNat n.toNat

def shown (s : Option String) : Attempt String :=
  match s with
  | some s => .ok s
  | none => .error .tooManyDigits

/-- A value in the way that a letter tells. -/
def write (l : Layout) (letter : Char) (v : Native) : Attempt Written :=
  match letter with
  | 's' => (shown v.plain?).map l.text
  | 'r' => (shown v.display?).map l.text
  | 'a' => (shown v.display?).map fun s => l.text (Text.asciiText s)
  | 'c' => (character v).map fun c => { l with precision := none }.text (String.singleton c)
  | 'd' | 'i' | 'u' => do l.decimal (← cut v)
  | 'o' => do l.inBase 8 letter (← exact v)
  | 'x' | 'X' => do l.inBase 16 letter (← exact v)
  | 'f' | 'F' => do l.double .fixed (letter == 'F') (← v.asFloat)
  | 'e' | 'E' => do l.double .scientific (letter == 'E') (← v.asFloat)
  | 'g' | 'G' => do l.double .general (letter == 'G') (← v.asFloat)
  | _ => .error .badFormat

def sign (l : Layout) (w : Written) : List Char :=
  if !w.isNumber then []
  else if w.negative then ['-']
  else if l.plus then ['+']
  else if l.blank then [' ']
  else []

/-- What is written, filled up to the width: with blanks around it, or with zeros behind the sign
and the mark of a number. -/
def fill (l : Layout) (w : Written) : Attempt (List Char) :=
  let start := l.sign w ++ w.mark
  let gap := l.width - (start.length + w.body.length)
  if longest < gap then .error .tooLong
  else if l.left then .ok (start ++ w.body ++ List.replicate gap ' ')
  else if l.zero && w.isNumber then .ok (start ++ zeros gap ++ w.body)
  else .ok (List.replicate gap ' ' ++ start ++ w.body)

end Layout

end HostBridge.Log
