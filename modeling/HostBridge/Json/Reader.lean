import HostBridge.Failure
import HostBridge.Number.Literal
import HostBridge.Text.Character

namespace HostBridge.Json

/-- Why a text is not read. A whole number over the digit limit is met before what follows it. -/
inductive ReadError where
  | syntaxError
  | tooManyDigits
  deriving DecidableEq

/-- What is read, or why nothing is; a part of a text is read together with the rest of it. -/
abbrev Reading (α : Type) := Except ReadError α

def isSpace (c : Char) : Bool :=
  c == ' ' || c == '\t' || c == '\n' || c == '\r'

def skipSpace (cs : List Char) : List Char :=
  cs.dropWhile isSpace

def isDigit (c : Char) : Bool :=
  '0' ≤ c && c ≤ '9'

/-- The value of four hexadecimal digits, and the rest. -/
def takeUnit? : List Char → Option (Nat × List Char)
  | a :: b :: c :: d :: rest => do
    let vs ← [a, b, c, d].mapM Number.letterValue?
    if vs.all (· < 16) then some (Text.ofDigitValues 16 vs, rest) else none
  | _ => none

def escape? : Char → Option Char
  | '"' => some '"'
  | '\\' => some '\\'
  | '/' => some '/'
  | 'b' => some '\x08'
  | 'f' => some '\x0c'
  | 'n' => some '\n'
  | 'r' => some '\r'
  | 't' => some '\t'
  | _ => none

/-- The character of a code unit, joined with a low one that follows a high one. -/
def takeEscapedUnit? (cs : List Char) : Option (Char × List Char) := do
  let (unit, rest) ← takeUnit? cs
  if Text.isHighUnit unit then
    match rest with
    | '\\' :: 'u' :: more =>
      let (low, after) ← takeUnit? more
      if Text.isLowUnit low then some (Text.pairChar unit low, after)
      else some (Text.standIn unit, rest)
    | _ => some (Text.standIn unit, rest)
  else if Text.isLowUnit unit then some (Text.standIn unit, rest)
  else some (Char.ofNat unit, rest)

/-- The characters up to the closing quote, read with fuel of the length. -/
def readString : Nat → List Char → Reading (List Char × List Char)
  | 0, _ | _, [] => .error .syntaxError
  | _ + 1, '"' :: rest => .ok ([], rest)
  | n + 1, '\\' :: 'u' :: cs => match takeEscapedUnit? cs with
    | none => .error .syntaxError
    | some (c, rest) => do
      let (text, rest) ← readString n rest
      return (c :: text, rest)
  | n + 1, '\\' :: c :: cs => match escape? c with
    | none => .error .syntaxError
    | some d => do
      let (text, rest) ← readString n cs
      return (d :: text, rest)
  | n + 1, c :: cs =>
    if c.toNat < 0x20 ∨ c = '\\' then .error .syntaxError
    else do
      let (text, rest) ← readString n cs
      return (c :: text, rest)

/-- The digits of a whole number without needless zeros, and the rest. -/
def takeWhole? (cs : List Char) : Option (List Char × List Char) :=
  match cs with
  | [] => none
  | c :: rest =>
    if c = '0' then some (['0'], rest)
    else if isDigit c then some (cs.takeWhile isDigit, cs.dropWhile isDigit)
    else none

/-- A point with digits after it, where there is one, and the rest. -/
def takeFraction (cs : List Char) : List Char × List Char :=
  match cs with
  | '.' :: c :: rest =>
    if isDigit c then
      ('.' :: (c :: rest).takeWhile isDigit, (c :: rest).dropWhile isDigit)
    else ([], cs)
  | _ => ([], cs)

/-- An exponent with digits, where there is one, and the rest. -/
def takeExponent (cs : List Char) : List Char × List Char :=
  match cs with
  | e :: rest =>
    if e = 'e' ∨ e = 'E' then
      let (mark, digits) := match rest with
        | '+' :: ds => (['+'], ds)
        | '-' :: ds => (['-'], ds)
        | ds => ([], ds)
      if (digits.takeWhile isDigit).isEmpty then ([], cs)
      else (e :: mark ++ digits.takeWhile isDigit, digits.dropWhile isDigit)
    else ([], cs)
  | [] => ([], cs)

/-- The value of a whole number's digits, if they keep to the limit. -/
def wholeNumber (negative : Bool) (ds : List Char) : Reading Native :=
  if ds.length ≤ digitLimit then
    let size : Int := (Nat.ofDigitChars 10 ds 0 : Nat)
    .ok (.int (if negative then -size else size))
  else .error .tooManyDigits

def readUnsigned (negative : Bool) (cs : List Char) : Reading (Native × List Char) :=
  match takeWhole? cs with
  | none => .error .syntaxError
  | some (whole, rest) =>
    let (fraction, rest) := takeFraction rest
    let (exponent, rest) := takeExponent rest
    if fraction.isEmpty && exponent.isEmpty then do
      return (← wholeNumber negative whole, rest)
    else match Numeral.ofChars? (whole ++ fraction ++ exponent) with
      | some n => .ok (.float { n with negative }.toFloat, rest)
      | none => .error .syntaxError

def readNumber : List Char → Reading (Native × List Char)
  | 'N' :: 'a' :: 'N' :: rest => .ok (.float (.nan .json), rest)
  | 'I' :: 'n' :: 'f' :: 'i' :: 'n' :: 'i' :: 't' :: 'y' :: rest =>
    .ok (.float (.infinite false), rest)
  | '-' :: 'I' :: 'n' :: 'f' :: 'i' :: 'n' :: 'i' :: 't' :: 'y' :: rest =>
    .ok (.float (.infinite true), rest)
  | '-' :: cs => readUnsigned true cs
  | cs => readUnsigned false cs

mutual

/-- A value at the start of a text, read with fuel above twice its length. -/
def readValue : Nat → List Char → Reading (Native × List Char)
  | 0, _ => .error .syntaxError
  | n + 1, cs => match cs with
    | '"' :: rest => do
      let (text, rest) ← readString rest.length rest
      return (.text (String.ofList text), rest)
    | '[' :: rest => match skipSpace rest with
      | ']' :: rest => .ok (.list [], rest)
      | rest => do
        let (items, rest) ← readItems n rest
        return (.list items, rest)
    | '\x7b' :: rest => match skipSpace rest with
      | '\x7d' :: rest => .ok (.table [], rest)
      | rest => do
        let (members, rest) ← readMembers n rest
        return (.table (Ordered.ofList members), rest)
    | 'n' :: 'u' :: 'l' :: 'l' :: rest => .ok (.null, rest)
    | 't' :: 'r' :: 'u' :: 'e' :: rest => .ok (.bool true, rest)
    | 'f' :: 'a' :: 'l' :: 's' :: 'e' :: rest => .ok (.bool false, rest)
    | cs => readNumber cs

def readItems : Nat → List Char → Reading (List Native × List Char)
  | 0, _ => .error .syntaxError
  | n + 1, cs => do
    let (item, rest) ← readValue n cs
    match skipSpace rest with
    | ']' :: rest => return ([item], rest)
    | ',' :: rest => do
      let (items, rest) ← readItems n (skipSpace rest)
      return (item :: items, rest)
    | _ => .error .syntaxError

def readMembers : Nat → List Char → Reading (List (Native × Native) × List Char)
  | 0, _ => .error .syntaxError
  | n + 1, cs => match cs with
    | '"' :: rest => do
      let (name, rest) ← readString rest.length rest
      match skipSpace rest with
      | ':' :: rest => do
        let (value, rest) ← readValue n (skipSpace rest)
        let member := (Native.text (String.ofList name), value)
        match skipSpace rest with
        | '\x7d' :: rest => return ([member], rest)
        | ',' :: rest => do
          let (members, rest) ← readMembers n (skipSpace rest)
          return (member :: members, rest)
        | _ => .error .syntaxError
      | _ => .error .syntaxError
    | _ => .error .syntaxError

end

/-- The value that a text spells. Besides the standard the names of the special doubles are known. A
number without a point and an exponent is a whole number; of members with one name the last counts,
in the place of the first. Texts are taken to hold no character that is in place of a lone unit. -/
def read (s : String) : Reading Native := do
  let cs := skipSpace s.toList
  let (value, rest) ← readValue (2 * cs.length + 1) cs
  if (skipSpace rest).isEmpty then return value else .error .syntaxError

end HostBridge.Json
