import HostBridge.Log.Layout

namespace HostBridge.Log

/-- A number in a place: written out, or asked for as the next value. -/
inductive Measure where
  | digits (n : Nat)
  | asked

/-- The key of a place; its bracket may be left open at the end of the message. -/
inductive Key where
  | absent
  | named (key : String)
  | unclosed

/-- A place; the letter is missing where the message ends too early. -/
structure Place where
  key : Key
  layout : Layout
  width : Measure
  precision : Option Measure
  letter : Option Char

/-- A part of a message: a character as it is, or a place for a value. A place begins with a percent
sign and ends with the letter that tells how its value is written; between them may stand a key in
brackets, flags, a width and, after a point, a precision. -/
inductive Piece where
  | text (c : Char)
  | place (p : Place)

namespace Template

/-- The text up to the bracket that closes it at a depth, and the rest after that bracket. -/
def takeBracket? : Nat → List Char → Option (List Char × List Char)
  | _, [] => none
  | 0, ')' :: cs => some ([], cs)
  | depth + 1, ')' :: cs => (takeBracket? depth cs).map fun (key, rest) => (')' :: key, rest)
  | depth, c :: cs =>
    (takeBracket? (if c = '(' then depth + 1 else depth) cs).map fun (key, rest) =>
      (c :: key, rest)

def takeKey : List Char → Key × List Char
  | '(' :: cs => match takeBracket? 0 cs with
    | some (key, rest) => (.named (String.ofList key), rest)
    | none => (.unclosed, [])
  | cs => (.absent, cs)

def takeFlags : List Char → Layout × List Char
  | '-' :: cs => let (l, rest) := takeFlags cs; ({ l with left := true }, rest)
  | '+' :: cs => let (l, rest) := takeFlags cs; ({ l with plus := true }, rest)
  | ' ' :: cs => let (l, rest) := takeFlags cs; ({ l with blank := true }, rest)
  | '#' :: cs => let (l, rest) := takeFlags cs; ({ l with marked := true }, rest)
  | '0' :: cs => let (l, rest) := takeFlags cs; ({ l with zero := true }, rest)
  | cs => (.plain, cs)

/-- A measure; one that is not there is zero. -/
def takeMeasure : List Char → Measure × List Char
  | '*' :: cs => (.asked, cs)
  | cs => (.digits (Nat.ofDigitChars 10 (cs.takeWhile Char.isDigit) 0), cs.dropWhile Char.isDigit)

def takePrecision : List Char → Option Measure × List Char
  | '.' :: cs => let (m, rest) := takeMeasure cs; (some m, rest)
  | cs => (none, cs)

/-- The rest after a letter for the size of a number, which means nothing. -/
def skipSize : List Char → List Char
  | c :: cs => if c = 'h' ∨ c = 'l' ∨ c = 'L' then cs else c :: cs
  | [] => []

/-- A place behind its percent sign, and the rest after its letter. -/
def takePlace (cs : List Char) : Place × List Char :=
  let (key, cs) := takeKey cs
  let (layout, cs) := takeFlags cs
  let (width, cs) := takeMeasure cs
  let (precision, cs) := takePrecision cs
  match skipSize cs with
  | [] => (⟨key, layout, width, precision, none⟩, [])
  | letter :: rest => (⟨key, layout, width, precision, some letter⟩, rest)

/-- The parts of a message, read with fuel of its length. Two percent signs stand for one. -/
def pieces : Nat → List Char → List Piece
  | 0, _ | _, [] => []
  | n + 1, '%' :: '%' :: cs => .text '%' :: pieces n cs
  | n + 1, '%' :: cs => let (p, rest) := takePlace cs; .place p :: pieces n rest
  | n + 1, c :: cs => .text c :: pieces n cs

end Template

/-- The values for the places: those that are left, and the table that keys refer to. -/
structure Supply where
  table : Option (Ordered Native Native)
  values : List Native

namespace Supply

/-- A single table that is not empty is what keys refer to, and is a value as a whole. -/
def ofValues : List Native → Supply
  | [.table (e :: es)] => { table := some (e :: es), values := [.table (e :: es)] }
  | values => { table := none, values }

def next (s : Supply) : Attempt (Native × Supply) :=
  match s.values with
  | v :: vs => .ok (v, { s with values := vs })
  | [] => .error .badOperand

/-- The next value as a whole number, which keeps to a limit on both sides of zero. -/
def nextMeasure (s : Supply) (limit : Nat) : Attempt (Int × Supply) := do
  let (v, s) ← s.next
  let n ← Layout.exact v
  if -(limit : Int) ≤ n ∧ n < limit then return (n, s) else .error .overflow

/-- The value under a key becomes the only one that is left. -/
def select (s : Supply) : Key → Attempt Supply
  | .absent => .ok s
  | key => match s.table, key with
    | none, _ => .error .badOperand
    | some table, .named key => match table.get? (.text key) with
      | some v => .ok { s with values := [v] }
      | none => .error .missingKey
    | some _, _ => .error .badFormat

end Supply

namespace Place

def widthLimit : Nat := Nat.pow 2 63

def precisionLimit : Nat := Nat.pow 2 31

/-- A layout with its width; one that is asked for and negative puts the value to the left. -/
def withWidth (p : Place) (s : Supply) : Attempt (Layout × Supply) :=
  match p.width with
  | .digits n =>
    if n < widthLimit then .ok ({ p.layout with width := n }, s) else .error .badFormat
  | .asked => do
    let (n, s) ← s.nextMeasure widthLimit
    return ({ p.layout with width := n.natAbs, left := p.layout.left || n < 0 }, s)

/-- A layout with its precision; one that is asked for and negative is zero. -/
def withPrecision (p : Place) (l : Layout) (s : Supply) : Attempt (Layout × Supply) :=
  match p.precision with
  | none => .ok (l, s)
  | some (.digits n) =>
    if n < precisionLimit then .ok ({ l with precision := some n }, s) else .error .badFormat
  | some .asked => do
    let (n, s) ← s.nextMeasure precisionLimit
    return ({ l with precision := some n.toNat }, s)

def fill (p : Place) (s : Supply) : Attempt (List Char × Supply) := do
  let s ← s.select p.key
  let (l, s) ← p.withWidth s
  let (l, s) ← p.withPrecision l s
  match p.letter with
  | none => .error .badFormat
  | some letter =>
    let (v, s) ← s.next
    return (← l.fill (← l.write letter v), s)

end Place

/-- Fills the places from left to right. No value may be missing, and none of those that are not in
a table be left over. -/
def fill : List Piece → Supply → Attempt (List Char)
  | [], s => if s.table.isNone && !s.values.isEmpty then .error .badOperand else .ok []
  | .text c :: ps, s => do return c :: (← fill ps s)
  | .place p :: ps, s => do
    let (text, s) ← p.fill s
    return text ++ (← fill ps s)

/-- A message with its values; without values it is not looked into. -/
def message (template : String) (values : List Native) : Attempt String :=
  if values.isEmpty then .ok template
  else do
    let text ← fill (Template.pieces template.length template.toList) (.ofValues values)
    return String.ofList text

end HostBridge.Log
