import HostBridge.Text.Character

namespace HostBridge.Text

/-- Hexadecimal digits, padded with zeros to a width. -/
def hexPadded (width n : Nat) : List Char :=
  let ds := Nat.toDigits 16 n
  List.replicate (width - ds.length) '0' ++ ds

def quoteFor (cs : List Char) : Char :=
  if cs.contains '\'' && !cs.contains '"' then '"' else '\''

/-- The code point of a character as an escape, in the shortest of the widths; or the unit that it
is in place of. -/
def codeEscape (c : Char) : List Char :=
  let n := (loneUnit? c).getD c.toNat
  if n ≤ 0xff then '\\' :: 'x' :: hexPadded 2 n
  else if n ≤ 0xffff then '\\' :: 'u' :: hexPadded 4 n
  else '\\' :: 'U' :: hexPadded 8 n

def escaped (quote c : Char) : List Char :=
  if c = quote ∨ c = '\\' then ['\\', c]
  else if c = '\n' then ['\\', 'n']
  else if c = '\r' then ['\\', 'r']
  else if c = '\t' then ['\\', 't']
  else if isPrintable c then [c]
  else codeEscape c

/-- A text as it is shown inside a message: between quotes, and escaped where it is not printable. -/
def quoted (s : String) : String :=
  let cs := s.toList
  let quote := quoteFor cs
  String.ofList (quote :: cs.flatMap (escaped quote) ++ [quote])

/-- A text with escapes in place of the characters beyond ASCII. -/
def asciiText (s : String) : String :=
  String.ofList (s.toList.flatMap fun c => if c.toNat < 0x80 then [c] else codeEscape c)

/-- A text as a stream for errors writes it: a unit without its partner has no encoding, and its
escape is written. -/
def escapeUnits (s : String) : String :=
  String.ofList (s.toList.flatMap fun c => if (loneUnit? c).isSome then codeEscape c else [c])

/-- How a byte stands in a quoted byte string: only the printable ASCII characters are
themselves. -/
def escapedByte (quote : Char) (b : UInt8) : List Char :=
  if b.toNat < 0x7f then escaped quote (Char.ofNat b.toNat)
  else '\\' :: 'x' :: hexPadded 2 b.toNat

def quotedBytes (bs : List UInt8) : String :=
  let quote := quoteFor (bs.map fun b => Char.ofNat b.toNat)
  String.ofList ('b' :: quote :: bs.flatMap (escapedByte quote) ++ [quote])

def isParameter (c : Char) : Bool :=
  c == ';' || c == '?' || c.isDigit

/-- The text after a command, read from behind its opening bracket. -/
def afterCommand? (cs : List Char) : Option (List Char) :=
  match cs.dropWhile isParameter with
  | c :: rest => if c.isAlpha then some rest else none
  | [] => none

/-- A text without its commands, read with fuel of its length. -/
def dropCommands : Nat → List Char → List Char
  | 0, _ | _, [] => []
  | n + 1, '\x1b' :: '[' :: cs => match afterCommand? cs with
    | some rest => dropCommands n rest
    | none => '\x1b' :: dropCommands n ('[' :: cs)
  | n + 1, c :: cs => c :: dropCommands n cs

/-- A text without the commands to a terminal in it. -/
def withoutCommands (s : String) : String :=
  String.ofList (dropCommands s.length s.toList)

end HostBridge.Text
