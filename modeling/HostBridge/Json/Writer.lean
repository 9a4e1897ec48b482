import HostBridge.Failure
import HostBridge.Text.Character

namespace HostBridge.Json

/-- How a text is laid out: what stands between items and after a member's name, the indent of each
level on lines of its own if there is one, and whether only ASCII characters are written. -/
structure Style where
  item : String
  member : String
  indent : Option Nat
  ascii : Bool

/-- No spaces, all characters as they are. -/
def compact : Style := ⟨",", ":", none, false⟩

/-- On one line with spaces, in ASCII. -/
def spaced : Style := ⟨", ", ": ", none, true⟩

/-- Two spaces of indent for each level, in ASCII. -/
def indented : Style := ⟨",", ": ", some 2, true⟩

def unitEscape (n : Nat) : List Char :=
  '\\' :: 'u' :: Text.hexPadded 4 n

/-- A character by its code units. In place of a unit without its partner stands that unit alone,
even where a partner of its own follows. -/
def charEscape (c : Char) : List Char :=
  ((Text.loneUnit? c).elim (Text.units c) ([·])).flatMap unitEscape

/-- How a character stands in a JSON string. -/
def stringChar (ascii : Bool) (c : Char) : List Char :=
  if c = '"' ∨ c = '\\' then ['\\', c]
  else if c = '\n' then ['\\', 'n']
  else if c = '\r' then ['\\', 'r']
  else if c = '\t' then ['\\', 't']
  else if c = '\x08' then ['\\', 'b']
  else if c = '\x0c' then ['\\', 'f']
  else if c.toNat < 0x20 ∨ (ascii ∧ 0x7f ≤ c.toNat) then charEscape c
  else [c]

def stringChars (ascii : Bool) (cs : List Char) : List Char :=
  cs.flatMap (stringChar ascii)

def stringText (ascii : Bool) (s : String) : String :=
  String.ofList ('"' :: stringChars ascii s.toList ++ ['"'])

def intText (n : Int) : Attempt String :=
  match decimalText? n with
  | some s => .ok s
  | none => .error .tooManyDigits

def floatText (x : Binary64) : Attempt String :=
  match x with
  | .finite .. => .ok x.text
  | _ => .error .noJsonForm

/-- The name of a member; keys that are not texts are named by their JSON text or their display. -/
def memberName : Native → Attempt String
  | .text s => .ok s
  | .null => .ok "null"
  | .bool b => .ok (if b then "true" else "false")
  | .int n => intText n
  | .float x => floatText x
  | v => match v.display? with
    | some s => .ok s
    | none => .error .tooManyDigits

/-- The line break before the parts at a depth, where the style has lines. -/
def lineBreak (style : Style) (depth : Nat) : String :=
  match style.indent with
  | none => ""
  | some n => "\n" ++ String.ofList (List.replicate (n * depth) ' ')

def enclose (style : Style) (depth : Nat) (opening closing : String) (parts : List String) :
    String :=
  if parts.isEmpty then opening ++ closing
  else
    let gap := lineBreak style (depth + 1)
    opening ++ gap ++ (style.item ++ gap).intercalate parts ++ lineBreak style depth ++ closing

mutual

/-- The JSON text of a value at a depth; byte strings are written as the text that shows them. -/
def writeAt (style : Style) (depth : Nat) : Native → Attempt String
  | .null => .ok "null"
  | .bool b => .ok (if b then "true" else "false")
  | .int n => intText n
  | .float x => floatText x
  | .text s => .ok (stringText style.ascii s)
  | .bytes bs => .ok (stringText style.ascii (Text.quotedBytes bs))
  | .list items | .tuple items => do
    return enclose style depth "[" "]" (← writeItems style (depth + 1) items)
  | .table entries => do
    return enclose style depth "\x7b" "\x7d" (← writeMembers style (depth + 1) entries)

def writeItems (style : Style) (depth : Nat) : List Native → Attempt (List String)
  | [] => .ok []
  | v :: vs => do
    let text ← writeAt style depth v
    return text :: (← writeItems style depth vs)

def writeMembers (style : Style) (depth : Nat) : List (Native × Native) → Attempt (List String)
  | [] => .ok []
  | (k, v) :: es => do
    let name ← memberName k
    let text ← writeAt style depth v
    return (stringText style.ascii name ++ style.member ++ text) ::
      (← writeMembers style depth es)

end

/-- The JSON text of a value. Members stand in the order of the table. A number that JSON cannot
express, and a whole number over the digit limit, has no text. -/
def write (style : Style) (v : Native) : Attempt String :=
  writeAt style 0 v

end HostBridge.Json
