import HostBridge.Canonical
import HostBridge.Number.Literal

namespace HostBridge

namespace Number

def toNative : Number → Native
  | .int n => .int n
  | .float x => .float x

/-- The greatest whole number not above a number; NaN and the infinities stay. -/
def floor : Number → Number
  | .int n => .int n
  | .float x => match x.floor? with
    | some n => .int n
    | none => .float x

end Number

namespace Native

/-- The number a value counts as: a list or tuple of one item is that item, an empty one and null
are zero. -/
def toNumber : Native → Number
  | .null => .int 0
  | .bool b => .int (if b then 1 else 0)
  | .int n => .int n
  | .float x => .float x
  | .text s => .ofText s
  | .list [] | .tuple [] => .int 0
  | .list [v] | .tuple [v] => toNumber v
  | _ => .nan

/-- The truth of a value; unlike other doubles that are not zero, NaN is false. -/
def toBool : Native → Bool
  | .float (.nan _) => false
  | v => v.truthy

/-- The text of a value: a text itself, a number as the host writes it, and canonical JSON where a
value has parts. -/
def toText : Native → Attempt String
  | .null => .ok "null"
  | .bool b => .ok (if b then "true" else "false")
  | .int n => Json.intText n
  | .float x => .ok (numberText x)
  | .text s => .ok s
  | .bytes bs => .ok (Text.quotedBytes bs)
  | v => v.canonicalText

/-- The items of a value: those of a list or tuple, the values of a table, or the value itself. -/
def toItems : Native → List Native
  | .list items | .tuple items => items
  | .table entries => entries.map (·.2)
  | v => [v]

/-- Items under their positions as texts, counted from a start. -/
def numbered (start : Nat) : List Native → List (Native × Native)
  | [] => []
  | v :: vs => (.text (decimalText start), v) :: numbered (start + 1) vs

/-- The entries of a value: those of a table, or its items under their positions. -/
def toEntries : Native → List (Native × Native)
  | .table entries => entries
  | v => numbered 0 v.toItems

/-- A value as one of a kind. Values that do not suit a kind degrade: what is no number becomes NaN,
what is no list becomes a list of one item. Only the text of a whole number over the digit limit is
refused. -/
def coerce (v : Native) : Kind → Attempt Native
  | .integer => .ok v.toNumber.floor.toNative
  | .float | .numeric => .ok v.toNumber.toNative
  | .boolean => .ok (.bool v.toBool)
  | .string => do return .text (← v.toText)
  | .array => .ok (.list v.toItems)
  | .object => .ok (.table v.toEntries)
  | .any => .ok v

end Native

end HostBridge
