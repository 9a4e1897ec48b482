import HostBridge.Json.Writer

namespace HostBridge

/-- The text of a double as the host writes it: a whole number without a point, and the special
values by name. -/
def numberText (x : Binary64) : String :=
  match x.toInt? with
  | some n => decimalText n
  | none => match x with
    | .nan _ => "NaN"
    | .infinite negative => signed negative "Infinity"
    | x => x.text

namespace Native

mutual

/-- The value that JSON holds for a native one: tuples are lists, doubles that are whole numbers
are those, and doubles that are no numbers are null. Keys are simplified and may become equal. -/
def jsonImage : Native → Attempt Native
  | .float x => .ok (match x.toInt? with
    | some n => .int n
    | none => match x with
      | .finite .. => .float x
      | _ => .null)
  | .list items | .tuple items => do return .list (← jsonItems items)
  | .table entries => do return .table (Ordered.ofList (← jsonEntries entries))
  | v => .ok v

def jsonItems : List Native → Attempt (List Native)
  | [] => .ok []
  | v :: vs => do
    let image ← jsonImage v
    return image :: (← jsonItems vs)

/-- Keys become texts, except null, booleans and whole numbers, which are named when they are
written. A composite key becomes its own canonical text. -/
def jsonEntries : List (Native × Native) → Attempt (List (Native × Native))
  | [] => .ok []
  | (k, v) :: es => do
    let key ← match k with
      | .float x => .ok (.text (numberText x))
      | .bytes bs => .ok (.text (Text.quotedBytes bs))
      | .null | .bool _ | .int _ | .text _ => .ok k
      | .list _ | .tuple _ | .table _ => do
        let image ← jsonImage k
        let text ← Json.write Json.compact image
        .ok (.text text)
    let image ← jsonImage v
    return (key, image) :: (← jsonEntries es)

end

/-- Compact JSON of the image of a value among the values that JSON knows. -/
def canonicalText (v : Native) : Attempt String := do
  Json.write Json.compact (← v.jsonImage)

end Native

end HostBridge
