import HostBridge.Coercion
import HostBridge.Tagged

namespace HostBridge

namespace Native

/-- The tag of a double: whole numbers are integers, and NaN is no usable number. -/
def tagFloat (x : Binary64) : Tagged :=
  match x.toInt? with
  | some n => .scalar .integer (.int n)
  | none => match x with
    | .nan _ => .scalar .boolean (.bool false)
    | x => .scalar .float (.float x)

mutual

/-- Tags a value by its structure. What is neither a sequence, a table, a text, a number nor a
boolean becomes false. -/
def tag : Native → Tagged
  | .list items | .tuple items => .array (tagItems items)
  | .table entries => .object (tagEntries entries)
  | .text s => .scalar .string (.text s)
  | .int n => .scalar .integer (.int n)
  | .float x => tagFloat x
  | .bool b => .scalar .boolean (.bool b)
  | .null | .bytes _ => .scalar .boolean (.bool false)

def tagItems : List Native → List Tagged
  | [] => []
  | v :: vs => tag v :: tagItems vs

def tagEntries : List (Native × Native) → List (Tagged × Tagged)
  | [] => []
  | (k, v) :: es => (tag k, tag v) :: tagEntries es

end

def wrap (v : Native) (kind : Kind) : Attempt Tagged := do
  return (← v.coerce kind).tag

theorem tagItems_eq_map (items : List Native) : tagItems items = items.map tag := by
  induction items with
  | nil => rfl
  | cons v vs ih => simp [tagItems, ih]

theorem tagEntries_eq_map (entries : List (Native × Native)) :
    tagEntries entries = entries.map fun e => (e.1.tag, e.2.tag) := by
  induction entries with
  | nil => rfl
  | cons e es ih => simp [tagEntries, ih]

@[simp]
theorem wrap_any (v : Native) : v.wrap .any = .ok v.tag := rfl

end Native

namespace Tagged

/-- The native key for a tagged one whose bare value is given: a key with parts becomes its
canonical text. -/
def nativeKey (key : Tagged) (bare : Native) : Attempt Native :=
  if key.isComposite then do return .text (← bare.canonicalText) else .ok bare

mutual

def unwrap : Tagged → Attempt Native
  | .scalar _ payload => .ok payload
  | .array items => do return .list (← unwrapItems items)
  | .object pairs => do return .table (← unwrapPairs pairs [])

def unwrapItems : List Tagged → Attempt (List Native)
  | [] => .ok []
  | t :: ts => do
    let v ← unwrap t
    return v :: (← unwrapItems ts)

/-- Enters pairs into a table one after the other. A key that cannot be one is refused only after
its value was found. -/
def unwrapPairs : List (Tagged × Tagged) → Ordered Native Native → Attempt (Ordered Native Native)
  | [], table => .ok table
  | (k, v) :: ps, table => do
    let bare ← unwrap k
    let key ← k.nativeKey bare
    let value ← unwrap v
    if key.hashable then unwrapPairs ps (table.insert key value)
    else .error .unhashableKey

end

end Tagged

/-- The native value that comes back when a value is wrapped for a kind and unwrapped again. -/
def Native.marshal (v : Native) (kind : Kind) : Attempt Native := do
  (← v.wrap kind).unwrap

def Incoming.unwrap (a : Incoming) : Attempt Native := do
  (← a.toTagged).unwrap

end HostBridge
