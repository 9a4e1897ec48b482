import HostBridge.Failure

namespace HostBridge.Native

/-- Numbers are compared exactly; other values here have no order. -/
def lessNumber? : Native → Native → Option Bool
  | .float x, .float y => some (x.lt y)
  | .float x, b => b.asInt?.map x.ltInt
  | a, .float y => a.asInt?.map fun m => Binary64.intLt m y
  | a, b => do return decide ((← a.asInt?) < (← b.asInt?))

mutual

/-- Whether the first value is below the second, if they can be compared. -/
def less? : Native → Native → Option Bool
  | .text s, .text t => some (decide (s < t))
  | .bytes s, .bytes t => some (decide (s.map UInt8.toNat < t.map UInt8.toNat))
  | .list xs, .list ys => lessItems? xs ys
  | .tuple xs, .tuple ys => lessItems? xs ys
  | a, b => lessNumber? a b

def lessItems? : List Native → List Native → Option Bool
  | _, [] => some false
  | [], _ :: _ => some true
  | x :: xs, y :: ys => if same x y then lessItems? xs ys else less? x y

end

/-- The greatest of some values, the first of equal ones. -/
def greatest? (best : Native) : List Native → Option Native
  | [] => some best
  | v :: vs => do greatest? (if ← less? best v then v else best) vs

def asFloat (v : Native) : Attempt Binary64 :=
  match v, v.asInt? with
  | .float x, _ => .ok x
  | _, some n => match Binary64.ofInt? n with
    | some x => .ok x
    | none => .error .overflow
  | _, none => .error .badOperand

def isNumber : Native → Bool
  | .float _ | .int _ | .bool _ => true
  | _ => false

/-- The sum of numbers, or two texts, byte strings, lists or tuples joined. -/
def plus : Native → Native → Attempt Native
  | .text s, .text t => .ok (.text (s ++ t))
  | .bytes s, .bytes t => .ok (.bytes (s ++ t))
  | .list xs, .list ys => .ok (.list (xs ++ ys))
  | .tuple xs, .tuple ys => .ok (.tuple (xs ++ ys))
  | a, b => match a.asInt?, b.asInt? with
    | some m, some n => .ok (.int (m + n))
    | _, _ => do
      if !(a.isNumber && b.isNumber) then .error .badOperand
      else return .float ((← a.asFloat).add (← b.asFloat))

/-- The quotient of two numbers as a double; that of whole numbers is rounded only once. -/
def quotient (a b : Native) : Attempt Native :=
  match a.asInt?, b.asInt? with
  | some m, some n =>
    if n = 0 then .error .divisionByZero
    else match Binary64.ofRatio (decide (m < 0) != decide (n < 0)) m.natAbs n.natAbs with
      | .infinite _ => .error .overflow
      | x => .ok (.float x)
  | _, _ => do
    if !(a.isNumber && b.isNumber) then .error .badOperand
    else
      let x ← a.asFloat
      let y ← b.asFloat
      if y.isZero then .error .divisionByZero else return .float (x.div y)

/-- The parts of a value that can be gone through; those of a table are its keys. -/
def parts? : Native → Option (List Native)
  | .list items | .tuple items => some items
  | .text s => some (s.toList.map fun c => .text (String.singleton c))
  | .bytes bs => some (bs.map fun b => .int b.toNat)
  | .table entries => some (entries.map (·.1))
  | _ => none

/-- The position that a key stands for among some items. -/
def position (size : Nat) (key : Native) : Attempt Nat :=
  match key.asInt? with
  | none => .error .badOperand
  | some i =>
    let fromStart := if i < 0 then i + size else i
    if 0 ≤ fromStart ∧ fromStart < size then .ok fromStart.toNat else .error .outOfRange

/-- The value under a key of a table, or the part at a position of another value. -/
def item (v key : Native) : Attempt Native :=
  match v with
  | .table entries =>
    if !key.hashable then .error .unhashableKey
    else match Ordered.get? entries key with
      | some found => .ok found
      | none => .error .missingKey
  | _ => match parts? v with
    | none => .error .badOperand
    | some parts => do
      let n ← position parts.length key
      match parts[n]? with
      | some part => return part
      | none => .error .outOfRange

/-- Whether a whole number could be a position at all, in a sequence of any size. -/
def isPosition (i : Int) : Bool :=
  -(Nat.pow 2 63 : Int) ≤ i && i < (Nat.pow 2 63 : Int)

/-- Whether the item under a key can be replaced: any key of a table, and a position of a list. In
other sequences only a number that is no position is told apart. -/
def replaceable (v key : Native) : Attempt Unit :=
  match v with
  | .table _ => if key.hashable then .ok () else .error .unhashableKey
  | .list items => (position items.length key).map fun _ => ()
  | .text _ | .bytes _ | .tuple _ =>
    .error (if key.asInt?.all isPosition then .badOperand else .outOfRange)
  | _ => .error .badOperand

end HostBridge.Native
