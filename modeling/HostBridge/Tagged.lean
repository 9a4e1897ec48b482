import HostBridge.Failure

namespace HostBridge

/-- The tags of values without parts. -/
inductive ScalarTag where
  | integer | float | string | boolean
  deriving DecidableEq

namespace ScalarTag

def kind : ScalarTag → Kind
  | .integer => .integer
  | .float => .float
  | .string => .string
  | .boolean => .boolean

def name (t : ScalarTag) : String :=
  t.kind.name

def ofName? (s : String) : Option ScalarTag :=
  [integer, float, string, boolean].find? fun t => t.name == s

end ScalarTag

/-- A value with its tag. The payload of a scalar is not checked against the tag, and objects keep
the order of their pairs, whose keys may be any tagged values. -/
inductive Tagged where
  | scalar (tag : ScalarTag) (payload : Native)
  | array (items : List Tagged)
  | object (pairs : List (Tagged × Tagged))

namespace Tagged

instance : Inhabited Tagged := ⟨.array []⟩

/-- Induction over tagged values, where the parts of a value are the smaller ones. -/
@[elab_as_elim, induction_eliminator]
theorem inductionOn {motive : Tagged → Prop} (scalar : ∀ tag payload, motive (.scalar tag payload))
    (array : ∀ items, (∀ t ∈ items, motive t) → motive (.array items))
    (object : ∀ pairs, (∀ e ∈ pairs, motive e.1 ∧ motive e.2) → motive (.object pairs))
    (t : Tagged) : motive t := by
  have ih (u : Tagged) (_ : sizeOf u < sizeOf t) : motive u := inductionOn scalar array object u
  match t with
  | .scalar tag payload => exact scalar tag payload
  | .array items =>
    refine array items fun u hu => ih u ?_
    have := List.sizeOf_lt_of_mem hu
    simp only [Tagged.array.sizeOf_spec]
    omega
  | .object pairs =>
    refine object pairs fun ⟨k, u⟩ he => ?_
    have := List.sizeOf_lt_of_mem he
    simp only [Prod.mk.sizeOf_spec] at this
    exact ⟨ih k (by simp only [Tagged.object.sizeOf_spec]; omega),
      ih u (by simp only [Tagged.object.sizeOf_spec]; omega)⟩
termination_by sizeOf t

def kind : Tagged → Kind
  | .scalar tag _ => tag.kind
  | .array _ => .array
  | .object _ => .object

def isComposite : Tagged → Bool
  | .scalar .. => false
  | _ => true

def text (s : String) : Tagged :=
  .scalar .string (.text s)

mutual

/-- The wire form of a value: a table with one entry, from the tag to the payload. -/
def toWire : Tagged → Native
  | .scalar tag payload => .table [(.text tag.name, payload)]
  | .array items => .table [(.text "Array", .list (itemsToWire items))]
  | .object pairs => .table [(.text "Object", .list (pairsToWire pairs))]

def itemsToWire : List Tagged → List Native
  | [] => []
  | t :: ts => toWire t :: itemsToWire ts

def pairsToWire : List (Tagged × Tagged) → List Native
  | [] => []
  | (k, v) :: ps => .list [toWire k, toWire v] :: pairsToWire ps

end

mutual

/-- Reads a wire value. The first defect met from left to right is reported, with the table that
holds it. -/
def ofWire : Native → Attempt Tagged
  | .table [(.text tag, inner)] =>
    match ScalarTag.ofName? tag with
    | some t => .ok (.scalar t inner)
    | none =>
      let payload := Native.table [(.text tag, inner)]
      if tag = "Array" then
        match inner with
        | .list items | .tuple items => do return .array (← itemsOfWire items)
        | _ => .error (.ofDefect payload .arrayPayload)
      else if tag = "Object" then
        match inner with
        | .list entries | .tuple entries => do return .object (← pairsOfWire payload entries)
        | _ => .error (.ofDefect payload .objectPayload)
      else .error (.ofDefect payload (.unknownTag (.text tag)))
  | .table [(tag, inner)] => .error (.ofDefect (.table [(tag, inner)]) (.unknownTag tag))
  | .table entries => .error (.ofDefect (.table entries) (.entryCount entries.length))
  | payload => .error (.ofDefect payload .notMapping)

def itemsOfWire : List Native → Attempt (List Tagged)
  | [] => .ok []
  | w :: ws => do
    let t ← ofWire w
    return t :: (← itemsOfWire ws)

/-- Reads the entries of an object; an entry that is no pair is charged to the whole object. -/
def pairsOfWire (payload : Native) : List Native → Attempt (List (Tagged × Tagged))
  | [] => .ok []
  | .list [k, v] :: es | .tuple [k, v] :: es => do
    let key ← ofWire k
    let value ← ofWire v
    return (key, value) :: (← pairsOfWire payload es)
  | _ :: _ => .error (.ofDefect payload .objectEntry)

end

end Tagged

/-- A value as it arrives: in wire form or already tagged. -/
inductive Incoming where
  | wire (value : Native)
  | tagged (value : Tagged)

namespace Incoming

def toTagged : Incoming → Attempt Tagged
  | .wire w => Tagged.ofWire w
  | .tagged t => .ok t

/-- The kind that a value claims to be. A wire value is not read for it: its first key decides. -/
def kind? : Incoming → Option Kind
  | .tagged t => some t.kind
  | .wire (.table ((.text tag, _) :: _)) => Kind.ofName? tag
  | .wire _ => none

def isTagged : Incoming → Bool
  | .tagged _ => true
  | .wire _ => false

def toWire : Incoming → Attempt Native
  | .tagged t => .ok t.toWire
  | .wire w => .error (if w.display?.isSome then .notTagged w else .tooManyDigits)

end Incoming

end HostBridge
