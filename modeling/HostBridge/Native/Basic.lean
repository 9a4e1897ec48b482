import HostBridge.Number.Text
import HostBridge.Ordered
import HostBridge.Text.Escape

namespace HostBridge

/-- The values that callbacks see. Tables are kept in the order of their entries and have keys of
any hashable value. -/
inductive Native where
  | null
  | bool (b : Bool)
  | int (n : Int)
  | float (x : Binary64)
  /-- A text, where `Text.standIn` takes the place of each surrogate without its partner. The
  characters from U+10D800 to U+10DFFF are those, and have no value of their own. -/
  | text (s : String)
  | bytes (bs : List UInt8)
  | list (items : List Native)
  | tuple (items : List Native)
  | table (entries : List (Native × Native))

namespace Native

instance : Inhabited Native := ⟨.null⟩

/-- Induction over values, where the parts of a value are the smaller ones. -/
@[elab_as_elim, induction_eliminator]
theorem inductionOn {motive : Native → Prop} (null : motive .null)
    (bool : ∀ b, motive (.bool b)) (int : ∀ n, motive (.int n))
    (float : ∀ x, motive (.float x)) (text : ∀ s, motive (.text s))
    (bytes : ∀ bs, motive (.bytes bs))
    (list : ∀ items, (∀ v ∈ items, motive v) → motive (.list items))
    (tuple : ∀ items, (∀ v ∈ items, motive v) → motive (.tuple items))
    (table : ∀ entries, (∀ e ∈ entries, motive e.1 ∧ motive e.2) → motive (.table entries))
    (v : Native) : motive v := by
  have ih (w : Native) (_ : sizeOf w < sizeOf v) : motive w :=
    inductionOn null bool int float text bytes list tuple table w
  match v with
  | .null => exact null
  | .bool b => exact bool b
  | .int n => exact int n
  | .float x => exact float x
  | .text s => exact text s
  | .bytes bs => exact bytes bs
  | .list items =>
    refine list items fun w hw => ih w ?_
    have := List.sizeOf_lt_of_mem hw
    simp only [Native.list.sizeOf_spec]
    omega
  | .tuple items =>
    refine tuple items fun w hw => ih w ?_
    have := List.sizeOf_lt_of_mem hw
    simp only [Native.tuple.sizeOf_spec]
    omega
  | .table entries =>
    refine table entries fun ⟨k, w⟩ he => ?_
    have := List.sizeOf_lt_of_mem he
    simp only [Prod.mk.sizeOf_spec] at this
    exact ⟨ih k (by simp only [Native.table.sizeOf_spec]; omega),
      ih w (by simp only [Native.table.sizeOf_spec]; omega)⟩
termination_by sizeOf v

/-- The values that a value directly holds, keys included. -/
def components : Native → List Native
  | .list items | .tuple items => items
  | .table entries => entries.flatMap fun e => [e.1, e.2]
  | _ => []

/-- A property of a value and of all that it holds, at whatever depth. -/
inductive Everywhere (p : Native → Prop) : Native → Prop
  | node (here : p v) (inside : ∀ u ∈ v.components, Everywhere p u) : Everywhere p v

theorem Everywhere.here {p : Native → Prop} {v : Native} (h : v.Everywhere p) : p v := by
  cases h with
  | node here _ => exact here

theorem Everywhere.inside {p : Native → Prop} {v u : Native} (h : v.Everywhere p)
    (hu : u ∈ v.components) : u.Everywhere p := by
  cases h with
  | node _ inside => exact inside u hu

theorem Everywhere.imp₂ {p q r : Native → Prop} (h : ∀ v, p v → q v → r v) {v : Native}
    (hp : v.Everywhere p) (hq : v.Everywhere q) : v.Everywhere r := by
  induction hp with
  | node here _ ih => exact .node (h _ here hq.here) fun u hu => ih u hu (hq.inside hu)

/-- A value without parts. -/
theorem Everywhere.leaf {p : Native → Prop} {v : Native} (here : p v) (alone : v.components = []) :
    v.Everywhere p :=
  .node here fun _ hu => absurd hu (alone ▸ List.not_mem_nil)

theorem Everywhere.ofEntries {p : Native → Prop} {entries : List (Native × Native)}
    (here : p (.table entries)) (keys : ∀ e ∈ entries, e.1.Everywhere p)
    (values : ∀ e ∈ entries, e.2.Everywhere p) : (table entries).Everywhere p := by
  refine .node here fun u hu => ?_
  obtain ⟨e, he, hu⟩ := List.mem_flatMap.mp hu
  simp only [List.mem_cons, List.not_mem_nil, or_false] at hu
  rcases hu with rfl | rfl
  · exact keys e he
  · exact values e he

theorem Everywhere.ofEntry {p : Native → Prop} {k v : Native} (here : p (.table [(k, v)]))
    (key : k.Everywhere p) (value : v.Everywhere p) : (table [(k, v)]).Everywhere p :=
  .ofEntries here (List.forall_mem_singleton.mpr key) (List.forall_mem_singleton.mpr value)

theorem Everywhere.entry {p : Native → Prop} {entries : List (Native × Native)}
    (h : (table entries).Everywhere p) {e : Native × Native} (he : e ∈ entries) :
    e.1.Everywhere p ∧ e.2.Everywhere p :=
  ⟨h.inside (List.mem_flatMap.mpr ⟨e, he, by simp⟩),
    h.inside (List.mem_flatMap.mpr ⟨e, he, by simp⟩)⟩

/-- The whole number that a boolean or a whole number counts as. -/
def asInt? : Native → Option Int
  | .bool b => some (if b then 1 else 0)
  | .int n => some n
  | _ => none

def sameInt (n : Int) : Native → Bool
  | .float y => y.sameInt n
  | b => b.asInt? == some n

mutual

/-- Whether two values are one, as keys of tables and items of sequences are. Booleans, whole
numbers and doubles are compared as exact numbers, so one is equal to true; no number is equal to
NaN, but where both are the same object they are one. A list never equals a tuple, and the order of
a table does not count. -/
def same : Native → Native → Bool
  | .null, .null => true
  | .text s, .text t => s == t
  | .bytes s, .bytes t => s == t
  | .float x, .float y => x.same y
  | .float x, b => b.asInt?.any x.sameInt
  | .bool a, b => sameInt (if a then 1 else 0) b
  | .int n, b => sameInt n b
  | .list xs, .list ys => sameItems xs ys
  | .tuple xs, .tuple ys => sameItems xs ys
  | .table xs, .table ys => xs.length == ys.length && sameEntries xs ys
  | _, _ => false

def sameItems : List Native → List Native → Bool
  | [], [] => true
  | x :: xs, y :: ys => same x y && sameItems xs ys
  | _, _ => false

/-- Whether each entry of the first table has an equal one in the second. -/
def sameEntries : List (Native × Native) → List (Native × Native) → Bool
  | [], _ => true
  | (k, v) :: xs, ys => ys.any (fun e => same k e.1 && same v e.2) && sameEntries xs ys

end

instance : BEq Native := ⟨same⟩

mutual

/-- Whether a value can be a key: it is and holds no list and no table. -/
def hashable : Native → Bool
  | .list _ | .table _ => false
  | .tuple items => allHashable items
  | _ => true

def allHashable : List Native → Bool
  | [] => true
  | x :: xs => hashable x && allHashable xs

end

/-- The items of a list or a tuple. -/
def sequence? : Native → Option (List Native)
  | .list items | .tuple items => some items
  | _ => none

/-- Whether a value counts as true: numbers other than zero, and what is not empty. -/
def truthy : Native → Bool
  | .null => false
  | .bool b => b
  | .int n => n != 0
  | .float x => !x.isZero
  | .text s => !s.isEmpty
  | .bytes bs => !bs.isEmpty
  | .list items | .tuple items => !items.isEmpty
  | .table entries => !entries.isEmpty

mutual

/-- The text of a value as it stands inside a message. -/
def display? : Native → Option String
  | .null => some "None"
  | .bool b => some (if b then "True" else "False")
  | .int n => decimalText? n
  | .float x => some x.text
  | .text s => some (Text.quoted s)
  | .bytes bs => some (Text.quotedBytes bs)
  | .list items => do return "[" ++ ", ".intercalate (← displayItems? items) ++ "]"
  | .tuple [item] => do return "(" ++ (← display? item) ++ ",)"
  | .tuple items => do return "(" ++ ", ".intercalate (← displayItems? items) ++ ")"
  | .table entries => do return "\x7b" ++ ", ".intercalate (← displayEntries? entries) ++ "\x7d"

def displayItems? : List Native → Option (List String)
  | [] => some []
  | x :: xs => do return (← display? x) :: (← displayItems? xs)

def displayEntries? : List (Native × Native) → Option (List String)
  | [] => some []
  | (k, v) :: es => do
    return ((← display? k) ++ ": " ++ (← display? v)) :: (← displayEntries? es)

end

/-- The text of a value on its own: a text is itself, without quotes. -/
def plain? : Native → Option String
  | .text s => some s
  | v => display? v

end Native

end HostBridge
