import HostBridge.Native.Operation
import HostBridge.Parameter

namespace HostBridge

/-- The variables of the host as native values. -/
abbrev Variables := Ordered Native Native

/-- What a binding runs. A callback that takes the state is handed the variables of the host as a
table, and leaves a changed table behind whether it succeeds or not. The table is its own, but a
list in it may be one that the host holds too, and then a change of the list itself reaches the host
at once. -/
structure Callback where
  /-- Whether a binding hands the variables over. -/
  takesState : Bool
  /-- The result for positional arguments and the variables, if they are handed over; and the
  variables as they are left. -/
  run : List Native → Option Variables → Attempt Native × Variables
  /-- The lists among the variables that a run changes in place, by variable, with their new
  items. -/
  edits : List Native → Variables → Ordered Native (List Native) := fun _ _ => []

namespace Callback

def ofFunction (f : List Native → Attempt Native) : Callback where
  takesState := false
  run args vars := (f args, vars.getD [])

/-- What is left when a binding runs a callback: one that does not take the variables cannot change
them. -/
def apply (c : Callback) (args : List Native) (vars : Variables) : Attempt Native × Variables :=
  if c.takesState then c.run args (some vars) else ((c.run args none).1, vars)

def edited (c : Callback) (args : List Native) (vars : Variables) :
    Ordered Native (List Native) :=
  if c.takesState then c.edits args vars else []

end Callback

/-- The values a host keeps between calls, by variable. -/
abbrev Store := Ordered Native Tagged

namespace Store

/-- The variables as a callback sees them. -/
def read : Store → Attempt Variables
  | [] => .ok []
  | (k, t) :: es => do
    let v ← t.unwrap
    return (k, v) :: (← read es)

/-- The contents that variables are written back as. -/
def ofVariables (vars : Variables) : Store :=
  vars.map fun e => (e.1, e.2.tag)

/-- A tagged value after its list was changed in place. Only the payload of a scalar is the list
that callbacks see; for an array they see a list of their own. -/
def withList (t : Tagged) (items : Option (List Native)) : Tagged :=
  match t, items with
  | .scalar tag (.list _), some items => .scalar tag (.list items)
  | t, _ => t

def edit (s : Store) (edits : Ordered Native (List Native)) : Store :=
  s.map fun e => (e.1, withList e.2 (edits.get? e.1))

end Store

inductive Role where
  | function | decorator
  deriving DecidableEq

/-- What the host calls a binding, apart from its name. -/
def Role.marker : Role → String
  | .function => "lavendeuxfunction_"
  | .decorator => "lavendeuxdecorator_"

/-- A name without the sign that marks decorators in the host's language. -/
def bareName (name : String) : String :=
  String.ofList (name.toList.filter (· != '@'))

/-- The identifier by which the host calls a binding. -/
def registeredName (marker name : String) : String :=
  marker ++ bareName name

/-- A name given as a native value; only texts are names. -/
def nameOf : Native → Attempt String
  | .text s => .ok s
  | .bytes _ => .error .badOperand
  | _ => .error .missingOperation

/-- A callback with a name, declared parameters and a declared kind of result. A function takes any
number of parameters; a decorator looks at one value and answers text. -/
structure Binding where
  role : Role
  /-- The name, free of decorator signs. -/
  name : String
  callback : Callback
  result : Kind
  parameters : List Parameter
  /-- Set by the first optional parameter: only optional ones may follow. -/
  closed : Bool
  /-- The store that holds the host's variables, by its number. -/
  store : Option Nat

namespace Binding

def function (name : String) (callback : Callback) (result : Kind) (store : Option Nat) : Binding :=
  { role := .function, name := bareName name, callback, result, parameters := [], closed := false,
    store }

def decorator (name : String) (kind : Kind) (callback : Callback) (store : Option Nat) : Binding :=
  { role := .decorator, name := bareName name, callback, result := .string,
    parameters := [⟨kind, false⟩], closed := false, store }

def registeredAs (b : Binding) : String :=
  b.role.marker ++ b.name

def addParameter (b : Binding) (kind : Native) (optional : Bool) : Attempt Binding :=
  if b.closed && !optional then .error (.requiredAfterOptional b.name)
  else do
    let kind ← kindOf kind
    return { b with
      parameters := b.parameters ++ [⟨kind, optional⟩]
      closed := b.closed || optional }

theorem addParameter_store {b c : Binding} {kind : Native} {optional : Bool}
    (h : b.addParameter kind optional = .ok c) : c.store = b.store := by
  unfold addParameter at h
  split at h
  · cases h
  · obtain ⟨_, _, he⟩ := Attempt.bind_ok.mp h
    cases he
    rfl

/-- How many arguments are needed: all but the last, if that one is optional. -/
def required (b : Binding) : Nat :=
  if (b.parameters.getLast?).any (·.optional) then b.parameters.length - 1
  else b.parameters.length

/-- The position, counted from one, and the kind of the first parameter that refuses its
argument. -/
def firstRefused? (position : Nat) : List Parameter → List Incoming → Option (Nat × Kind)
  | p :: ps, a :: as =>
    if p.accepts a then firstRefused? (position + 1) ps as else some (position, p.kind)
  | _, _ => none

/-- The native values of arguments; those beyond the parameters are passed on as they are. -/
def decodeEach : List Parameter → List Incoming → Attempt (List Native)
  | p :: ps, a :: as => do
    let v ← p.decode a
    return v :: (← decodeEach ps as)
  | [], a :: as => do
    let v ← a.unwrap
    return v :: (← decodeEach [] as)
  | _, [] => .ok []

/-- Checks the number of arguments, then their tags, and decodes them. -/
def decodeArguments (b : Binding) (args : List Incoming) : Attempt (List Native) :=
  if args.length < b.required then
    .error (.missingArgument b.name b.parameters.length args.length)
  else match firstRefused? 1 b.parameters args with
    | some (position, kind) => .error (.wrongKind b.name position kind)
    | none => decodeEach b.parameters args

/-- The arguments that one value holds as a sequence. A table is none, but its keys are still looked
at as arguments for the declared parameters. -/
def arguments (b : Binding) (value : Incoming) : Attempt (List Incoming) :=
  match value with
  | .wire (.table entries) => do
    let keys := entries.map fun e => Incoming.wire e.1
    let _ ← b.decodeArguments (keys.take b.parameters.length)
    .error .badOperand
  | .wire v => match v.parts? with
    | some parts => .ok (parts.map .wire)
    | none => .error .badOperand
  | .tagged _ => .error .badOperand

structure Ready where
  args : List Native
  vars : Variables

/-- Decodes the arguments and then the variables. A binding without a store sees no variables. -/
def prepare (b : Binding) (store : Option Store) (args : List Incoming) : Attempt Ready := do
  let args ← b.decodeArguments args
  let vars ← match store with
    | none => .ok []
    | some s => s.read
  return { args, vars }

def finish (b : Binding) (r : Ready) : Attempt (Tagged × Variables) := do
  let (result, vars) := b.callback.apply r.args r.vars
  let value ← result
  return (← value.wrap b.result, vars)

def edited (b : Binding) (r : Ready) : Ordered Native (List Native) :=
  b.callback.edited r.args r.vars

/-- The arguments that a binding looks at: a decorator only at the first. -/
def considered (b : Binding) (args : List Incoming) : List Incoming :=
  match b.role with
  | .function => args
  | .decorator => args.take 1

def text (b : Binding) : String :=
  let listed := ", ".intercalate (b.parameters.map Parameter.text)
  match b.role with
  | .function => s!"<FunctionBinding {b.name}({listed}) -> {b.result.label}>"
  | .decorator =>
    let kind := (b.parameters.head?.map (·.kind)).getD .any
    s!"<DecoratorBinding @{b.name}({kind.label})>"

end Binding

end HostBridge
