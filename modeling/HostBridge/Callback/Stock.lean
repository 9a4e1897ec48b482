import HostBridge.Binding
import HostBridge.Number.Rounded

namespace HostBridge.Callback

def expect1 (f : Native → Attempt Native) : List Native → Attempt Native
  | [a] => f a
  | _ => .error .badCall

def expect2 (f : Native → Native → Attempt Native) : List Native → Attempt Native
  | [a, b] => f a b
  | _ => .error .badCall

def const (v : Native) : Callback := .ofFunction fun _ => .ok v

def echo : Callback := .ofFunction fun args => .ok (.list args)

def pack : Callback := .ofFunction fun args => .ok (.tuple args)

def count : Callback := .ofFunction fun args => .ok (.int args.length)

def first : Callback := .ofFunction (expect1 .ok)

def nothing : Callback := .ofFunction fun
  | [] => .ok .null
  | _ => .error .badCall

def add : Callback := .ofFunction (expect2 Native.plus)

/-- Adds a second argument, ten by default. -/
def inc : Callback := .ofFunction fun
  | [a] => a.plus (.int 10)
  | [a, b] => a.plus b
  | _ => .error .badCall

def div : Callback := .ofFunction (expect2 Native.quotient)

/-- An amount of money with two places. -/
def amount : Native → Attempt Native
  | .text _ => .error .badFormat
  | v => do return .text ("$" ++ (← v.asFloat).rounded (.fixed 2))

def usd : Callback := .ofFunction (expect1 amount)

def quote : Callback := .ofFunction (expect1 fun
  | .text s => .ok (.text ("'" ++ s ++ "'"))
  | _ => .error .badOperand)

def greatest (best : Native) (rest : List Native) : Attempt Native :=
  match Native.greatest? best rest with
  | some v => .ok v
  | none => .error .badOperand

/-- The greatest argument, or the greatest part of a single one. -/
def max : Callback := .ofFunction fun
  | [] => .error .badCall
  | [v] => match v.parts? with
    | none => .error .badOperand
    | some [] => .error .emptyArgument
    | some (x :: xs) => greatest x xs
  | x :: xs => greatest x xs

def fail : Callback := .ofFunction fun _ => .error (.raised "boom")

/-- Answers its arguments and the names it was handed, of which there are none. -/
def gathered : Callback := .ofFunction fun args => .ok (.list [.list args, .list []])

/-- Answers its only argument, which is given by position and so never the variables. -/
def sole : Callback := .ofFunction (expect1 .ok)

/-- A callback of some arguments and the variables. The variables may also be given as the last
argument, but not twice; `other` answers where that argument is no table. -/
def withState (arity : Nat) (f : List Native → Variables → Attempt Native × Variables)
    (other : List Native → Native → Attempt Native) : Callback where
  takesState := true
  run args vars := match vars, args.drop arity with
    | some vars, [] => if args.length = arity then f args vars else (.error .badCall, vars)
    | none, [.table entries] => f (args.take arity) entries
    | none, [state] => (other (args.take arity) state, [])
    | vars, _ => (.error .badCall, vars.getD [])

/-- What only tables offer is missing elsewhere. -/
def onlyTables : List Native → Native → Attempt Native :=
  fun _ _ => .error .missingOperation

/-- A callback of some arguments and the variables, which cannot be given as an argument. -/
def withNamedState (arity : Nat) (f : List Native → Variables → Attempt Native × Variables) :
    Callback where
  takesState := true
  run args vars := match vars with
    | some vars => if args.length = arity then f args vars else (.error .badCall, vars)
    | none => (.error .badCall, [])

/-- Runs a change of one variable, where its key can be a key. -/
def atKey (key : Native) (vars : Variables) (f : Attempt Native × Variables) :
    Attempt Native × Variables :=
  if key.hashable then f else (.error .unhashableKey, vars)

/-- Counts its calls in the variable `counter` and answers how many there were before. -/
def next : Callback := withState 0 (fun _ vars =>
  let key := Native.text "counter"
  let v := (vars.get? key).getD (.int 0)
  if v.isNumber then
    match v.plus (.int 1) with
    | .ok w => (.ok v, vars.insert key w)
    | .error e => (.error e, vars)
  else (.error .badOperand, vars.insert key v)) onlyTables

def put : Callback := withState 2 (fun args vars => match args with
  | [key, value] => atKey key vars (.ok ((vars.get? key).getD .null), vars.insert key value)
  | _ => (.error .badCall, vars)) onlyTables

def putFail : Callback := withState 2 (fun args vars => match args with
  | [key, value] => atKey key vars (.error (.raised "put_fail"), vars.insert key value)
  | _ => (.error .badCall, vars)) fun args state => match args with
  | [key, _] => do
    state.replaceable key
    .error (.raised "put_fail")
  | _ => .error .badCall

/-- The list that appending changes, where a variable holds one already. -/
def lengthened (args : List Native) (vars : Variables) : Ordered Native (List Native) :=
  match args with
  | [key, value] => match vars.get? key with
    | some (.list items) => [(key, items ++ [value])]
    | _ => []
  | _ => []

/-- Appends to the list in a variable, which is a new list if there was none, and answers it. The
list itself is changed. -/
def append : Callback :=
  { withNamedState 2 fun args vars => match args with
    | [key, value] => atKey key vars <| match (vars.get? key).getD (.list []) with
      | .list items =>
        let longer := Native.list (items ++ [value])
        (.ok longer, vars.insert key longer)
      | _ => (.error .missingOperation, vars)
    | _ => (.error .badCall, vars)
    with edits := lengthened }

def get : Callback := withState 1 (fun args vars => match args with
  | [key] => ((Native.table vars).item key, vars)
  | _ => (.error .badCall, vars)) fun args state => match args with
  | [key] => state.item key
  | _ => .error .badCall

def drop : Callback := withNamedState 1 fun args vars => match args with
  | [key] => atKey key vars <| match vars.get? key with
    | some _ => (.ok .null, vars.erase key)
    | none => (.error .missingKey, vars)
  | _ => (.error .badCall, vars)

def clear : Callback := withNamedState 0 fun _ vars => (.ok (.int vars.length), [])

def dump : Callback where
  takesState := true
  run _ vars := match vars with
    | some vars => (.ok (.table vars), vars)
    | none => (.error .badCall, [])

/-- How many parts a value has; one that counts as false has none. -/
def size (v : Native) : Attempt Nat :=
  if !v.truthy then .ok 0
  else match v.parts? with
    | some parts => .ok parts.length
    | none => .error .badOperand

/-- Answers its argument, whether the variables are missing, and how many there are. -/
def optState : Callback where
  takesState := true
  run args vars := match args, vars with
    | [a], some vars => (.ok (.list [a, .bool false, .int vars.length]), vars)
    | [a], none | [a, .null], none => (.ok (.list [a, .bool true, .int 0]), [])
    | [a, v], none => (do return .list [a, .bool false, .int (← size v)], [])
    | _, vars => (.error .badCall, vars.getD [])

/-- Asks for the variables but takes arguments by position only, and so fails when it gets them. -/
def gatheredState : Callback where
  takesState := true
  run args vars := match vars with
    | some vars => (.error .badCall, vars)
    | none => (.ok (.list args), [])

def namedState : Callback where
  takesState := true
  run args vars := match args, vars with
    | [], some vars => (.ok (.table [(.text "state", .table vars)]), vars)
    | [], none => (.ok (.table []), [])
    | _, vars => (.error .badCall, vars.getD [])

def stock : List (String × Callback) :=
  [("echo", echo), ("pack", pack), ("count", count), ("first", first), ("none", nothing),
   ("add", add), ("inc", inc), ("div", div), ("usd", usd), ("quote", quote), ("max", max),
   ("fail", fail), ("next", next), ("put", put), ("put_fail", putFail), ("append", append),
   ("get", get), ("drop", drop), ("clear", clear), ("dump", dump), ("opt_state", optState),
   ("kwargs", gathered), ("posonly", sole), ("varstate", gatheredState), ("kwstate", namedState)]

def ofName? (name : String) : Option Callback :=
  (stock.find? fun e => e.1 == name).map (·.2)

end HostBridge.Callback
