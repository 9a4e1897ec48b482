import HostBridge.Registry
import HostBridge.Log.Logging

namespace HostBridge

open Log (Logging Line)

/-- What is between a host and its extensions: all stores, bindings and registries, each known by
its number, the live registry, and the log. Every operation answers and gives the bridge it leaves.
-/
structure Bridge where
  stores : List Store
  bindings : List Binding
  registries : List Registry
  /-- The registry that the host calls. -/
  live : Option Nat
  logging : Logging
  /-- The lines that were written to the log. -/
  lines : List Line

namespace Bridge

def initial : Bridge :=
  { stores := [], bindings := [], registries := [], live := none, logging := .initial, lines := [] }

def report (g : Bridge) (module message : String) : Bridge :=
  { g with lines := g.lines ++ g.logging.report module message }

def addStore (g : Bridge) (s : Store) : Nat × Bridge :=
  (g.stores.length, { g with stores := g.stores ++ [s] })

def addRegistry (g : Bridge) (r : Registry) : Nat × Bridge :=
  (g.registries.length, { g with registries := g.registries ++ [r] })

/-- Adds a registry and makes it the live one, in place of the one before. -/
def create (g : Bridge) (r : Registry) : Nat × Bridge :=
  let g := match g.live.bind (g.registries[·]?) with
    | some old => g.report "lavendeux.extension" s!"extension.replace old={old.name} new={r.name}"
    | none => g
  let (id, g) := g.addRegistry r
  let state := if r.store.isSome then "True" else "False"
  (id, { g with live := some id }.report "lavendeux.extension"
    s!"extension.create name={r.name} version={r.version} state={state}")

def reset (g : Bridge) : Bridge :=
  { g with live := none }

def addBinding (g : Bridge) (b : Binding) (registry : Option Nat) : Nat × Bridge :=
  let id := g.bindings.length
  let g := { g with bindings := g.bindings ++ [b] }
  match registry with
  | none => (id, g)
  | some r =>
    let g := { g with registries := g.registries.modify r fun table => table.register b id }
    let role := match b.role with
      | .function => "function"
      | .decorator => "decorator"
    (id, g.report "lavendeux.extension"
      s!"extension.register {role}={b.name} as={b.registeredAs}")

/-- Builds a binding from names as native values. The name is read before the kind. -/
def build (g : Bridge) (role : Role) (name kind : Native) (callback : Callback)
    (registry store : Option Nat) : Attempt Nat × Bridge :=
  match nameOf name, kindOf kind with
  | .error e, _ | .ok _, .error e => (.error e, g)
  | .ok name, .ok kind =>
    let b := match role with
      | .function => Binding.function name callback kind store
      | .decorator => Binding.decorator name kind callback store
    let (id, g) := g.addBinding b registry
    (.ok id, g)

/-- Builds a binding on a registry, with the registry's store. -/
def buildOn (g : Bridge) (registry : Nat) (role : Role) (name kind : Native)
    (callback : Callback) : Attempt Nat × Bridge :=
  g.build role name kind callback (some registry) (g.registries[registry]?.bind (·.store))

def binding (g : Bridge) (id : Nat) : Attempt Binding :=
  match g.bindings[id]? with
  | some b => .ok b
  | none => .error .missingReference

def registry (g : Bridge) (id : Nat) : Attempt Registry :=
  match g.registries[id]? with
  | some r => .ok r
  | none => .error .missingReference

def contents (g : Bridge) (b : Binding) : Option Store :=
  b.store.bind (g.stores[·]?)

def addParameter (g : Bridge) (id : Nat) (kind : Native) (optional : Bool) :
    Attempt Unit × Bridge :=
  match g.binding id with
  | .error e => (.error e, g)
  | .ok b => match b.role with
    | .decorator => (.error .missingOperation, g)
    | .function => match b.addParameter kind optional with
      | .error e => (.error e, g)
      | .ok b => (.ok (), { g with bindings := g.bindings.set id b })

def decodeArguments (g : Bridge) (id : Nat) (args : List Incoming) : Attempt (List Native) := do
  let b ← g.binding id
  match b.role with
  | .decorator => .error .missingOperation
  | .function => b.decodeArguments args

def readState (g : Bridge) (id : Nat) : Attempt Variables := do
  let b ← g.binding id
  match b.role with
  | .decorator => .error .missingOperation
  | .function => match g.contents b with
    | none => .ok []
    | some s => s.read

def writeBack (g : Bridge) (b : Binding) (vars : Variables) : Bridge :=
  match b.store with
  | none => g
  | some s => { g with stores := g.stores.set s (.ofVariables vars) }

/-- Writes a state, which has to be a table where there is a store for it. -/
def writeState (g : Bridge) (id : Nat) (state : Native) : Attempt Unit × Bridge :=
  match g.binding id with
  | .error e => (.error e, g)
  | .ok b => match b.role, b.store, state with
    | .decorator, _, _ => (.error .missingOperation, g)
    | .function, none, _ => (.ok (), g)
    | .function, some _, .table vars => (.ok (), g.writeBack b vars)
    | .function, some _, _ => (.error .missingOperation, g)

/-- Keeps the changes of lists in place in the store of a binding, if it has one. -/
def keepEdits (g : Bridge) (b : Binding) (edits : Ordered Native (List Native)) : Bridge :=
  match b.store with
  | none => g
  | some s => { g with stores := g.stores.modify s (Store.edit · edits) }

/-- Runs a binding on arguments. The variables are written back only after the callback and the
tagging of its result have succeeded; lists changed in place are changed in any case. -/
def run (g : Bridge) (b : Binding) (args : List Incoming) : Attempt Tagged × Bridge :=
  match b.prepare (g.contents b) (b.considered args) with
  | .error e => (.error e, g)
  | .ok ready =>
    let g := g.report "lavendeux.function"
      s!"function.call name={b.name} argc={ready.args.length} state_keys={ready.vars.length}"
    match b.finish ready with
    | .error e => (.error e, g.keepEdits b (b.edited ready))
    | .ok (value, vars) => (.ok value, g.writeBack b vars)

def invoke (g : Bridge) (id : Nat) (args : List Incoming) : Attempt Tagged × Bridge :=
  match g.binding id with
  | .error e => (.error e, g)
  | .ok b => g.run b args

/-- Applies a decorator to one value. A function takes the value as the sequence of its
arguments. -/
def decorate (g : Bridge) (id : Nat) (value : Incoming) : Attempt Tagged × Bridge :=
  match g.binding id with
  | .error e => (.error e, g)
  | .ok b => match b.role with
    | .decorator => g.run b [value]
    | .function => match b.arguments value with
      | .error e => (.error e, g)
      | .ok args => g.run b args

def find (g : Bridge) (registry : Nat) (target : Native) : Attempt Nat := do
  (← g.registry registry).lookup target

def call (g : Bridge) (registry : Nat) (target : Native) (args : List Incoming) :
    Attempt Tagged × Bridge :=
  match g.find registry target with
  | .error e => (.error e, g)
  | .ok id =>
    let g := g.report "lavendeux.extension"
      ("extension.call target=" ++ target.plain?.getD "" ++ s!" argc={args.length}")
    g.invoke id args

def callWire (g : Bridge) (registry : Nat) (target : Native) (args : List Incoming) :
    Attempt Native × Bridge :=
  let (result, g) := g.call registry target args
  (result.map Tagged.toWire, g)

def callback (g : Bridge) (registry : Nat) (role : Role) (name : Native) : Attempt Callback := do
  let r ← g.registry registry
  let id ← r.lookupNamed role (← nameOf name)
  return (← g.binding id).callback

def configure (g : Bridge) (profile : Log.Profile) (text? default? : Option String) :
    Attempt Unit × Bridge :=
  let (result, logging) := g.logging.configure profile text? default?
  (result, { g with logging })

def forward (g : Bridge) (least : Nat) (r : Log.Record) : Bridge :=
  { g with lines := g.lines ++ g.logging.forward least r }

end Bridge

end HostBridge
