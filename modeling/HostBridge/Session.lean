import HostBridge.Bridge
import HostBridge.Log.Template
import HostBridge.Settings

namespace HostBridge

/-- A bridge with names for the stores, registries and bindings that steps have made on it. A name
that is given again stands for the new thing; a step that fails names nothing. -/
structure Session where
  bridge : Bridge
  stores : Ordered String Nat
  registries : Ordered String Nat
  bindings : Ordered String Nat

/-- One step of a session. Things made earlier are referred to by their names. -/
inductive Step where
  | store (id : String) (initial : List (Native × Incoming))
  | registry (id : String) (name author version : Native) (store : Option String) (live : Bool)
  | fromSettings (id : String) (source : Settings.Source) (store : Option String)
  | current
  | reset
  | metadata (registry : String)
  | tables (registry : String)
  | add (id registry : String) (role : Role) (name kind : Native) (callback : Callback)
  | build (id : String) (role : Role) (name kind : Native) (callback : Callback)
      (registry store : Option String)
  | addParameter (binding : String) (kind : Native) (optional : Bool)
  | info (binding : String)
  | lookup (registry : String) (target : Native)
  | call (registry : String) (target : Native) (args : List Incoming)
  | invoke (binding : String) (args : List Incoming)
  | decorate (binding : String) (value : Incoming)
  | decodeArguments (binding : String) (args : List Incoming)
  | readState (binding : String)
  | writeState (binding : String) (state : Native)
  | callback (registry : String) (role : Role) (name : Native) (args : List Native)
  | storeSize (store : String)
  | configure (profile : Log.Profile) (text? default? : Option String)
  | forward (module : String) (least : Nat) (logger level message : Native) (args : List Native)

inductive Answer where
  | nothing
  | native (v : Native)
  | natives (vs : List Native)
  | tagged (t : Tagged)
  | size (n : Nat)
  | identity (r : Registry)
  | names (ids : Option (List String))
  | metadata (r : Registry)
  | tables (r : Registry)
  | info (b : Binding)

namespace Session

def initial : Session :=
  { bridge := .initial, stores := [], registries := [], bindings := [] }

/-- The thing that a name stands for. -/
def named (names : Ordered String Nat) (id : String) : Attempt Nat :=
  match names.get? id with
  | some n => .ok n
  | none => .error .missingReference

def named? (names : Ordered String Nat) : Option String → Attempt (Option Nat)
  | none => .ok none
  | some id => do return some (← named names id)

def contents : List (Native × Incoming) → Store → Attempt Store
  | [], s => .ok s
  | (k, v) :: es, s => do
    let t ← v.toTagged
    if k.hashable then contents es (Ordered.insert s k t) else .error .unhashableKey

/-- A detail of a registry, which may be given as any value. -/
def detail (v : Native) : Attempt String :=
  match v.plain? with
  | some s => .ok s
  | none => .error .tooManyDigits

def details (name author version : Native) (store : Option Nat) : Attempt Registry := do
  let name ← detail name
  let author ← detail author
  let version ← detail version
  return .empty name author version store

def addRegistry (s : Session) (id : String) (r : Registry) (live : Bool) : Answer × Session :=
  let (n, bridge) := if live then s.bridge.create r else s.bridge.addRegistry r
  (.identity r, { s with bridge, registries := s.registries.insert id n })

/-- The names that stand for the live registry. -/
def liveNames (s : Session) : Option (List String) :=
  s.bridge.live.map fun n => (s.registries.filter fun e => e.2 == n).map (·.1)

def registryOf (s : Session) (id : String) : Attempt Registry := do
  s.bridge.registry (← named s.registries id)

def bindingOf (s : Session) (id : String) : Attempt Binding := do
  s.bridge.binding (← named s.bindings id)

/-- The answer of an operation on the bridge, and the session with the bridge it leaves. -/
def settle {α : Type} (s : Session) (answer : α → Answer) (r : Attempt α × Bridge) :
    Attempt Answer × Session :=
  (r.1.map answer, { s with bridge := r.2 })

/-- Runs an operation of the bridge on a thing that a name stands for. -/
def onNamed {α : Type} (s : Session) (names : Ordered String Nat) (id : String)
    (answer : α → Answer) (operation : Nat → Attempt α × Bridge) : Attempt Answer × Session :=
  match named names id with
  | .error e => (.error e, s)
  | .ok n => s.settle answer (operation n)

/-- Answers what an operation of the bridge made, and names it. -/
def nameBinding (s : Session) (id : String) (r : Attempt Nat × Bridge) : Attempt Answer × Session :=
  let s := { s with bridge := r.2 }
  match r.1 with
  | .error e => (.error e, s)
  | .ok n => ((s.bridge.binding n).map .info, { s with bindings := s.bindings.insert id n })

/-- The answer of a step that only looks. -/
def ask (s : Session) (answer : Attempt Answer) : Attempt Answer × Session :=
  (answer, s)

/-- Hands a record of another module to the log. Its logger, which drops all records below a level,
has a text as its name or, if it is the one above all others, something that counts as false. A
message that cannot be filled in stops the step only where records are forwarded. -/
def forward (s : Session) (module : String) (least : Nat) (logger level message : Native)
    (args : List Native) : Attempt Answer × Session :=
  match loggerName logger, level.asInt? with
  | false, _ | _, none => (.error .badOperand, s)
  | true, some level =>
    if level < least then (.ok .nothing, s)
    else match do Log.message (← detail message) args with
      | .ok message =>
        let bridge := s.bridge.forward least { level := level.toNat, module, message }
        (.ok .nothing, { s with bridge })
      | .error e => (if s.bridge.logging.forwarding then .error e else .ok .nothing, s)
where
  loggerName : Native → Bool
    | .text _ => true
    | v => !v.truthy

/-- Performs a step: what it answers, and the session after it. -/
def perform (s : Session) : Step → Attempt Answer × Session
  | .store id initial => match contents initial [] with
    | .error e => (.error e, s)
    | .ok store =>
      let (n, bridge) := s.bridge.addStore store
      (.ok (.size store.length), { s with bridge, stores := s.stores.insert id n })
  | .registry id name author version store live =>
    match do details name author version (← named? s.stores store) with
    | .error e => (.error e, s)
    | .ok r => let (answer, s) := s.addRegistry id r live; (.ok answer, s)
  | .fromSettings id source store =>
    match do return (← named? s.stores store, ← Settings.load source) with
    | .error e => (.error e, s)
    | .ok (store, found) =>
      let r := Registry.empty found.name found.author found.version store
      let (answer, s) := s.addRegistry id r true
      (.ok answer, s)
  | .current => s.ask (.ok (.names s.liveNames))
  | .reset => (.ok .nothing, { s with bridge := s.bridge.reset })
  | .metadata registry => s.ask ((s.registryOf registry).map .metadata)
  | .tables registry => s.ask ((s.registryOf registry).map .tables)
  | .add id registry role name kind callback => match named s.registries registry with
    | .error e => (.error e, s)
    | .ok r => s.nameBinding id (s.bridge.buildOn r role name kind callback)
  | .build id role name kind callback registry store =>
    match do return (← named? s.registries registry, ← named? s.stores store) with
    | .error e => (.error e, s)
    | .ok (r, store) => s.nameBinding id (s.bridge.build role name kind callback r store)
  | .addParameter binding kind optional => match named s.bindings binding with
    | .error e => (.error e, s)
    | .ok n =>
      let (result, bridge) := s.bridge.addParameter n kind optional
      let s := { s with bridge }
      (do result; return .info (← s.bridge.binding n), s)
  | .info binding => s.ask ((s.bindingOf binding).map .info)
  | .lookup registry target => s.ask do
    let r ← named s.registries registry
    return .info (← s.bridge.binding (← s.bridge.find r target))
  | .call registry target args => s.onNamed s.registries registry .tagged fun r =>
    s.bridge.call r target args
  | .invoke binding args => s.onNamed s.bindings binding .tagged fun n => s.bridge.invoke n args
  | .decorate binding value => s.onNamed s.bindings binding .tagged fun n =>
    s.bridge.decorate n value
  | .decodeArguments binding args => s.ask do
    return .natives (← s.bridge.decodeArguments (← named s.bindings binding) args)
  | .readState binding => s.ask do
    return .native (.table (← s.bridge.readState (← named s.bindings binding)))
  | .writeState binding state => s.onNamed s.bindings binding (fun _ => .nothing) fun n =>
    s.bridge.writeState n state
  | .callback registry role name args => s.ask do
    let c ← s.bridge.callback (← named s.registries registry) role name
    return .native (← (c.run args none).1)
  | .storeSize store => s.ask do
    let n ← named s.stores store
    return .size (s.bridge.stores.getD n []).length
  | .configure profile text? default? =>
    s.settle (fun _ => .nothing) (s.bridge.configure profile text? default?)
  | .forward module least logger level message args =>
    s.forward module least logger level message args

def after (s : Session) (steps : List Step) : Session :=
  steps.foldl (fun s step => (s.perform step).2) s

def storeContents (s : Session) : List (String × Store) :=
  s.stores.map fun e => (e.1, s.bridge.stores.getD e.2 [])

end Session

end HostBridge
