import HostBridge.Binding

namespace HostBridge

/-- The tables by which the host finds the bindings of an extension. Functions and decorators are
listed apart and called through one table of registered names. -/
structure Registry where
  name : String
  author : String
  version : String
  /-- The registered names of functions by name. -/
  functions : Ordered String String
  /-- The registered names of decorators by name. -/
  decorators : Ordered String String
  /-- The latest binding under each registered name, by its number. -/
  bindings : Ordered String Nat
  /-- The store that bindings made through the registry use, by its number. -/
  store : Option Nat

namespace Registry

def empty (name author version : String) (store : Option Nat) : Registry :=
  { name, author, version, functions := [], decorators := [], bindings := [], store }

/-- Lists a binding in the table of its role and makes it the one of its registered name. -/
def register (r : Registry) (b : Binding) (id : Nat) : Registry :=
  let r := { r with bindings := r.bindings.insert b.registeredAs id }
  match b.role with
  | .function => { r with functions := r.functions.insert b.name b.registeredAs }
  | .decorator => { r with decorators := r.decorators.insert b.name b.registeredAs }

@[simp]
theorem register_store (r : Registry) (b : Binding) (id : Nat) :
    (r.register b id).store = r.store := by
  unfold register
  split <;> rfl

/-- The binding under a registered name. Any value that can be a key may be asked for, but only
texts are names. -/
def lookup (r : Registry) (target : Native) : Attempt Nat :=
  match target with
  | .text name => match r.bindings.get? name with
    | some id => .ok id
    | none => .error (.unknownBinding target)
  | _ => .error (if target.hashable then .unknownBinding target else .unhashableKey)

def table (r : Registry) : Role → Ordered String String
  | .function => r.functions
  | .decorator => r.decorators

/-- The binding of a role by its name; a name that is not listed is taken as a registered one. -/
def lookupNamed (r : Registry) (role : Role) (name : String) : Attempt Nat :=
  r.lookup (.text (((r.table role).get? (bareName name)).getD name))

end Registry

end HostBridge
