import HostBridge.Proofs.NamedTables
import HostBridge.Proofs.References

namespace HostBridge

/-- A binding that was built on a registry, with the name it was given. -/
structure Registration where
  role : Role
  name : String
  /-- The number of the binding. -/
  id : Nat

namespace Registration

def bare (b : Registration) : String :=
  bareName b.name

def registeredAs (b : Registration) : String :=
  registeredName b.role.marker b.name

end Registration

/-- What the table of a role lists: the names of that role without repetition, in the order of their
first registration, with their registered names. -/
def listing (role : Role) (built : List Registration) : Ordered String String :=
  ((built.filter (·.role == role)).map Registration.bare).eraseDups.map fun n =>
    (n, role.marker ++ n)

/-- The last of the bindings that were built under a registered name. -/
def latest? (built : List Registration) (name : String) : Option Registration :=
  (built.filter (·.registeredAs == name)).getLast?

/-- Two registered names are the same only for the same role and the same name. -/
theorem registered_inj {role role' : Role} {n m : String}
    (h : role.marker ++ n = role'.marker ++ m) : role = role' ∧ n = m := by
  have letters := congrArg String.toList h
  simp only [String.toList_append] at letters
  cases role <;> cases role'
  · exact ⟨rfl, String.toList_inj.mp (List.append_cancel_left letters)⟩
  · have ninth := congrArg (·[9]?) letters
    simp [Role.marker] at ninth
  · have ninth := congrArg (·[9]?) letters
    simp [Role.marker] at ninth
  · exact ⟨rfl, String.toList_inj.mp (List.append_cancel_left letters)⟩

theorem listing_append (role : Role) (built : List Registration) (b : Registration) :
    listing role (built ++ [b]) =
      if b.role = role then (listing role built).insert b.bare b.registeredAs
      else listing role built := by
  unfold listing
  rw [List.filter_append, List.map_append]
  by_cases same : b.role = role
  · subst same
    simp only [List.filter_cons, List.filter_nil, beq_self_eq_true, ↓reduceIte, List.map_cons,
      List.map_nil, eraseDups_append_singleton]
    rw [show b.registeredAs = b.role.marker ++ b.bare from rfl,
      Ordered.insert_names (b.role.marker ++ ·)]
    simp only [List.mem_eraseDups]
  · have other : (b.role == role) = false := by simpa using same
    simp [other, same]

theorem latest_append (built : List Registration) (b : Registration) (name : String) :
    latest? (built ++ [b]) name =
      if b.registeredAs == name then some b else latest? built name := by
  unfold latest?
  rw [getLast?_filter_append_singleton]

theorem mem_listing {role : Role} {built : List Registration} {e : String × String} :
    e ∈ listing role built ↔ ∃ b ∈ built, b.role = role ∧ e = (b.bare, b.registeredAs) := by
  simp only [listing, List.mem_map, List.mem_eraseDups, List.mem_filter, beq_iff_eq]
  constructor
  · rintro ⟨_, ⟨b, ⟨hb, rfl⟩, rfl⟩, rfl⟩
    exact ⟨b, hb, rfl, rfl⟩
  · rintro ⟨b, hb, rfl, rfl⟩
    exact ⟨b.bare, ⟨b, ⟨hb, rfl⟩, rfl⟩, rfl⟩

theorem latest_mem {built : List Registration} {name : String} {b : Registration}
    (h : latest? built name = some b) : b ∈ built ∧ b.registeredAs = name := by
  have kept := List.mem_of_getLast? h
  simpa using kept

theorem latest_of_mem {built : List Registration} {b : Registration} (h : b ∈ built) :
    ∃ c, latest? built b.registeredAs = some c := by
  cases hl : latest? built b.registeredAs with
  | some c => exact ⟨c, rfl⟩
  | none =>
    have kept : b ∈ built.filter (·.registeredAs == b.registeredAs) := by simpa using h
    rw [List.getLast?_eq_none_iff.mp hl] at kept
    cases kept

/-- What a listed name stands for is of the same role and name. -/
theorem latest_of_listed {role : Role} {built : List Registration} {e : String × String}
    (h : e ∈ listing role built) :
    ∃ b ∈ built, latest? built e.2 = some b ∧ b.role = role ∧ b.bare = e.1 := by
  obtain ⟨c, hc, rfl, rfl⟩ := mem_listing.mp h
  obtain ⟨b, hb⟩ := latest_of_mem hc
  obtain ⟨member, named⟩ := latest_mem hb
  obtain ⟨role, bare⟩ := registered_inj named
  exact ⟨b, member, hb, role, bare⟩

theorem not_listed_elsewhere {role : Role} {built : List Registration} {b : Registration}
    (other : role ≠ b.role) : ∀ e ∈ listing role built, e.2 ≠ b.registeredAs := by
  intro e he same
  obtain ⟨c, _, rfl, rfl⟩ := mem_listing.mp he
  exact other (registered_inj same).1

namespace Registry

/-- A registry holds what was built on it. -/
structure Records (r : Registry) (built : List Registration) : Prop where
  tables : ∀ role, r.table role = listing role built
  bindings : ∀ name, r.bindings.get? name = (latest? built name).map (·.id)

theorem records_empty (name author version : String) (store : Option Nat) :
    (empty name author version store).Records [] :=
  ⟨fun role => by cases role <;> rfl, fun _ => rfl⟩

theorem Records.register {r : Registry} {built : List Registration} (h : r.Records built)
    {b : Binding} {name : String} (named : b.name = bareName name) (id : Nat) :
    (r.register b id).Records (built ++ [⟨b.role, name, id⟩]) := by
  have registered : b.registeredAs = registeredName b.role.marker name := by
    rw [Binding.registeredAs, named, registeredName]
  refine ⟨fun role => ?_, fun asked => ?_⟩
  · have listed := h.tables role
    rw [listing_append]
    cases hb : b.role <;> cases role <;>
      simp_all [Registry.register, table, Registration.bare, Registration.registeredAs]
  · have found := h.bindings asked
    have bindings : (r.register b id).bindings = r.bindings.insert b.registeredAs id := by
      unfold Registry.register
      split <;> rfl
    rw [latest_append, bindings, Ordered.get?_insert, registered, found]
    cases here : registeredName b.role.marker name == asked <;>
      simp [Registration.registeredAs, here]

theorem Records.lookup {r : Registry} {built : List Registration} (h : r.Records built)
    (name : String) :
    r.lookup (.text name) = match latest? built name with
      | some b => .ok b.id
      | none => .error (.unknownBinding (.text name)) := by
  simp only [Registry.lookup, h.bindings]
  cases latest? built name <;> rfl

theorem Records.lookup_ok {r : Registry} {built : List Registration} (h : r.Records built)
    {name : String} {id : Nat} (found : r.lookup (.text name) = .ok id) :
    ∃ b ∈ built, b.registeredAs = name ∧ b.id = id := by
  rw [h.lookup] at found
  cases hl : latest? built name with
  | none => simp [hl] at found
  | some b =>
    simp only [hl, Except.ok.injEq] at found
    obtain ⟨member, named⟩ := latest_mem hl
    exact ⟨b, member, named, found⟩

/-- Building in one role leaves the table of the other as it was, and what its names stand for. -/
theorem Records.other_role {r t : Registry} {built : List Registration} {b : Registration}
    (before : r.Records built) (after : t.Records (built ++ [b])) {role : Role}
    (other : role ≠ b.role) :
    t.table role = r.table role ∧
      ∀ e ∈ r.table role, t.lookup (.text e.2) = r.lookup (.text e.2) := by
  constructor
  · rw [after.tables, before.tables, listing_append, if_neg (Ne.symm other)]
  · intro e he
    rw [before.tables] at he
    have apart := not_listed_elsewhere other e he
    rw [after.lookup, before.lookup, latest_append, if_neg (by simpa using Ne.symm apart)]

end Registry

namespace Bridge

/-- The roles and names of all bindings, which no step changes. -/
def identities (g : Bridge) : List (Role × String) :=
  g.bindings.map fun b => (b.role, b.name)

end Bridge

/-- The registry, the role and the name that a step builds a binding with. -/
def Step.construction? : Step → Option (String × Role × Native)
  | .add _ on role name _ _ => some (on, role, name)
  | .build _ role name _ _ (some on) _ => some (on, role, name)
  | _ => none

namespace Session

/-- The binding that a step builds on a registry, if it does and succeeds. -/
def built (s : Session) (r : Nat) (step : Step) : Option Registration :=
  match step.construction?, (s.perform step).1 with
  | some (on, role, .text name), .ok _ =>
    if s.registries.get? on = some r then some ⟨role, name, s.bridge.bindings.length⟩ else none
  | _, _ => none

/-- All bindings that a run builds on a registry, the latest at the end. -/
def history (s : Session) (r : Nat) : List Step → List Registration
  | [] => []
  | step :: steps => (s.built r step).toList ++ (s.perform step).2.history r steps

/-- What a step makes of the registries and bindings, and which bindings it builds. -/
inductive Registering (s : Session) (step : Step) (t : Session) : Prop
  | kept (names : t.registries = s.registries)
      (registries : t.bridge.registries = s.bridge.registries)
      (identities : t.bridge.identities = s.bridge.identities)
      (built : ∀ r, s.built r step = none)
  | added (id : String) (r : Registry) (empty : r.Records [])
      (names : t.registries = s.registries.insert id s.bridge.registries.length)
      (registries : t.bridge.registries = s.bridge.registries ++ [r])
      (identities : t.bridge.identities = s.bridge.identities)
      (built : ∀ r, s.built r step = none)
  | made (b : Binding) (name : String) (named : b.name = bareName name) (on : Option Nat)
      (known : ∀ r, on = some r → ∃ e ∈ s.registries, e.2 = r)
      (names : t.registries = s.registries)
      (registries : t.bridge.registries = match on with
        | none => s.bridge.registries
        | some r => s.bridge.registries.modify r (·.register b s.bridge.bindings.length))
      (identities : t.bridge.identities = s.bridge.identities ++ [(b.role, b.name)])
      (built : ∀ r, s.built r step =
        if on = some r then some ⟨b.role, name, s.bridge.bindings.length⟩ else none)

theorem built_of_no_construction (s : Session) (step : Step) (h : step.construction? = none)
    (r : Nat) : s.built r step = none := by
  simp only [built, h]

theorem built_of_error {s : Session} {step : Step} {e : Failure}
    (h : (s.perform step).1 = .error e) (r : Nat) : s.built r step = none := by
  unfold built
  rw [h]
  split
  · rename_i answered
    cases answered
  · rfl

theorem call_registering (s : Session) {step : Step} (h : step.IsCall) :
    s.Registering step (s.perform step).2 := by
  obtain ⟨g, ho, hg⟩ := s.perform_outcome h
  have same := ho.tables
  refine .kept (congrArg (·.registries) hg) ?_ ?_ fun r => ?_
  · exact (congrArg (·.bridge.registries) hg).trans same.1
  · exact congrArg (List.map _) ((congrArg (·.bridge.bindings) hg).trans same.2)
  · cases step with
    | call | invoke | decorate => exact s.built_of_no_construction _ rfl r
    | _ => exact h.elim

theorem addRegistry_registering {s : Session} {step : Step} (built : ∀ r, s.built r step = none)
    (id : String) {r : Registry} (empty : r.Records []) (live : Bool) :
    s.Registering step (s.addRegistry id r live).2 := by
  cases live with
  | false => exact .added id r empty rfl rfl rfl built
  | true =>
    refine .added id r empty ?_ ?_ ?_ built
    all_goals
      simp only [Session.addRegistry, ↓reduceIte, Bridge.create]
      split <;> rfl

theorem get_of_named {names : Ordered String Nat} {id : String} {n : Nat}
    (h : named names id = .ok n) : names.get? id = some n := by
  unfold named at h
  split at h
  · rename_i hg
    cases h
    exact hg
  · cases h

/-- Building fails and changes nothing, or it adds a binding of the role and the name. -/
theorem build_cases (g : Bridge) (role : Role) (name kind : Native) (callback : Callback)
    (on store : Option Nat) :
    (∃ e, g.build role name kind callback on store = (.error e, g)) ∨
    ∃ text b, name = .text text ∧ b.role = role ∧ b.name = bareName text ∧
      g.build role name kind callback on store =
        (.ok g.bindings.length, (g.addBinding b on).2) := by
  unfold Bridge.build
  split
  · exact .inl ⟨_, rfl⟩
  · exact .inl ⟨_, rfl⟩
  · rename_i text kind hn _
    have given : name = .text text := by
      cases name with
      | text s =>
        cases hn
        rfl
      | _ => cases hn
    right
    cases role with
    | function =>
      exact ⟨text, .function text callback kind store, given, rfl, rfl, by cases on <;> rfl⟩
    | decorator =>
      exact ⟨text, .decorator text kind callback store, given, rfl, rfl, by cases on <;> rfl⟩

theorem addBinding_binding (g : Bridge) (b : Binding) (on : Option Nat) :
    (g.addBinding b on).2.binding g.bindings.length = .ok b := by
  cases on <;> simp [Bridge.binding, Bridge.addBinding, Bridge.report]

/-- A step that builds a binding, on a registry or on none. -/
theorem build_registering {s : Session} {step : Step} {id : String} {role : Role}
    {name kind : Native} {callback : Callback} {store : Option Nat} (on : Option Nat)
    (performed : s.perform step =
      s.nameBinding id (s.bridge.build role name kind callback on store))
    (known : ∀ r, on = some r → ∃ e ∈ s.registries, e.2 = r)
    (built : ∀ text answer, name = .text text → (s.perform step).1 = .ok answer → ∀ r,
      s.built r step = if on = some r then some ⟨role, text, s.bridge.bindings.length⟩ else none) :
    s.Registering step (s.perform step).2 := by
  rcases build_cases s.bridge role name kind callback on store with ⟨e, failed⟩ |
    ⟨text, b, given, hr, hn, made⟩
  · rw [failed] at performed
    rw [performed]
    exact .kept rfl rfl rfl (built_of_error (congrArg Prod.fst performed))
  · rw [made] at performed
    have answered : (s.perform step).1 = .ok (.info b) := by
      rw [performed]
      simp only [nameBinding, addBinding_binding, Except.map]
    refine .made b text hn on known ?_ ?_ ?_ (hr ▸ built text _ given answered)
    · rw [performed]
      rfl
    · rw [performed]
      cases on <;> rfl
    · rw [performed]
      cases on <;> simp [nameBinding, Bridge.addBinding, Bridge.report, Bridge.identities]

theorem addParameter_identity {b c : Binding} {kind : Native} {optional : Bool}
    (h : b.addParameter kind optional = .ok c) : c.role = b.role ∧ c.name = b.name := by
  unfold Binding.addParameter at h
  split at h
  · cases h
  · obtain ⟨_, _, he⟩ := Attempt.bind_ok.mp h
    cases he
    exact ⟨rfl, rfl⟩

theorem addParameter_identities (g : Bridge) (id : Nat) (kind : Native) (optional : Bool) :
    (g.addParameter id kind optional).2.registries = g.registries ∧
      (g.addParameter id kind optional).2.identities = g.identities := by
  unfold Bridge.addParameter
  split
  · exact ⟨rfl, rfl⟩
  · rename_i b hb
    split
    · exact ⟨rfl, rfl⟩
    · split
      · exact ⟨rfl, rfl⟩
      · rename_i c hc
        obtain ⟨role, name⟩ := addParameter_identity hc
        refine ⟨rfl, ?_⟩
        unfold Bridge.binding at hb
        split at hb
        · rename_i found
          cases hb
          apply List.ext_getElem?
          intro i
          simp only [Bridge.identities, List.getElem?_map, List.getElem?_set]
          split
          · rename_i same
            subst same
            obtain ⟨within, rfl⟩ := List.getElem?_eq_some_iff.mp found
            simp [within, role, name]
          · rfl
        · cases hb

theorem registry_registering (s : Session) (id : String) (name author version : Native)
    (store : Option String) (live : Bool) :
    s.Registering (.registry id name author version store live)
      (s.perform (.registry id name author version store live)).2 := by
  have built := s.built_of_no_construction (.registry id name author version store live) rfl
  simp only [perform]
  split
  · exact .kept rfl rfl rfl built
  · rename_i r hr
    obtain ⟨_, _, hd⟩ := Attempt.bind_ok.mp hr
    obtain ⟨_, _, hd⟩ := Attempt.bind_ok.mp hd
    obtain ⟨_, _, hd⟩ := Attempt.bind_ok.mp hd
    obtain ⟨_, _, hd⟩ := Attempt.bind_ok.mp hd
    cases hd
    exact addRegistry_registering built id (Registry.records_empty ..) live

/-- A step that fails and leaves the session as it was. -/
theorem failed_registering {s : Session} {step : Step} {e : Failure}
    (failed : s.perform step = (.error e, s)) : s.Registering step (s.perform step).2 := by
  have built := built_of_error (congrArg Prod.fst failed)
  rw [failed]
  exact .kept rfl rfl rfl built

theorem add_registering (s : Session) (id registry : String) (role : Role) (name kind : Native)
    (callback : Callback) :
    s.Registering (.add id registry role name kind callback)
      (s.perform (.add id registry role name kind callback)).2 := by
  cases hr : named s.registries registry with
  | error e => exact failed_registering (by simp only [perform, hr]; rfl)
  | ok q =>
    have found := get_of_named hr
    refine build_registering (some q) (by simp only [perform, hr]; rfl) ?_ ?_
    · rintro r ⟨⟩
      exact named_mem hr
    · rintro text answer rfl answered r
      simp only [Session.built, Step.construction?, answered, found, Option.some.injEq]

theorem buildStep_registering (s : Session) (id : String) (role : Role) (name kind : Native)
    (callback : Callback) (registry store : Option String) :
    s.Registering (.build id role name kind callback registry store)
      (s.perform (.build id role name kind callback registry store)).2 := by
  cases hp : (do return (← named? s.registries registry, ← named? s.stores store) :
      Attempt (Option Nat × Option Nat)) with
  | error e => exact failed_registering (by simp only [perform, hp]; rfl)
  | ok pair =>
    obtain ⟨on, store'⟩ := pair
    obtain ⟨_, hn, hd⟩ := Attempt.bind_ok.mp hp
    obtain ⟨_, _, hd⟩ := Attempt.bind_ok.mp hd
    cases hd
    refine build_registering on (by simp only [perform, hp]; rfl) ?_ ?_
    · rintro r rfl
      cases registry with
      | none => cases hn
      | some registry =>
        obtain ⟨q, hq, he⟩ := Attempt.bind_ok.mp hn
        cases he
        exact named_mem hq
    · rintro text answer rfl answered r
      cases registry with
      | none =>
        cases hn
        simp only [Session.built, Step.construction?, reduceCtorEq, ↓reduceIte]
      | some registry =>
        obtain ⟨q, hq, he⟩ := Attempt.bind_ok.mp hn
        cases he
        simp only [Session.built, Step.construction?, answered, get_of_named hq,
          Option.some.injEq]

/-- Every step keeps all registries and bindings, adds an empty registry, or builds a binding. -/
theorem perform_registering (s : Session) (step : Step) :
    s.Registering step (s.perform step).2 := by
  cases step with
  | call | invoke | decorate => exact s.call_registering trivial
  | registry => apply registry_registering
  | add => apply add_registering
  | build => apply buildStep_registering
  | fromSettings id source store =>
    have built := s.built_of_no_construction (.fromSettings id source store) rfl
    simp only [perform]
    split
    · exact .kept rfl rfl rfl built
    · exact addRegistry_registering built id (Registry.records_empty ..) true
  | addParameter binding kind optional =>
    have built := s.built_of_no_construction (.addParameter binding kind optional) rfl
    simp only [perform]
    split
    · exact .kept rfl rfl rfl built
    · rename_i n _
      obtain ⟨registries, identities⟩ := addParameter_identities s.bridge n kind optional
      exact .kept rfl registries identities built
  | store id initial =>
    have built := s.built_of_no_construction (.store id initial) rfl
    simp only [perform]
    split <;> exact .kept rfl rfl rfl built
  | writeState binding state =>
    have built := s.built_of_no_construction (.writeState binding state) rfl
    simp only [perform, onNamed]
    split
    · exact .kept rfl rfl rfl built
    · rename_i n _
      obtain ⟨registries, bindings⟩ := s.bridge.writeState_tables n state
      exact .kept rfl registries (congrArg (List.map _) bindings) built
  | forward module least logger level message args =>
    have built := s.built_of_no_construction (.forward module least logger level message args) rfl
    simp only [perform, Session.forward]
    split
    · exact .kept rfl rfl rfl built
    · exact .kept rfl rfl rfl built
    · split
      · exact .kept rfl rfl rfl built
      · split <;> exact .kept rfl rfl rfl built
  | current | reset | metadata | tables | info | lookup | decodeArguments | readState | callback
  | storeSize | configure => exact .kept rfl rfl rfl (s.built_of_no_construction _ rfl)

/-- A registry stays, and is unchanged by a step that builds nothing on it. -/
theorem perform_registry (s : Session) (step : Step) {r : Nat} {table : Registry}
    (found : s.bridge.registries[r]? = some table) :
    ∃ next, (s.perform step).2.bridge.registries[r]? = some next ∧
      (s.built r step = none → next = table) := by
  cases s.perform_registering step with
  | kept names registries identities none => exact ⟨table, registries ▸ found, fun _ => rfl⟩
  | added id empty records names registries identities none =>
    have within := (List.getElem?_eq_some_iff.mp found).1
    refine ⟨table, ?_, fun _ => rfl⟩
    rw [registries, List.getElem?_append_left within, found]
  | made b name named on known names registries identities made =>
    cases on with
    | none => exact ⟨table, registries ▸ found, fun _ => rfl⟩
    | some q =>
      rw [registries, made r]
      by_cases here : q = r <;> simp [found, here]

/-- A registry holds what was built on it, and the bindings are still those that were built. A
registry that is yet to come holds nothing. -/
structure Recorded (s : Session) (r : Nat) (built : List Registration) : Prop where
  names : ∀ e ∈ s.registries, e.2 < s.bridge.registries.length
  fresh : s.bridge.registries.length ≤ r → built = []
  tables : ∀ table, s.bridge.registries[r]? = some table → table.Records built
  identities : ∀ b ∈ built, s.bridge.identities[b.id]? = some (b.role, b.bare)

theorem recorded_initial (r : Nat) : initial.Recorded r [] := by
  refine ⟨?_, fun _ => rfl, ?_, ?_⟩
  · exact List.forall_mem_nil _
  · intro table found
    cases found
  · exact List.forall_mem_nil _

theorem Recorded.added {s t : Session} {r : Nat} {built : List Registration}
    (h : s.Recorded r built) {id : String} {empty : Registry} (records : empty.Records [])
    (names : t.registries = s.registries.insert id s.bridge.registries.length)
    (registries : t.bridge.registries = s.bridge.registries ++ [empty])
    (identities : t.bridge.identities = s.bridge.identities) : t.Recorded r built := by
  have grown : t.bridge.registries.length = s.bridge.registries.length + 1 := by simp [registries]
  refine ⟨?_, fun later => h.fresh (by omega), ?_, identities ▸ h.identities⟩
  · rw [names, grown]
    exact fun e he => (Ordered.forall_insert (P := fun _ => True)
      (Q := fun n => n < s.bridge.registries.length + 1)
      (fun d hd => ⟨trivial, Nat.lt_succ_of_lt (h.names d hd)⟩) trivial (Nat.lt_succ_self _) e he).2
  · intro table found
    rw [registries] at found
    rcases Nat.lt_trichotomy r s.bridge.registries.length with before | here | after
    · rw [List.getElem?_append_left before] at found
      exact h.tables table found
    · rw [here, List.getElem?_concat_length] at found
      cases found
      rwa [h.fresh (Nat.le_of_eq here.symm)]
    · rw [List.getElem?_eq_none (by simp; omega)] at found
      cases found

theorem Recorded.made {s t : Session} {r : Nat} {built : List Registration}
    (h : s.Recorded r built) {b : Binding} {name : String} (named : b.name = bareName name)
    {on : Option Nat} (known : ∀ r, on = some r → ∃ e ∈ s.registries, e.2 = r)
    (names : t.registries = s.registries)
    (registries : t.bridge.registries = match on with
      | none => s.bridge.registries
      | some r => s.bridge.registries.modify r (·.register b s.bridge.bindings.length))
    (identities : t.bridge.identities = s.bridge.identities ++ [(b.role, b.name)]) :
    t.Recorded r (built ++
      (if on = some r then some ⟨b.role, name, s.bridge.bindings.length⟩ else none).toList) := by
  have same : t.bridge.registries.length = s.bridge.registries.length := by
    cases on <;> simp [registries]
  have earlier : ∀ c ∈ built, t.bridge.identities[c.id]? = some (c.role, c.bare) := by
    intro c hc
    have place := h.identities c hc
    rw [identities, List.getElem?_append_left (List.getElem?_eq_some_iff.mp place).1, place]
  by_cases here : on = some r
  · subst here
    obtain ⟨e, he, rfl⟩ := known r rfl
    simp only [↓reduceIte, Option.toList_some]
    refine ⟨names ▸ same ▸ h.names, fun later => ?_, ?_, ?_⟩
    · have within := h.names e he
      omega
    · intro table found
      simp only [registries, List.getElem?_modify, ↓reduceIte] at found
      cases held : s.bridge.registries[e.2]? with
      | none => simp [held] at found
      | some before =>
        simp only [held, Option.map_eq_map, Option.map_some, Option.some.injEq] at found
        subst found
        exact (h.tables before held).register named _
    · intro c hc
      rcases List.mem_append.mp hc with hc | hc
      · exact earlier c hc
      · cases List.mem_singleton.mp hc
        have place : s.bridge.bindings.length = s.bridge.identities.length := by
          simp [Bridge.identities]
        simp only [identities, place, List.getElem?_concat_length, named, Registration.bare]
  · simp only [here, ↓reduceIte, Option.toList_none, List.append_nil]
    refine ⟨names ▸ same ▸ h.names, same ▸ h.fresh, ?_, earlier⟩
    intro table found
    refine h.tables table ?_
    cases on with
    | none => rwa [registries] at found
    | some q =>
      have apart : q ≠ r := fun equal => here (congrArg some equal)
      simpa [registries, List.getElem?_modify, apart] using found

theorem Recorded.perform {s : Session} {r : Nat} {built : List Registration}
    (h : s.Recorded r built) (step : Step) :
    (s.perform step).2.Recorded r (built ++ (s.built r step).toList) := by
  cases s.perform_registering step with
  | kept names registries identities none =>
    rw [none r, Option.toList_none, List.append_nil]
    exact ⟨names ▸ registries ▸ h.names, registries ▸ h.fresh, registries ▸ h.tables,
      identities ▸ h.identities⟩
  | added id empty records names registries identities none =>
    rw [none r, Option.toList_none, List.append_nil]
    exact h.added records names registries identities
  | made b name named on known names registries identities made =>
    rw [made r]
    exact h.made named known names registries identities

theorem Recorded.after {s : Session} {r : Nat} {built : List Registration}
    (h : s.Recorded r built) (steps : List Step) :
    (s.after steps).Recorded r (built ++ s.history r steps) := by
  induction steps generalizing s built with
  | nil => simpa [Session.after, history] using h
  | cons step steps ih =>
    have next := ih (h.perform step)
    rwa [List.append_assoc] at next

theorem Recorded.binding {s : Session} {r : Nat} {built : List Registration}
    (h : s.Recorded r built) {b : Registration} (hb : b ∈ built) :
    ∃ c, s.bridge.bindings[b.id]? = some c ∧ c.role = b.role ∧ c.name = b.bare := by
  have place := h.identities b hb
  rw [Bridge.identities, List.getElem?_map, Option.map_eq_some_iff] at place
  obtain ⟨c, hc, same⟩ := place
  exact ⟨c, hc, congrArg Prod.fst same, congrArg Prod.snd same⟩

/-- After every run, for every registry: its tables list what was built on it in each role, its
dispatch finds what was built last under a registered name, the two agree on every entry, and a step
that builds nothing on it changes nothing in it, while one that does leaves the other role alone. -/
theorem tables_and_dispatch_agree {steps : List Step} {r : Nat} {table : Registry}
    (found : (initial.after steps).bridge.registries[r]? = some table) :
    let s := initial.after steps
    let built := initial.history r steps
    (∀ role, table.table role = listing role built) ∧
    (∀ name, table.lookup (.text name) = match latest? built name with
      | some b => .ok b.id
      | none => .error (.unknownBinding (.text name))) ∧
    (∀ role, ∀ e ∈ table.table role, ∃ id b, table.lookup (.text e.2) = .ok id ∧
      s.bridge.bindings[id]? = some b ∧ b.role = role ∧ b.name = e.1) ∧
    (∀ name id, table.lookup (.text name) = .ok id →
      ∃ b, s.bridge.bindings[id]? = some b ∧ (b.name, name) ∈ table.table b.role ∧
        ∀ role, role ≠ b.role → ∀ e ∈ table.table role, e.2 ≠ name) ∧
    ∀ step, ∃ next, (s.perform step).2.bridge.registries[r]? = some next ∧
      (s.built r step = none → next = table) ∧
      ∀ b, s.built r step = some b → ∀ role, role ≠ b.role →
        next.table role = table.table role ∧
        ∀ e ∈ table.table role, next.lookup (.text e.2) = table.lookup (.text e.2) := by
  intro s built
  have recorded : s.Recorded r built := (recorded_initial r).after steps
  have records := recorded.tables table found
  refine ⟨records.tables, records.lookup, ?_, ?_, ?_⟩
  · intro role e he
    rw [records.tables] at he
    obtain ⟨b, member, last, hr, hn⟩ := latest_of_listed he
    obtain ⟨c, hc, role, name⟩ := recorded.binding member
    exact ⟨b.id, c, by rw [records.lookup, last], hc, role.trans hr, name.trans hn⟩
  · intro name id answered
    obtain ⟨b, member, rfl, rfl⟩ := records.lookup_ok answered
    obtain ⟨c, hc, role, name⟩ := recorded.binding member
    refine ⟨c, hc, ?_, ?_⟩
    · rw [records.tables, role, name]
      exact mem_listing.mpr ⟨b, member, rfl, rfl⟩
    · intro other apart
      rw [records.tables]
      exact not_listed_elsewhere (role ▸ apart)
  · intro step
    have kept := s.perform_registry step found
    obtain ⟨next, hn, unbuilt⟩ := kept
    have after := (recorded.perform step).tables next hn
    refine ⟨next, hn, unbuilt, ?_⟩
    intro b hb role other
    rw [hb, Option.toList_some] at after
    exact records.other_role after other

/-- Two registries; on the first a function is built twice and a decorator once, all of one bare
name, and a function whose kind does not exist. -/
def twoRegistries : List Step :=
  let add := fun id registry role name kind =>
    Step.add id registry role (.text name) (.text kind) (.ofFunction (.ok <| .list ·))
  [ .registry "one" (.text "One") (.text "") (.text "1") none true,
    .registry "two" (.text "Two") (.text "") (.text "2") none false,
    add "f" "one" .function "@area" "Integer",
    add "g" "two" .function "area" "",
    add "d" "one" .decorator "area" "Integer",
    add "v" "one" .function "volume" "Litre",
    add "h" "one" .function "a@rea" "Float",
    .reset ]

/-- The first of two registries lists its names once, calls the later function, and is not changed
by a construction on the other. -/
theorem two_registries_agree :
    let s := initial.after twoRegistries
    let step := Step.add "k" "two" .decorator (.text "area") (.text "")
      (.ofFunction (.ok <| .list ·))
    ∃ table next : Registry, s.bridge.registries[0]? = some table ∧
      table.functions = [("area", "lavendeuxfunction_area")] ∧
      table.decorators = [("area", "lavendeuxdecorator_area")] ∧
      table.lookup (.text "lavendeuxfunction_area") = .ok 3 ∧
      table.lookup (.text "lavendeuxdecorator_area") = .ok 2 ∧
      table.lookup (.text "lavendeuxfunction_volume") =
        .error (.unknownBinding (.text "lavendeuxfunction_volume")) ∧
      (s.perform step).2.bridge.registries[0]? = some next ∧ next = table := by
  intro s step
  have built : initial.history 0 twoRegistries =
      [⟨.function, "@area", 0⟩, ⟨.decorator, "area", 2⟩, ⟨.function, "a@rea", 3⟩] := by rfl
  obtain ⟨table, found⟩ : ∃ table, s.bridge.registries[0]? = some table := ⟨_, by rfl⟩
  obtain ⟨tables, lookup, _, _, steps⟩ := tables_and_dispatch_agree found
  obtain ⟨next, hn, unbuilt, _⟩ := steps step
  rw [built] at tables lookup
  exact ⟨table, next, found, tables .function, tables .decorator, lookup _, lookup _, lookup _, hn,
    unbuilt rfl⟩

end Session

end HostBridge
