import HostBridge.Callback.Stock
import HostBridge.Proofs.Registrations

namespace HostBridge

/-- The last of the bindings that were built in a role under a name. -/
def latestOf? (role : Role) (built : List Registration) (name : String) : Option Registration :=
  (built.filter fun b => b.role == role && b.bare == name).getLast?

theorem latest_registered (role : Role) (built : List Registration) (name : String) :
    latest? built (role.marker ++ name) = latestOf? role built name := by
  have same (b : Registration) :
      (b.registeredAs == role.marker ++ name) = (b.role == role && b.bare == name) := by
    rw [Bool.eq_iff_iff, Bool.and_eq_true, beq_iff_eq, beq_iff_eq, beq_iff_eq]
    constructor
    · exact registered_inj
    · rintro ⟨rfl, rfl⟩
      rfl
  simp only [latest?, latestOf?, same]

theorem latestOf_mem {role : Role} {built : List Registration} {name : String} {b : Registration}
    (h : latestOf? role built name = some b) : b ∈ built ∧ b.role = role ∧ b.bare = name := by
  have kept := List.mem_of_getLast? h
  simpa using kept

theorem get?_listing (role : Role) (built : List Registration) (name : String) :
    (listing role built).get? name =
      (latestOf? role built name).map fun _ => role.marker ++ name := by
  rw [listing, Ordered.get?_names]
  cases last : latestOf? role built name with
  | some b =>
    obtain ⟨member, rfl, rfl⟩ := latestOf_mem last
    rw [if_pos, Option.map_some]
    simpa using ⟨b, ⟨member, rfl⟩, rfl⟩
  | none =>
    have none_left := List.getLast?_eq_none_iff.mp last
    rw [if_neg, Option.map_none]
    intro listed
    simp only [List.mem_eraseDups, List.mem_map, List.mem_filter, beq_iff_eq] at listed
    obtain ⟨b, ⟨member, hr⟩, hn⟩ := listed
    have kept : b ∈ built.filter fun b => b.role == role && b.bare == name := by
      simpa using ⟨member, hr, hn⟩
    rw [none_left] at kept
    cases kept

/-- A name is listed where something was built under it. -/
theorem listed_iff {role : Role} {built : List Registration} {name : String} :
    (∃ e ∈ listing role built, e.1 = name) ↔ ∃ b, latestOf? role built name = some b := by
  constructor
  · rintro ⟨e, he, rfl⟩
    obtain ⟨b, _, last, _⟩ := latest_of_listed he
    obtain ⟨c, _, rfl, rfl⟩ := mem_listing.mp he
    exact ⟨b, (latest_registered ..).symm.trans last⟩
  · rintro ⟨b, last⟩
    obtain ⟨member, role, name⟩ := latestOf_mem last
    exact ⟨_, mem_listing.mpr ⟨b, member, role, rfl⟩, name⟩

/-- A registered name of the other role is in that role's table only. -/
theorem registered_elsewhere {role : Role} {built : List Registration} {name : String} :
    (∃ other, other ≠ role ∧ ∃ e ∈ listing other built, e.2 = name) ↔
      ∃ b, latest? built name = some b ∧ b.role ≠ role := by
  constructor
  · rintro ⟨other, apart, e, he, rfl⟩
    obtain ⟨b, _, last, rfl, _⟩ := latest_of_listed he
    exact ⟨b, last, apart⟩
  · rintro ⟨b, last, apart⟩
    obtain ⟨member, named⟩ := latest_mem last
    exact ⟨b.role, apart, _, mem_listing.mpr ⟨b, member, rfl, rfl⟩, named⟩

/-- What a name comes to: the last of its role, or else the last under it as a registered name. -/
theorem Registry.Records.lookupNamed {r : Registry} {built : List Registration}
    (h : r.Records built) (role : Role) (name : String) :
    r.lookupNamed role name =
      match (latestOf? role built (bareName name)).or (latest? built name) with
      | some b => .ok b.id
      | none => .error (.unknownBinding (.text name)) := by
  rw [Registry.lookupNamed, h.tables, get?_listing]
  cases last : latestOf? role built (bareName name) with
  | some b =>
    rw [Option.map_some, Option.getD_some, h.lookup, latest_registered, last]
    rfl
  | none =>
    rw [Option.map_none, Option.getD_none, h.lookup]
    rfl

namespace Bridge

variable {g : Bridge} {r : Nat} {table : Registry} {role : Role} {name : String}

theorem callback_ok {id : Nat} {c : Binding} (found : g.registries[r]? = some table)
    (looked : table.lookupNamed role name = .ok id) (held : g.bindings[id]? = some c) :
    g.callback r role (.text name) = .ok c.callback := by
  have registry : g.registry r = .ok table := by simp only [Bridge.registry, found]
  have binding : g.binding id = .ok c := by simp only [Bridge.binding, held]
  simp only [callback, registry, nameOf, looked, binding, Attempt.ok_bind]
  rfl

theorem callback_error {e : Failure} (found : g.registries[r]? = some table)
    (looked : table.lookupNamed role name = .error e) :
    g.callback r role (.text name) = .error e := by
  have registry : g.registry r = .ok table := by simp only [Bridge.registry, found]
  simp only [callback, registry, nameOf, looked, Attempt.ok_bind]
  rfl

end Bridge

namespace Session

variable {s : Session} {r : Nat} {built : List Registration} {table : Registry} {role : Role}
  {name : String}

/-- What a listed name stands for is of the role. -/
theorem Recorded.listed (h : s.Recorded r built) (found : s.bridge.registries[r]? = some table)
    {b : Registration} (last : latestOf? role built (bareName name) = some b) :
    ∃ c, s.bridge.bindings[b.id]? = some c ∧ c.role = role ∧ c.name = bareName name ∧
      table.lookupNamed role name = .ok b.id := by
  obtain ⟨member, hr, hn⟩ := latestOf_mem last
  obtain ⟨c, hc, role', name'⟩ := h.binding member
  have looked := (h.tables table found).lookupNamed role name
  rw [last] at looked
  exact ⟨c, hc, role'.trans hr, name'.trans hn, looked⟩

/-- A name that is not listed stands for what was registered under it last, in either role. -/
theorem Recorded.registered (h : s.Recorded r built)
    (found : s.bridge.registries[r]? = some table)
    (absent : latestOf? role built (bareName name) = none) {b : Registration}
    (last : latest? built name = some b) :
    ∃ c, s.bridge.bindings[b.id]? = some c ∧ c.role = b.role ∧ c.registeredAs = name ∧
      table.lookupNamed role name = .ok b.id := by
  obtain ⟨member, rfl⟩ := latest_mem last
  obtain ⟨c, hc, role', name'⟩ := h.binding member
  have looked := (h.tables table found).lookupNamed role b.registeredAs
  rw [absent, last] at looked
  exact ⟨c, hc, role', by rw [Binding.registeredAs, role', name']; rfl, looked⟩

/-- A binding of the other role is found just where the name is not listed and stands for it. -/
theorem Recorded.crossed (h : s.Recorded r built) (found : s.bridge.registries[r]? = some table) :
    (∃ id c, table.lookupNamed role name = .ok id ∧ s.bridge.bindings[id]? = some c ∧
        c.role ≠ role) ↔
      latestOf? role built (bareName name) = none ∧
        ∃ b, latest? built name = some b ∧ b.role ≠ role := by
  constructor
  · rintro ⟨id, c, answered, hc, other⟩
    cases own : latestOf? role built (bareName name) with
    | some b =>
      obtain ⟨d, hd, hr, _, looked⟩ := h.listed found own
      cases answered.symm.trans looked
      cases hc.symm.trans hd
      exact absurd hr other
    | none =>
      cases last : latest? built name with
      | some b =>
        obtain ⟨d, hd, hr, _, looked⟩ := h.registered found own last
        cases answered.symm.trans looked
        cases hc.symm.trans hd
        exact ⟨rfl, b, rfl, fun same => other (hr.trans same)⟩
      | none =>
        have looked := (h.tables table found).lookupNamed role name
        rw [own, last, answered] at looked
        cases looked
  · rintro ⟨own, b, last, other⟩
    obtain ⟨c, hc, hr, _, looked⟩ := h.registered found own last
    exact ⟨b.id, c, looked, hc, fun same => other (hr.symm.trans same)⟩

/-- After every run, for every registry, role and name. A name that is listed in the role gives the
callback of what was built last under it there. Another one gives the callback of the binding that
it is the registered name of, if there is one, and is unknown otherwise. A binding of the other role
is found just for a name that is not listed and is a registered name of that role. -/
theorem callbacks_by_name {steps : List Step} {r : Nat} {table : Registry}
    (found : (initial.after steps).bridge.registries[r]? = some table) (role : Role)
    (name : String) :
    let s := initial.after steps
    let built := initial.history r steps
    let listed := ∃ e ∈ table.table role, e.1 = bareName name
    (listed → ∃ b c, latestOf? role built (bareName name) = some b ∧
      s.bridge.bindings[b.id]? = some c ∧ c.role = role ∧ c.name = bareName name ∧
      table.lookupNamed role name = .ok b.id ∧
      s.bridge.callback r role (.text name) = .ok c.callback) ∧
    (¬ listed →
      (∃ b c, latest? built name = some b ∧ s.bridge.bindings[b.id]? = some c ∧
        c.registeredAs = name ∧ table.lookupNamed role name = .ok b.id ∧
        s.bridge.callback r role (.text name) = .ok c.callback) ∨
      latest? built name = none ∧
        s.bridge.callback r role (.text name) = .error (.unknownBinding (.text name))) ∧
    ((∃ id c, table.lookupNamed role name = .ok id ∧ s.bridge.bindings[id]? = some c ∧
        c.role ≠ role) ↔
      ¬ listed ∧ ∃ other, other ≠ role ∧ ∃ e ∈ table.table other, e.2 = name) := by
  intro s built listed
  have recorded : s.Recorded r built := (recorded_initial r).after steps
  have records := recorded.tables table found
  have here : listed ↔ ∃ b, latestOf? role built (bareName name) = some b := by
    simp only [listed, records.tables]
    exact listed_iff
  have unlisted : ¬ listed ↔ latestOf? role built (bareName name) = none := by
    rw [here, ← Option.isSome_iff_exists, Option.not_isSome_iff_eq_none]
  refine ⟨fun present => ?_, fun absent => ?_, ?_⟩
  · obtain ⟨b, last⟩ := here.mp present
    obtain ⟨c, hc, hr, hn, looked⟩ := recorded.listed found last
    exact ⟨b, c, last, hc, hr, hn, looked, Bridge.callback_ok found looked hc⟩
  · have own := unlisted.mp absent
    cases last : latest? built name with
    | some b =>
      obtain ⟨c, hc, _, named, looked⟩ := recorded.registered found own last
      exact .inl ⟨b, c, rfl, hc, named, looked, Bridge.callback_ok found looked hc⟩
    | none =>
      have looked := records.lookupNamed role name
      rw [own, last] at looked
      exact .inr ⟨rfl, Bridge.callback_error found looked⟩
  · rw [recorded.crossed found, unlisted]
    simp only [records.tables]
    rw [registered_elsewhere]

/-- In a registry with two functions and a decorator of one name, the name with a sign gives the
later function. The registered name of the decorator gives the decorator, asked for as a function
too. -/
theorem area_callbacks :
    let s := initial.after twoRegistries
    let named := "lavendeuxdecorator_area"
    ∃ table, s.bridge.registries[0]? = some table ∧
      (∃ c, s.bridge.bindings[3]? = some c ∧ c.role = .function ∧
        s.bridge.callback 0 .function (.text "@area") = .ok c.callback) ∧
      ∃ id d, table.lookupNamed .function named = .ok id ∧ s.bridge.bindings[id]? = some d ∧
        d.role ≠ .function := by
  intro s named
  have built : initial.history 0 twoRegistries =
      [⟨.function, "@area", 0⟩, ⟨.decorator, "area", 2⟩, ⟨.function, "a@rea", 3⟩] := by rfl
  obtain ⟨table, found⟩ : ∃ table, s.bridge.registries[0]? = some table := ⟨_, by rfl⟩
  have tables := (((recorded_initial 0).after twoRegistries).tables table found).tables
  rw [built] at tables
  have functions : table.functions = [("area", "lavendeuxfunction_area")] := tables .function
  have decorators : table.decorators = [("area", "lavendeuxdecorator_area")] := tables .decorator
  obtain ⟨listed, _, _⟩ := callbacks_by_name found .function "@area"
  obtain ⟨_, _, crossed⟩ := callbacks_by_name found .function named
  refine ⟨table, found, ?_, crossed.mpr ⟨?_, .decorator, by decide, ?_⟩⟩
  · obtain ⟨b, c, last, held, role, _, _, answered⟩ := listed
      ⟨("area", "lavendeuxfunction_area"), by rw [Registry.table, functions]; exact .head _, rfl⟩
    rw [built] at last
    cases last
    exact ⟨c, held, role, answered⟩
  · rintro ⟨e, he, same⟩
    rw [Registry.table, functions, List.mem_singleton] at he
    subst he
    exact absurd same (by decide)
  · exact ⟨("area", named), by rw [Registry.table, decorators]; exact .head _, rfl⟩

/-- The registered name of a decorator stands for the decorator where a function is asked for. -/
theorem decorator_taken_for_function :
    let s := initial.after
      [.registry "r" (.text "n") (.text "a") (.text "1.0.0") none true,
        .add "d" "r" .decorator (.text "usd") (.text "Numeric") Callback.usd]
    ∃ table d, s.bridge.registries[0]? = some table ∧ table.functions = [] ∧
      s.bridge.bindings = [d] ∧ d.role = .decorator ∧
      s.bridge.callback 0 .function (.text "usd") = .error (.unknownBinding (.text "usd")) ∧
      s.bridge.callback 0 .function (.text "lavendeuxdecorator_usd") = .ok d.callback := by
  exact ⟨_, _, by rfl, by rfl, by rfl, by rfl, by rfl, by rfl⟩

end Session

end HostBridge
