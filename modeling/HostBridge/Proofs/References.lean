import HostBridge.Proofs.Effects

namespace HostBridge

namespace Bridge

/-- The store of a binding or a registry exists, if there is one. -/
def Has (g : Bridge) (store : Option Nat) : Prop :=
  ∀ n, store = some n → n < g.stores.length

structure Linked (g : Bridge) : Prop where
  bindings : ∀ b ∈ g.bindings, g.Has b.store
  registries : ∀ r ∈ g.registries, g.Has r.store

theorem has_none (g : Bridge) : g.Has none := by
  intro n hn
  cases hn

theorem Linked.grow {g h : Bridge} (grown : g.stores.length ≤ h.stores.length)
    (bindings : ∀ b ∈ h.bindings, g.Has b.store)
    (registries : ∀ r ∈ h.registries, g.Has r.store) : h.Linked :=
  ⟨fun b hb n hn => Nat.lt_of_lt_of_le (bindings b hb n hn) grown,
    fun r hr n hn => Nat.lt_of_lt_of_le (registries r hr n hn) grown⟩

/-- Only the number of the stores matters, not what they hold. -/
theorem Linked.of_same {g h : Bridge} (hl : g.Linked) (stores : h.stores.length = g.stores.length)
    (bindings : h.bindings = g.bindings) (registries : h.registries = g.registries) : h.Linked :=
  .grow (Nat.le_of_eq stores.symm) (bindings ▸ hl.bindings) (registries ▸ hl.registries)

theorem Linked.binding {g : Bridge} (h : g.Linked) {id : Nat} {b : Binding}
    (hb : g.binding id = .ok b) : g.Has b.store := by
  unfold Bridge.binding at hb
  split at hb
  · rename_i hi
    cases hb
    exact h.bindings b (List.mem_of_getElem? hi)
  · cases hb

theorem writeBack_length (g : Bridge) (b : Binding) (vars : Variables) :
    (g.writeBack b vars).stores.length = g.stores.length := by
  cases hs : b.store with
  | none => rw [writeBack_storeless hs]
  | some n => rw [writeBack_stores hs, List.length_set]

theorem keepEdits_length (g : Bridge) (b : Binding) (edits : Ordered Native (List Native)) :
    (g.keepEdits b edits).stores.length = g.stores.length := by
  cases hs : b.store with
  | none => rw [keepEdits_storeless hs]
  | some n => rw [keepEdits_stores hs, List.length_modify]

theorem Linked.writeBack {g : Bridge} (h : g.Linked) (b : Binding) (vars : Variables) :
    (g.writeBack b vars).Linked := by
  refine h.of_same (g.writeBack_length b vars) ?_ ?_
  all_goals cases hs : b.store <;> simp only [Bridge.writeBack, hs]

theorem Linked.keepEdits {g : Bridge} (h : g.Linked) (b : Binding)
    (edits : Ordered Native (List Native)) : (g.keepEdits b edits).Linked := by
  refine h.of_same (g.keepEdits_length b edits) ?_ ?_
  all_goals cases hs : b.store <;> simp only [Bridge.keepEdits, hs]

theorem Linked.addRegistry {g : Bridge} (h : g.Linked) {r : Registry} (hr : g.Has r.store) :
    (g.addRegistry r).2.Linked := by
  refine .grow (Nat.le_refl _) h.bindings fun q hq => ?_
  rcases List.mem_append.mp hq with hq | hq
  · exact h.registries q hq
  · rwa [List.mem_singleton.mp hq]

theorem Linked.create {g : Bridge} (h : g.Linked) {r : Registry} (hr : g.Has r.store) :
    (g.create r).2.Linked := by
  unfold Bridge.create
  split
  all_goals exact (h.addRegistry hr).of_same rfl rfl rfl

theorem Linked.addBinding {g : Bridge} (h : g.Linked) {b : Binding} (hb : g.Has b.store)
    (registry : Option Nat) : (g.addBinding b registry).2.Linked := by
  have bindings : ∀ c ∈ g.bindings ++ [b], g.Has c.store := by
    intro c hc
    rcases List.mem_append.mp hc with hc | hc
    · exact h.bindings c hc
    · rwa [List.mem_singleton.mp hc]
  cases registry with
  | none => exact .grow (Nat.le_refl _) bindings h.registries
  | some n =>
    refine .grow (Nat.le_refl _) bindings fun q hq => ?_
    obtain ⟨i, hi⟩ := List.mem_iff_getElem?.mp hq
    change (g.registries.modify n fun table => table.register b g.bindings.length)[i]? = _ at hi
    rw [List.getElem?_modify] at hi
    cases hr : g.registries[i]? with
    | none => simp [hr] at hi
    | some r =>
      have same : q.store = r.store := by
        simp only [hr, Option.map_eq_map, Option.map_some, Option.some.injEq] at hi
        subst hi
        split
        · exact r.register_store b _
        · rfl
      rw [same]
      exact h.registries r (List.mem_of_getElem? hr)

theorem Linked.build {g : Bridge} (h : g.Linked) {store : Option Nat} (hs : g.Has store)
    (role : Role) (name kind : Native) (callback : Callback) (registry : Option Nat) :
    (g.build role name kind callback registry store).2.Linked := by
  unfold Bridge.build
  split
  · exact h
  · exact h
  · refine h.addBinding ?_ registry
    cases role <;> exact hs

theorem Linked.buildOn {g : Bridge} (h : g.Linked) (registry : Nat) (role : Role)
    (name kind : Native) (callback : Callback) :
    (g.buildOn registry role name kind callback).2.Linked := by
  refine h.build ?_ role name kind callback (some registry)
  cases hr : g.registries[registry]? with
  | none => exact g.has_none
  | some r => exact h.registries r (List.mem_of_getElem? hr)

theorem Linked.addParameter {g : Bridge} (h : g.Linked) (id : Nat) (kind : Native)
    (optional : Bool) : (g.addParameter id kind optional).2.Linked := by
  unfold Bridge.addParameter
  split
  · exact h
  · rename_i b hb
    split
    · exact h
    · split
      · exact h
      · rename_i c hc
        refine .grow (Nat.le_refl _) (fun d hd => ?_) h.registries
        rcases List.mem_or_eq_of_mem_set hd with hd | rfl
        · exact h.bindings d hd
        · rw [Binding.addParameter_store hc]
          exact h.binding hb

end Bridge

namespace Session

/-- All stores that the names, bindings and registries of a session refer to exist. -/
structure Linked (s : Session) : Prop where
  bridge : s.bridge.Linked
  stores : ∀ e ∈ s.stores, e.2 < s.bridge.stores.length

theorem linked_initial : initial.Linked := by
  refine ⟨⟨?_, ?_⟩, ?_⟩
  all_goals
    intro _ h
    cases h

/-- What a name stands for is listed under it. -/
theorem named_mem {names : Ordered String Nat} {id : String} {n : Nat}
    (h : named names id = .ok n) : ∃ e ∈ names, e.2 = n := by
  unfold named Ordered.get? at h
  split at h
  · rename_i hg
    cases h
    obtain ⟨e, he, rfl⟩ := Option.map_eq_some_iff.mp hg
    exact ⟨e, List.mem_of_find?_eq_some he, rfl⟩
  · cases h

theorem Linked.named {s : Session} (h : s.Linked) {id? : Option String} {store : Option Nat}
    (hs : named? s.stores id? = .ok store) : s.bridge.Has store := by
  cases id? with
  | none =>
    cases hs
    exact s.bridge.has_none
  | some id =>
    obtain ⟨n, hn, he⟩ := Attempt.bind_ok.mp hs
    obtain ⟨e, hm, rfl⟩ := named_mem hn
    cases he
    intro m hm'
    cases hm'
    exact h.stores e hm

/-- A step that makes no name for a store keeps the session linked if it does so to the bridge. -/
theorem Linked.of_bridge {s t : Session} (h : s.Linked) (bridge : t.bridge.Linked)
    (stores : t.bridge.stores.length = s.bridge.stores.length) (names : t.stores = s.stores) :
    t.Linked :=
  ⟨bridge, by rw [names, stores]; exact h.stores⟩

theorem Linked.addStore {s : Session} (h : s.Linked) (id : String) (store : Store) :
    { s with bridge := (s.bridge.addStore store).2,
             stores := s.stores.insert id s.bridge.stores.length : Session }.Linked := by
  have grown : (s.bridge.stores ++ [store]).length = s.bridge.stores.length + 1 := by simp
  refine ⟨.grow (Nat.le_of_lt (Nat.lt_of_lt_of_eq (Nat.lt_succ_self _) grown.symm))
    h.bridge.bindings h.bridge.registries, fun e he => ?_⟩
  have inserted := Ordered.forall_insert (P := fun _ => True)
    (Q := fun n => n < s.bridge.stores.length + 1)
    (fun e he => ⟨trivial, Nat.lt_succ_of_lt (h.stores e he)⟩) trivial (Nat.lt_succ_self _) e he
  exact Nat.lt_of_lt_of_eq inserted.2 grown.symm

theorem Linked.addRegistry {s : Session} (h : s.Linked) (id : String) {r : Registry}
    (hr : s.bridge.Has r.store) (live : Bool) : (s.addRegistry id r live).2.Linked := by
  cases live with
  | false => exact h.of_bridge (h.bridge.addRegistry hr) rfl rfl
  | true =>
    exact h.of_bridge (h.bridge.create hr) (congrArg List.length (s.bridge.create_kept r).1) rfl

theorem Linked.nameBinding {s : Session} (h : s.Linked) (id : String)
    {r : Attempt Nat × Bridge} (bridge : r.2.Linked) (stores : r.2.stores = s.bridge.stores) :
    (s.nameBinding id r).2.Linked := by
  refine h.of_bridge ?_ ?_ ?_
  · rwa [nameBinding_bridge]
  · rw [nameBinding_bridge, stores]
  · unfold Session.nameBinding
    split <;> rfl

theorem Linked.call {s : Session} (h : s.Linked) {step : Step} (hc : step.IsCall) :
    (s.perform step).2.Linked := by
  obtain ⟨g, ho, hg⟩ := s.perform_outcome hc
  have linked : g.Linked ∧ g.stores.length = s.bridge.stores.length := by
    generalize (s.perform step).1 = answer at ho
    cases ho with
    | missed => exact ⟨h.bridge, rfl⟩
    | ran _ run =>
      cases run with
      | refused => exact ⟨h.bridge, rfl⟩
      | failed => exact ⟨h.bridge.keepEdits _ _, s.bridge.keepEdits_length _ _⟩
      | succeeded => exact ⟨h.bridge.writeBack _ _, s.bridge.writeBack_length _ _⟩
  have stores : (s.perform step).2.bridge.stores = g.stores := congrArg (·.bridge.stores) hg
  have bindings : (s.perform step).2.bridge.bindings = g.bindings :=
    congrArg (·.bridge.bindings) hg
  have registries : (s.perform step).2.bridge.registries = g.registries :=
    congrArg (·.bridge.registries) hg
  have names : (s.perform step).2.stores = s.stores := congrArg (·.stores) hg
  have length := congrArg List.length stores
  exact h.of_bridge (linked.1.of_same length bindings registries) (length.trans linked.2) names

theorem Linked.writeState {s : Session} (h : s.Linked) (binding : String) (state : Native) :
    (s.perform (.writeState binding state)).2.Linked := by
  simp only [perform, onNamed]
  split
  · exact h
  · simp only [settle, Bridge.writeState]
    split
    · exact h
    · rename_i b _
      split
      · exact h
      · exact h
      · exact h.of_bridge (h.bridge.writeBack b _) (s.bridge.writeBack_length b _) rfl
      · exact h

/-- No step makes a reference to a store that does not exist. -/
theorem Linked.perform {s : Session} (h : s.Linked) (step : Step) :
    (s.perform step).2.Linked := by
  cases step with
  | call | invoke | decorate => exact h.call trivial
  | writeState binding state => exact h.writeState binding state
  | store id initial =>
    simp only [Session.perform]
    split
    · exact h
    · exact h.addStore id _
  | registry id name author version store live =>
    simp only [Session.perform]
    split
    · exact h
    · rename_i r hr
      obtain ⟨n, hn, hd⟩ := Attempt.bind_ok.mp hr
      obtain ⟨_, _, hd⟩ := Attempt.bind_ok.mp hd
      obtain ⟨_, _, hd⟩ := Attempt.bind_ok.mp hd
      obtain ⟨_, _, hd⟩ := Attempt.bind_ok.mp hd
      cases hd
      exact h.addRegistry id (h.named hn) live
  | fromSettings id source store =>
    simp only [Session.perform]
    split
    · exact h
    · rename_i n found hr
      obtain ⟨_, hn, hd⟩ := Attempt.bind_ok.mp hr
      obtain ⟨_, _, hd⟩ := Attempt.bind_ok.mp hd
      cases hd
      exact h.addRegistry id (h.named hn) true
  | add id registry role name kind callback =>
    simp only [Session.perform]
    split
    · exact h
    · exact h.nameBinding id (h.bridge.buildOn _ role name kind callback) (s.bridge.build_stores ..)
  | build id role name kind callback registry store =>
    simp only [Session.perform]
    split
    · exact h
    · rename_i r n hr
      obtain ⟨_, _, hd⟩ := Attempt.bind_ok.mp hr
      obtain ⟨_, hn, hd⟩ := Attempt.bind_ok.mp hd
      cases hd
      exact h.nameBinding id (h.bridge.build (h.named hn) role name kind callback r)
        (s.bridge.build_stores ..)
  | addParameter binding kind optional =>
    simp only [Session.perform]
    split
    · exact h
    · exact h.of_bridge (h.bridge.addParameter _ kind optional)
        (congrArg List.length (s.bridge.addParameter_stores ..)) rfl
  | forward =>
    simp only [Session.perform, Session.forward]
    split
    · exact h
    · exact h
    · split
      · exact h
      · split
        · exact h.of_bridge (h.bridge.of_same rfl rfl rfl) rfl rfl
        · exact h
  | reset | configure => exact h.of_bridge (h.bridge.of_same rfl rfl rfl) rfl rfl
  | current | metadata | tables | info | lookup | decodeArguments | readState | callback
  | storeSize => exact h

theorem Linked.after {s : Session} (h : s.Linked) (steps : List Step) :
    (s.after steps).Linked := by
  induction steps generalizing s with
  | nil => exact h
  | cons step steps ih => exact ih (h.perform step)

/-- A call that reaches its callback runs a binding whose store exists. -/
theorem Linked.reaches {s : Session} (h : s.Linked) {step : Step} {b : Binding}
    {ready : Binding.Ready} (hr : s.Reaches step b ready) : s.bridge.Has b.store := by
  obtain ⟨args, ht, _⟩ := hr
  cases step with
  | call registry target args =>
    obtain ⟨_, _, ht⟩ := Attempt.bind_ok.mp ht
    obtain ⟨_, _, ht⟩ := Attempt.bind_ok.mp ht
    obtain ⟨_, hb, he⟩ := Attempt.bind_ok.mp ht
    cases he
    exact h.bridge.binding hb
  | invoke binding args =>
    obtain ⟨_, ht, he⟩ := Attempt.bind_ok.mp ht
    obtain ⟨_, _, hb⟩ := Attempt.bind_ok.mp ht
    cases he
    exact h.bridge.binding hb
  | decorate binding value =>
    obtain ⟨c, ht, hc⟩ := Attempt.bind_ok.mp ht
    obtain ⟨_, _, hb⟩ := Attempt.bind_ok.mp ht
    have same : c = b := by
      split at hc
      · cases hc
        rfl
      · obtain ⟨_, _, he⟩ := Attempt.bind_ok.mp hc
        cases he
        rfl
    exact same ▸ h.bridge.binding hb
  | _ => cases ht

end Session

end HostBridge
