import HostBridge.Proofs.LogIndependence

namespace HostBridge

/-- A step that calls a function or a decorator. -/
def Step.IsCall : Step → Prop
  | .call .. | .invoke .. | .decorate .. => True
  | _ => False

namespace Bridge

theorem writeBack_stores {b : Binding} {n : Nat} (h : b.store = some n) (g : Bridge)
    (vars : Variables) : (g.writeBack b vars).stores = g.stores.set n (.ofVariables vars) := by
  simp only [writeBack, h]

theorem writeBack_storeless {b : Binding} (h : b.store = none) (g : Bridge) (vars : Variables) :
    g.writeBack b vars = g := by
  simp only [writeBack, h]

theorem keepEdits_stores {b : Binding} {n : Nat} (h : b.store = some n) (g : Bridge)
    (edits : Ordered Native (List Native)) :
    (g.keepEdits b edits).stores = g.stores.modify n (Store.edit · edits) := by
  simp only [keepEdits, h]

theorem keepEdits_storeless {b : Binding} (h : b.store = none) (g : Bridge)
    (edits : Ordered Native (List Native)) : g.keepEdits b edits = g := by
  simp only [keepEdits, h]

theorem writeBack_at {g : Bridge} {b : Binding} {n : Nat} (on : b.store = some n)
    (made : n < g.stores.length) (vars : Variables) :
    (g.writeBack b vars).stores[n]? = some (.ofVariables vars) := by
  rw [writeBack_stores on, List.getElem?_set_self made]

theorem writeBack_other {g : Bridge} {b : Binding} {n : Nat} (off : b.store ≠ some n)
    (vars : Variables) : (g.writeBack b vars).stores[n]? = g.stores[n]? := by
  cases hs : b.store with
  | none => rw [writeBack_storeless hs]
  | some m =>
    rw [writeBack_stores hs, List.getElem?_set_ne]
    rintro rfl
    exact off hs

theorem keepEdits_at {g : Bridge} {n : Nat} {store : Store} (h : g.stores[n]? = some store)
    (b : Binding) (edits : Ordered Native (List Native)) :
    (g.keepEdits b edits).stores[n]? = some store ∨
      (g.keepEdits b edits).stores[n]? = some (store.edit edits) := by
  cases hs : b.store with
  | none =>
    rw [keepEdits_storeless hs]
    exact .inl h
  | some m =>
    rw [keepEdits_stores hs, List.getElem?_modify, h]
    by_cases same : m = n
    · exact .inr (by simp [same])
    · exact .inl (by simp [same])

/-- Making a registry the live one changes no store and no binding. -/
theorem create_kept (g : Bridge) (r : Registry) :
    (g.create r).2.stores = g.stores ∧ (g.create r).2.bindings = g.bindings := by
  unfold create
  split <;> exact ⟨rfl, rfl⟩

theorem addBinding_stores (g : Bridge) (b : Binding) (registry : Option Nat) :
    (g.addBinding b registry).2.stores = g.stores := by
  cases registry <;> rfl

theorem build_stores (g : Bridge) (role : Role) (name kind : Native) (callback : Callback)
    (registry store : Option Nat) :
    (g.build role name kind callback registry store).2.stores = g.stores := by
  unfold build
  split
  · rfl
  · rfl
  · exact g.addBinding_stores _ registry

theorem writeBack_tables (g : Bridge) (b : Binding) (vars : Variables) :
    (g.writeBack b vars).registries = g.registries ∧
      (g.writeBack b vars).bindings = g.bindings := by
  unfold writeBack
  split <;> exact ⟨rfl, rfl⟩

theorem writeState_tables (g : Bridge) (id : Nat) (state : Native) :
    (g.writeState id state).2.registries = g.registries ∧
      (g.writeState id state).2.bindings = g.bindings := by
  unfold writeState
  split
  · exact ⟨rfl, rfl⟩
  · split
    · exact ⟨rfl, rfl⟩
    · exact ⟨rfl, rfl⟩
    · exact g.writeBack_tables _ _
    · exact ⟨rfl, rfl⟩

theorem addParameter_stores (g : Bridge) (id : Nat) (kind : Native) (optional : Bool) :
    (g.addParameter id kind optional).2.stores = g.stores := by
  unfold addParameter
  split
  · rfl
  · split
    · rfl
    · split <;> rfl

end Bridge

namespace Session

/-- The binding that a call runs and the arguments that it runs it on. Other steps call nothing. -/
def target (s : Session) : Step → Attempt (Binding × List Incoming)
  | .call registry target args => do
    let r ← named s.registries registry
    let id ← s.bridge.find r target
    return (← s.bridge.binding id, args)
  | .invoke binding args => do return (← s.bindingOf binding, args)
  | .decorate binding value => do
    let b ← s.bindingOf binding
    match b.role with
    | .decorator => return (b, [value])
    | .function => return (b, ← b.arguments value)
  | _ => .error .badCall

/-- What a call comes to, once its target is known. -/
def Called (s : Session) (step : Step) : Attempt (Binding × List Incoming) → Prop
  | .error e => (s.perform step).1 = .error e ∧ (s.perform step).2.quiet = s.quiet
  | .ok (b, args) => (s.perform step).1 = (s.bridge.run b args).1.map .tagged ∧
      (s.perform step).2.quiet = { s with bridge := (s.bridge.run b args).2.quiet }

/-- A call runs its target and nothing else, or finds none. -/
theorem perform_call (s : Session) {step : Step} (h : step.IsCall) :
    s.Called step (s.target step) := by
  cases step with
  | call registry target args =>
    simp only [Session.target, Called, perform, onNamed]
    cases named s.registries registry with
    | error e => exact ⟨rfl, rfl⟩
    | ok r =>
      simp only [Attempt.ok_bind, settle, Bridge.call]
      cases s.bridge.find r target with
      | error e => exact ⟨rfl, rfl⟩
      | ok id =>
        dsimp only
        generalize hm : s.bridge.report _ _ = g
        have hq : g.quiet = s.bridge.quiet := hm ▸ Bridge.report_quiet ..
        obtain ⟨ha, hg⟩ := Bridge.Emits.congr (Bridge.invoke_emits · id args) hq
        simp only [Attempt.ok_bind, ha, quiet, hg]
        simp only [Bridge.invoke]
        cases s.bridge.binding id with
        | error e => exact ⟨rfl, rfl⟩
        | ok b => exact ⟨rfl, rfl⟩
  | invoke binding args =>
    simp only [Session.target, Called, perform, onNamed, bindingOf]
    cases named s.bindings binding with
    | error e => exact ⟨rfl, rfl⟩
    | ok n =>
      simp only [Attempt.ok_bind, settle, Bridge.invoke]
      cases s.bridge.binding n with
      | error e => exact ⟨rfl, rfl⟩
      | ok b => exact ⟨rfl, rfl⟩
  | decorate binding value =>
    simp only [Session.target, Called, perform, onNamed, bindingOf]
    cases named s.bindings binding with
    | error e => exact ⟨rfl, rfl⟩
    | ok n =>
      simp only [Attempt.ok_bind, settle, Bridge.decorate]
      cases s.bridge.binding n with
      | error e => exact ⟨rfl, rfl⟩
      | ok b =>
        simp only [Attempt.ok_bind]
        cases b.role with
        | decorator => exact ⟨rfl, rfl⟩
        | function =>
          dsimp only
          cases b.arguments value with
          | error e => exact ⟨rfl, rfl⟩
          | ok args => exact ⟨rfl, rfl⟩
  | _ => exact h.elim

/-- What a call answers and, but for the log, the bridge that it leaves. -/
inductive Outcome (s : Session) (step : Step) : Attempt Answer → Bridge → Prop
  | missed (lost : s.target step = .error e) : Outcome s step (.error e) s.bridge
  | ran (found : s.target step = .ok (b, args)) (run : s.bridge.Outcome b args answer g) :
      Outcome s step (answer.map .tagged) g

theorem perform_outcome (s : Session) {step : Step} (h : step.IsCall) :
    ∃ g, s.Outcome step (s.perform step).1 g ∧
      (s.perform step).2.quiet = { s with bridge := g }.quiet := by
  have hc := s.perform_call h
  cases ht : s.target step with
  | error e =>
    rw [ht] at hc
    exact ⟨s.bridge, hc.1 ▸ .missed ht, hc.2⟩
  | ok r =>
    obtain ⟨b, args⟩ := r
    rw [ht] at hc
    obtain ⟨g, ho, hg⟩ := s.bridge.run_outcome b args
    refine ⟨g, hc.1 ▸ .ran ht ho, ?_⟩
    rw [hc.2, hg]
    rfl

/-- A call leaves the registries and the bindings as they are. -/
theorem Outcome.tables {s : Session} {step : Step} {answer : Attempt Answer} {g : Bridge}
    (h : s.Outcome step answer g) :
    g.registries = s.bridge.registries ∧ g.bindings = s.bridge.bindings := by
  cases h with
  | missed => exact ⟨rfl, rfl⟩
  | ran _ run =>
    cases run with
    | refused => exact ⟨rfl, rfl⟩
    | failed => unfold Bridge.keepEdits; split <;> exact ⟨rfl, rfl⟩
    | succeeded => exact s.bridge.writeBack_tables _ _

/-- A step reaches the callback of a binding with decoded arguments and variables. -/
def Reaches (s : Session) (step : Step) (b : Binding) (ready : Binding.Ready) : Prop :=
  ∃ args, s.target step = .ok (b, args) ∧ s.bridge.prepared b args = .ok ready

theorem Reaches.unique {s : Session} {step : Step} {b c : Binding} {ready next : Binding.Ready}
    (h : s.Reaches step b ready) (h' : s.Reaches step c next) : b = c ∧ ready = next := by
  obtain ⟨args, ht, hr⟩ := h
  obtain ⟨args', ht', hr'⟩ := h'
  rw [ht] at ht'
  cases ht'
  rw [hr] at hr'
  cases hr'
  exact ⟨rfl, rfl⟩

theorem Reaches.isCall {s : Session} {step : Step} {b : Binding} {ready : Binding.Ready}
    (h : s.Reaches step b ready) : step.IsCall := by
  obtain ⟨args, ht, _⟩ := h
  cases step with
  | call | invoke | decorate => trivial
  | _ => cases ht

/-- The variables of a call are read from the store. -/
theorem Reaches.read {s : Session} {step : Step} {b : Binding} {ready : Binding.Ready}
    (h : s.Reaches step b ready) {n : Nat} (on : b.store = some n) {store : Store}
    (hs : s.bridge.stores[n]? = some store) : store.read = .ok ready.vars := by
  obtain ⟨args, _, hr⟩ := h
  have contents : s.bridge.contents b = some store := by simp [Bridge.contents, on, hs]
  simp only [Bridge.prepared, Binding.prepare, contents] at hr
  obtain ⟨_, _, hr⟩ := Attempt.bind_ok.mp hr
  obtain ⟨vars, hv, he⟩ := Attempt.bind_ok.mp hr
  cases he
  exact hv

/-- A call that reaches its callback and answers writes back what the callback left. -/
theorem Reaches.answered {s : Session} {step : Step} {b : Binding} {ready : Binding.Ready}
    (h : s.Reaches step b ready) {answer : Answer} (answered : (s.perform step).1 = .ok answer) :
    (∃ value, answer = .tagged value ∧ b.finish ready = .ok (value, b.left ready)) ∧
      (s.perform step).2.bridge.stores = (s.bridge.writeBack b (b.left ready)).stores := by
  obtain ⟨g, ho, hg⟩ := s.perform_outcome h.isCall
  obtain ⟨args, ht, hr⟩ := h
  have hs : (s.perform step).2.bridge.stores = g.stores := congrArg (·.bridge.stores) hg
  rw [hs]
  rw [answered] at ho
  generalize ha : Except.ok answer = r at ho
  cases ho with
  | missed => cases ha
  | ran found run =>
    rw [ht] at found
    cases found
    cases run with
    | refused => cases ha
    | failed => cases ha
    | succeeded reached done =>
      rw [hr] at reached
      cases reached
      cases ha
      exact ⟨⟨_, rfl, done⟩, rfl⟩

/-- What a step can make of the stores. -/
inductive Effect (s : Session) : Step → List Store → Prop
  | none (step : Step) : Effect s step s.bridge.stores
  | added {initial : List (Native × Incoming)} (id : String)
      (made : contents initial [] = .ok store) :
      Effect s (.store id initial) (s.bridge.stores ++ [store])
  | edited (reached : s.Reaches step b ready) (late : b.finish ready = .error e) :
      Effect s step (s.bridge.keepEdits b (b.edited ready)).stores
  | called (reached : s.Reaches step b ready) (answered : (s.perform step).1 = .ok answer) :
      Effect s step (s.bridge.writeBack b (b.left ready)).stores
  | written (found : s.bindingOf binding = .ok b) (state : Variables) :
      Effect s (.writeState binding (.table state)) (s.bridge.writeBack b state).stores

theorem call_effect (s : Session) {step : Step} (h : step.IsCall) :
    s.Effect step (s.perform step).2.bridge.stores := by
  obtain ⟨g, ho, hg⟩ := s.perform_outcome h
  have hs : (s.perform step).2.bridge.stores = g.stores := congrArg (·.bridge.stores) hg
  rw [hs]
  generalize ha : (s.perform step).1 = answer at ho
  cases ho with
  | missed => exact .none step
  | ran found run =>
    cases run with
    | refused => exact .none step
    | failed reached late => exact .edited ⟨_, found, reached⟩ late
    | succeeded reached done => exact .called ⟨_, found, reached⟩ ha

theorem nameBinding_bridge (s : Session) (id : String) (r : Attempt Nat × Bridge) :
    (s.nameBinding id r).2.bridge = r.2 := by
  unfold nameBinding
  split <;> rfl

theorem addRegistry_kept (s : Session) (id : String) (r : Registry) (live : Bool) :
    (s.addRegistry id r live).2.bridge.stores = s.bridge.stores ∧
      (s.addRegistry id r live).2.bridge.bindings = s.bridge.bindings := by
  cases live with
  | false => exact ⟨rfl, rfl⟩
  | true => exact s.bridge.create_kept r

/-- What another program logs goes to the log only. -/
theorem forward_kept (s : Session) (module : String) (least : Nat)
    (logger level message : Native) (args : List Native) :
    (s.forward module least logger level message args).2.quiet = s.quiet := by
  unfold forward
  split
  · rfl
  · rfl
  · split
    · rfl
    · split <;> rfl

theorem writeState_effect (s : Session) (binding : String) (state : Native) :
    s.Effect (.writeState binding state)
      (s.perform (.writeState binding state)).2.bridge.stores := by
  simp only [perform, onNamed]
  split
  · exact .none _
  · rename_i n hn
    simp only [settle, Bridge.writeState]
    split
    · exact .none _
    · rename_i b hb
      split
      · exact .none _
      · exact .none _
      · refine .written (b := b) ?_ _
        rw [bindingOf, hn, Attempt.ok_bind, hb]
      · exact .none _

/-- Every step has one of the effects. -/
theorem perform_effect (s : Session) (step : Step) :
    s.Effect step (s.perform step).2.bridge.stores := by
  have unchanged (h : (s.perform step).2.bridge.stores = s.bridge.stores) :
      s.Effect step (s.perform step).2.bridge.stores := h ▸ .none step
  cases step with
  | call | invoke | decorate => exact s.call_effect trivial
  | writeState binding state => exact s.writeState_effect binding state
  | store id initial =>
    simp only [perform]
    cases hc : contents initial [] with
    | error e => exact .none _
    | ok store => exact .added id hc
  | registry id name author version store live =>
    apply unchanged
    simp only [perform]
    split
    · rfl
    · exact (s.addRegistry_kept id _ live).1
  | fromSettings id source store =>
    apply unchanged
    simp only [perform]
    split
    · rfl
    · exact (s.addRegistry_kept id _ true).1
  | add id registry role name kind callback =>
    apply unchanged
    simp only [perform]
    split
    · rfl
    · rw [nameBinding_bridge]
      exact s.bridge.build_stores ..
  | build id role name kind callback registry store =>
    apply unchanged
    simp only [perform]
    split
    · rfl
    · rw [nameBinding_bridge]
      exact s.bridge.build_stores ..
  | addParameter binding kind optional =>
    apply unchanged
    simp only [perform]
    split
    · rfl
    · exact s.bridge.addParameter_stores ..
  | forward module least logger level message args =>
    exact unchanged (stores_congr (s.forward_kept ..))
  | current | reset | metadata | tables | info | lookup | decodeArguments | readState | callback
  | storeSize | configure => exact .none _

end Session

end HostBridge
