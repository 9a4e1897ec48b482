import HostBridge.Proofs.Calls
import HostBridge.Session

namespace HostBridge

open Log (Logging Line)

namespace Log

/-- What may come to the log: a record of the library, or one of the rest of the program through a
logger that drops all below a level. -/
inductive Event where
  | library (module message : String)
  | other (least : Nat) (record : Record)

/-- What an event writes. -/
def Logging.lines (l : Logging) : Event → List Line
  | .library module message => l.report module message
  | .other least record => l.forward least record

end Log

namespace Bridge

/-- A bridge with another log. -/
def relogged (g : Bridge) (logging : Logging) (lines : List Line) : Bridge :=
  { g with logging, lines }

/-- An operation answers the same under every log, leaves the same bridge but for the log, and
writes the lines of the same events. -/
def Emits {α : Type} (f : Bridge → α × Bridge) (g : Bridge) : Prop :=
  ∃ (a : α) (h : Bridge) (events : List Log.Event), ∀ logging lines,
    f (g.relogged logging lines) = (a, h.relogged logging (lines ++ events.flatMap logging.lines))

namespace Emits

variable {α : Type} {f f' : Bridge → α × Bridge} {g : Bridge}

/-- An operation that writes nothing. -/
theorem silent (same : ∀ logging lines,
    f (g.relogged logging lines) = ((f g).1, (f g).2.relogged logging lines)) : Emits f g := by
  refine ⟨(f g).1, (f g).2, [], fun logging lines => ?_⟩
  rw [same, List.flatMap_nil, List.append_nil]

theorem of_eq (emits : Emits f' g)
    (same : ∀ logging lines, f (g.relogged logging lines) = f' (g.relogged logging lines)) :
    Emits f g := by
  obtain ⟨a, h, events, after⟩ := emits
  exact ⟨a, h, events, fun logging lines => (same logging lines).trans (after logging lines)⟩

/-- A report before an operation is an event before its events. -/
theorem reporting (emits : Emits f g) (module message : String) :
    Emits (fun g => f (g.report module message)) g := by
  obtain ⟨a, h, events, after⟩ := emits
  refine ⟨a, h, .library module message :: events, fun logging lines => ?_⟩
  rw [List.flatMap_cons, ← List.append_assoc]
  exact after logging (lines ++ logging.report module message)

/-- A report after an operation is an event after its events. -/
theorem reported (emits : Emits f g) (module message : String) :
    Emits (fun g => ((f g).1, (f g).2.report module message)) g := by
  obtain ⟨a, h, events, after⟩ := emits
  refine ⟨a, h, events ++ [.library module message], fun logging lines => ?_⟩
  rw [List.flatMap_append, List.flatMap_singleton, ← List.append_assoc]
  simp only [after]
  rfl

theorem map {β : Type} (emits : Emits f g) (k : α → β) :
    Emits (fun g => (k (f g).1, (f g).2)) g := by
  obtain ⟨a, h, events, after⟩ := emits
  exact ⟨k a, h, events, fun logging lines => by simp only [after]⟩

/-- What an operation comes to under another log. -/
theorem relogged (emits : Emits f g) (logging : Logging) (lines : List Line) :
    ∃ written, f (g.relogged logging lines) = ((f g).1, (f g).2.relogged logging written) := by
  obtain ⟨a, h, events, after⟩ := emits
  have here : f g = _ := after g.logging g.lines
  rw [after, here]
  exact ⟨_, rfl⟩

/-- What an operation makes of two bridges that differ in the lines of the log only. -/
theorem congr (emits : ∀ g, Emits f g) {g h : Bridge} (he : g.quiet = h.quiet) :
    (f g).1 = (f h).1 ∧ (f g).2.quiet = (f h).2.quiet := by
  obtain ⟨a, left, events, after⟩ := emits h
  have same : g = h.relogged h.logging g.lines := by
    cases g
    cases h
    cases he
    rfl
  have here : f h = _ := after h.logging h.lines
  rw [same, after, here]
  exact ⟨rfl, rfl⟩

end Emits

section Operations

variable (g : Bridge) (logging : Logging) (lines : List Line)

theorem contents_relogged (b : Binding) : (g.relogged logging lines).contents b = g.contents b :=
  rfl

theorem binding_relogged (id : Nat) : (g.relogged logging lines).binding id = g.binding id :=
  rfl

theorem find_relogged (registry : Nat) (target : Native) :
    (g.relogged logging lines).find registry target = g.find registry target :=
  rfl

theorem keepEdits_relogged (b : Binding) (edits : Ordered Native (List Native)) :
    (g.relogged logging lines).keepEdits b edits =
      (g.keepEdits b edits).relogged logging lines := by
  unfold keepEdits
  split <;> rfl

theorem writeBack_relogged (b : Binding) (vars : Variables) :
    (g.relogged logging lines).writeBack b vars = (g.writeBack b vars).relogged logging lines := by
  unfold writeBack
  split <;> rfl

theorem run_emits (b : Binding) (args : List Incoming) : Emits (·.run b args) g := by
  cases prepared : b.prepare (g.contents b) (b.considered args) with
  | error e =>
    refine .silent fun logging lines => ?_
    simp only [run, contents_relogged, prepared]
  | ok ready =>
    cases finished : b.finish ready with
    | error e =>
      have left :
          Emits (fun g => ((.error e : Attempt Tagged), g.keepEdits b (b.edited ready))) g :=
        .silent fun logging lines => by rw [keepEdits_relogged]
      apply (left.reporting _ _).of_eq
      intro logging lines
      simp only [run, contents_relogged, prepared, finished]
      rfl
    | ok r =>
      have left : Emits (fun g => ((.ok r.1 : Attempt Tagged), g.writeBack b r.2)) g :=
        .silent fun logging lines => by rw [writeBack_relogged]
      apply (left.reporting _ _).of_eq
      intro logging lines
      simp only [run, contents_relogged, prepared, finished]
      rfl

theorem invoke_emits (id : Nat) (args : List Incoming) : Emits (·.invoke id args) g := by
  cases held : g.binding id with
  | error e =>
    refine .silent fun logging lines => ?_
    simp only [invoke, binding_relogged, held]
  | ok b =>
    refine (g.run_emits b args).of_eq fun logging lines => ?_
    simp only [invoke, binding_relogged, held]

theorem decorate_emits (id : Nat) (value : Incoming) : Emits (·.decorate id value) g := by
  cases held : g.binding id with
  | error e =>
    refine .silent fun logging lines => ?_
    simp only [decorate, binding_relogged, held]
  | ok b =>
    cases role : b.role with
    | decorator =>
      refine (g.run_emits b [value]).of_eq fun logging lines => ?_
      simp only [decorate, binding_relogged, held, role]
    | function =>
      cases listed : b.arguments value with
      | error e =>
        refine .silent fun logging lines => ?_
        simp only [decorate, binding_relogged, held, role, listed]
      | ok args =>
        refine (g.run_emits b args).of_eq fun logging lines => ?_
        simp only [decorate, binding_relogged, held, role, listed]

theorem call_emits (registry : Nat) (target : Native) (args : List Incoming) :
    Emits (·.call registry target args) g := by
  cases found : g.find registry target with
  | error e =>
    refine .silent fun logging lines => ?_
    simp only [call, find_relogged, found]
  | ok id =>
    apply ((g.invoke_emits id args).reporting _ _).of_eq
    intro logging lines
    simp only [call, find_relogged, found]
    rfl

theorem addBinding_emits (b : Binding) (registry : Option Nat) :
    Emits (·.addBinding b registry) g := by
  cases registry with
  | none => exact .silent fun logging lines => rfl
  | some r =>
    have added : Emits (fun g => (g.bindings.length, { g with
        bindings := g.bindings ++ [b]
        registries := g.registries.modify r fun table => table.register b g.bindings.length })) g :=
      .silent fun logging lines => rfl
    exact added.reported _ _

theorem build_emits (role : Role) (name kind : Native) (callback : Callback)
    (registry store : Option Nat) : Emits (·.build role name kind callback registry store) g := by
  cases named : nameOf name with
  | error e => exact .silent fun logging lines => by simp only [build, named]
  | ok text =>
    cases of : kindOf kind with
    | error e => exact .silent fun logging lines => by simp only [build, named, of]
    | ok result =>
      apply ((g.addBinding_emits _ registry).map Except.ok).of_eq
      intro logging lines
      simp only [build, named, of]
      rfl

theorem buildOn_emits (registry : Nat) (role : Role) (name kind : Native) (callback : Callback) :
    Emits (·.buildOn registry role name kind callback) g :=
  g.build_emits role name kind callback (some registry) (g.registries[registry]?.bind (·.store))

theorem addParameter_emits (id : Nat) (kind : Native) (optional : Bool) :
    Emits (·.addParameter id kind optional) g := by
  refine .silent fun logging lines => ?_
  simp only [addParameter, binding_relogged]
  cases g.binding id with
  | error e => rfl
  | ok b =>
    dsimp only
    cases b.role with
    | decorator => rfl
    | function => cases b.addParameter kind optional <;> rfl

theorem writeState_emits (id : Nat) (state : Native) : Emits (·.writeState id state) g := by
  refine .silent fun logging lines => ?_
  simp only [writeState, binding_relogged]
  cases g.binding id with
  | error e => rfl
  | ok b =>
    dsimp only
    split
    · rfl
    · rfl
    · simp only [writeBack_relogged]
    · rfl

theorem create_emits (r : Registry) : Emits (·.create r) g := by
  have made : Emits (fun g => (g.registries.length,
      { g with registries := g.registries ++ [r], live := some g.registries.length })) g :=
    .silent fun logging lines => rfl
  cases live : g.live.bind (g.registries[·]?) with
  | none =>
    apply (made.reported _ _).of_eq
    intro logging lines
    have same : (g.relogged logging lines).live.bind
        ((g.relogged logging lines).registries[·]?) = none := live
    simp only [create, same]
    rfl
  | some old =>
    apply ((made.reported _ _).reporting _ _).of_eq
    intro logging lines
    have same : (g.relogged logging lines).live.bind
        ((g.relogged logging lines).registries[·]?) = some old := live
    simp only [create, same]
    rfl

end Operations

end Bridge

namespace Session

/-- A session without the lines of its log. -/
def quiet (s : Session) : Session :=
  { s with bridge := s.bridge.quiet }

theorem stores_congr {s t : Session} (h : s.quiet = t.quiet) :
    s.bridge.stores = t.bridge.stores := by
  change s.quiet.bridge.stores = t.quiet.bridge.stores
  rw [h]

theorem storeContents_congr {s t : Session} (h : s.quiet = t.quiet) :
    s.storeContents = t.storeContents := by
  change s.quiet.storeContents = t.quiet.storeContents
  rw [h]

/-- A session with another log. -/
def relogged (s : Session) (logging : Logging) (lines : List Line) : Session :=
  { s with bridge := s.bridge.relogged logging lines }

@[simp]
theorem relogged_stores (s : Session) (logging : Logging) (lines : List Line) :
    (s.relogged logging lines).stores = s.stores := rfl

@[simp]
theorem relogged_registries (s : Session) (logging : Logging) (lines : List Line) :
    (s.relogged logging lines).registries = s.registries := rfl

@[simp]
theorem relogged_bindings (s : Session) (logging : Logging) (lines : List Line) :
    (s.relogged logging lines).bindings = s.bindings := rfl

theorem relogged_of_quiet {s t : Session} (h : s.quiet = t.quiet) :
    s = t.relogged t.bridge.logging s.bridge.lines := by
  obtain ⟨⟨⟩, _, _, _⟩ := s
  obtain ⟨⟨⟩, _, _, _⟩ := t
  cases h
  rfl

/-- An operation answers the same under every log that forwards the records of others alike, leaves
the same session but for the log, and writes the lines of the same events. -/
def Emits (f : Session → Attempt Answer × Session) (s : Session) : Prop :=
  ∃ (a : Attempt Answer) (t : Session) (events : List Log.Event), ∀ logging lines,
    logging.forwarding = s.bridge.logging.forwarding →
    f (s.relogged logging lines) = (a, t.relogged logging (lines ++ events.flatMap logging.lines))

namespace Emits

variable {f f' : Session → Attempt Answer × Session} {s : Session}

theorem silent (same : ∀ logging lines, logging.forwarding = s.bridge.logging.forwarding →
    f (s.relogged logging lines) = ((f s).1, (f s).2.relogged logging lines)) : Emits f s := by
  refine ⟨(f s).1, (f s).2, [], fun logging lines alike => ?_⟩
  rw [same logging lines alike, List.flatMap_nil, List.append_nil]

/-- An operation that leaves the session as it is. -/
theorem asking {answer : Session → Attempt Answer}
    (same : ∀ logging lines, answer (s.relogged logging lines) = answer s) :
    Emits (fun s => (answer s, s)) s :=
  .silent fun logging lines _ => by rw [same]

theorem of_eq (emits : Emits f' s)
    (same : ∀ logging lines, f (s.relogged logging lines) = f' (s.relogged logging lines)) :
    Emits f s := by
  obtain ⟨a, t, events, after⟩ := emits
  exact ⟨a, t, events, fun logging lines alike =>
    (same logging lines).trans (after logging lines alike)⟩

/-- An operation of the bridge as one of the session. -/
theorem lift {α : Type} {operation : Bridge → α × Bridge}
    (emits : Bridge.Emits operation s.bridge) (k : α → Bridge → Attempt Answer × Session)
    (same : ∀ a g logging lines, k a (g.relogged logging lines) =
      ((k a g).1, (k a g).2.relogged logging lines)) :
    Emits (fun s => k (operation s.bridge).1 (operation s.bridge).2) s := by
  obtain ⟨a, g, events, after⟩ := emits
  refine ⟨(k a g).1, (k a g).2, events, fun logging lines _ => ?_⟩
  have here : operation (s.relogged logging lines).bridge = _ := after logging lines
  simp only [here, same]

end Emits

theorem settle_emits {α : Type} {s : Session} {answer : α → Answer}
    {f : Bridge → Attempt α × Bridge} (emits : Bridge.Emits f s.bridge) :
    Emits (fun s => s.settle answer (f s.bridge)) s :=
  (Emits.lift emits (fun a g => (a.map answer, { s with bridge := g })) fun _ _ _ _ => rfl).of_eq
    fun _ _ => rfl

theorem onNamed_emits {α : Type} {s : Session} (names : Ordered String Nat) (id : String)
    {answer : α → Answer} {f : Nat → Bridge → Attempt α × Bridge}
    (emits : ∀ n, Bridge.Emits (f n) s.bridge) :
    Emits (fun s => s.onNamed names id answer (f · s.bridge)) s := by
  unfold onNamed
  cases named names id with
  | error e => exact .asking fun _ _ => rfl
  | ok n => exact settle_emits (emits n)

theorem nameBinding_emits {s : Session} (id : String) {f : Bridge → Attempt Nat × Bridge}
    (emits : Bridge.Emits f s.bridge) : Emits (fun s => s.nameBinding id (f s.bridge)) s := by
  refine (Emits.lift emits (fun a g => s.nameBinding id (a, g)) fun a g _ _ => ?_).of_eq
    fun _ _ => rfl
  cases a <;> rfl

theorem addRegistry_emits (s : Session) (id : String) (r : Registry) (live : Bool) :
    Emits (fun s => (.ok (s.addRegistry id r live).1, (s.addRegistry id r live).2)) s := by
  cases live with
  | false => exact .silent fun _ _ _ => rfl
  | true =>
    exact (Emits.lift (s.bridge.create_emits r) (fun n g => (.ok (.identity r),
      { s with bridge := g, registries := s.registries.insert id n })) fun _ _ _ _ => rfl).of_eq
      fun _ _ => rfl

theorem forward_emits (s : Session) (module : String) (least : Nat)
    (logger level message : Native) (args : List Native) :
    Emits (·.forward module least logger level message args) s := by
  cases known : forward.loggerName logger with
  | false => exact .silent fun _ _ _ => by simp only [forward, known]
  | true =>
    cases number : level.asInt? with
    | none => exact .silent fun _ _ _ => by simp only [forward, known, number]
    | some n =>
      by_cases low : n < least
      · exact .silent fun _ _ _ => by simp only [forward, known, number, if_pos low]
      · cases filled : (do Log.message (← detail message) args : Attempt String) with
        | error e =>
          refine .silent fun logging lines alike => ?_
          simp only [forward, known, number, if_neg low, filled, relogged, Bridge.relogged, alike]
        | ok text =>
          refine ⟨.ok .nothing, s, [.other least ⟨n.toNat, module, text⟩],
            fun logging lines _ => ?_⟩
          simp only [forward, known, number, if_neg low, filled, List.flatMap_singleton]
          rfl

/-- A step configures the log or does something else. -/
theorem configures_or_not (step : Step) :
    (∃ profile text? default?, step = .configure profile text? default?) ∨
      ∀ profile text? default?, step ≠ .configure profile text? default? := by
  cases step with
  | configure profile text? default? => exact .inl ⟨profile, text?, default?, rfl⟩
  | _ => exact .inr fun _ _ _ => Step.noConfusion

/-- One step, apart from a configuration of the log. -/
theorem perform_emits (s : Session) (step : Step)
    (other : ∀ profile text? default?, step ≠ .configure profile text? default?) :
    Emits (·.perform step) s := by
  cases step with
  | store id initial =>
    cases filled : contents initial [] with
    | error e => exact .silent fun _ _ _ => by simp only [perform, filled]
    | ok store =>
      refine .silent fun _ _ _ => ?_
      simp only [perform, filled]
      rfl
  | registry id name author version store live =>
    cases made : (do details name author version (← named? s.stores store) : Attempt Registry) with
    | error e => exact .silent fun _ _ _ => by simp only [perform, relogged_stores, made]
    | ok r =>
      refine (s.addRegistry_emits id r live).of_eq fun logging lines => ?_
      simp only [perform, relogged_stores, made]
  | fromSettings id source store =>
    cases read : (do return (← named? s.stores store, ← Settings.load source) :
        Attempt (Option Nat × Settings)) with
    | error e => exact .silent fun _ _ _ => by simp only [perform, relogged_stores, read]
    | ok r =>
      refine (s.addRegistry_emits id
        (.empty r.2.name r.2.author r.2.version r.1) true).of_eq fun logging lines => ?_
      simp only [perform, relogged_stores, read]
  | add id registry role name kind callback =>
    cases found : named s.registries registry with
    | error e => exact .silent fun _ _ _ => by simp only [perform, relogged_registries, found]
    | ok r =>
      refine (nameBinding_emits id (s.bridge.buildOn_emits r role name kind callback)).of_eq
        fun logging lines => ?_
      simp only [perform, relogged_registries, found]
  | build id role name kind callback registry store =>
    cases found : (do return (← named? s.registries registry, ← named? s.stores store) :
        Attempt (Option Nat × Option Nat)) with
    | error e =>
      exact .silent fun _ _ _ => by simp only [perform, relogged_registries, relogged_stores, found]
    | ok r =>
      refine (nameBinding_emits id (s.bridge.build_emits role name kind callback r.1 r.2)).of_eq
        fun logging lines => ?_
      simp only [perform, relogged_registries, relogged_stores, found]
  | addParameter binding kind optional =>
    cases found : named s.bindings binding with
    | error e => exact .silent fun _ _ _ => by simp only [perform, relogged_bindings, found]
    | ok n =>
      refine (Emits.lift (s.bridge.addParameter_emits n kind optional) (fun result g =>
        (do result; return .info (← g.binding n), { s with bridge := g })) ?_).of_eq
        fun logging lines => ?_
      · exact fun _ _ _ _ => rfl
      · simp only [perform, relogged_bindings, found]
        rfl
  | call registry target args =>
    exact (onNamed_emits s.registries registry fun r => s.bridge.call_emits r target args).of_eq
      fun _ _ => rfl
  | invoke binding args =>
    exact (onNamed_emits s.bindings binding fun n => s.bridge.invoke_emits n args).of_eq
      fun _ _ => rfl
  | decorate binding value =>
    exact (onNamed_emits s.bindings binding fun n => s.bridge.decorate_emits n value).of_eq
      fun _ _ => rfl
  | writeState binding state =>
    exact (onNamed_emits s.bindings binding fun n => s.bridge.writeState_emits n state).of_eq
      fun _ _ => rfl
  | forward module least logger level message args =>
    exact s.forward_emits module least logger level message args
  | configure profile text? default? => exact absurd rfl (other profile text? default?)
  | current | reset | metadata | tables | info | lookup | decodeArguments | readState | callback
  | storeSize => exact .silent fun _ _ _ => rfl

theorem perform_logging (s : Session) {step : Step}
    (other : ∀ profile text? default?, step ≠ .configure profile text? default?) :
    (s.perform step).2.bridge.logging = s.bridge.logging := by
  obtain ⟨a, t, events, after⟩ := s.perform_emits step other
  have here : s.perform step = _ := after s.bridge.logging s.bridge.lines rfl
  rw [here]
  rfl

theorem configure_relogged (s : Session) (logging : Logging) (lines : List Line)
    (profile : Log.Profile) (text? default? : Option String) :
    (s.relogged logging lines).perform (.configure profile text? default?) =
      ((logging.configure profile text? default?).1.map fun _ => .nothing,
        s.relogged (logging.configure profile text? default?).2 lines) :=
  rfl

/-- What the steps of a run answer. -/
def answers (s : Session) : List Step → List (Attempt Answer)
  | [] => []
  | step :: steps => (s.perform step).1 :: answers (s.perform step).2 steps

theorem answers_append (s : Session) (steps more : List Step) :
    s.answers (steps ++ more) = s.answers steps ++ (s.after steps).answers more := by
  induction steps generalizing s with
  | nil => rfl
  | cons step steps ih =>
    simp only [List.cons_append, answers, ih]
    rfl

theorem after_cons (s : Session) (step : Step) (steps : List Step) :
    s.after (step :: steps) = (s.perform step).2.after steps :=
  rfl

theorem after_append (s : Session) (steps more : List Step) :
    s.after (steps ++ more) = (s.after steps).after more :=
  List.foldl_append

theorem answers_length (s : Session) (steps : List Step) :
    (s.answers steps).length = steps.length := by
  induction steps generalizing s with
  | nil => rfl
  | cons step steps ih => simp [answers, ih]

/-- A step does not look at the lines of the log, and adds to them. -/
theorem perform_adds (s : Session) (step : Step) :
    ∃ (a : Attempt Answer) (t : Session) (new : List Line), ∀ lines,
      (s.relogged s.bridge.logging lines).perform step =
        (a, t.relogged t.bridge.logging (lines ++ new)) := by
  rcases configures_or_not step with ⟨profile, text?, default?, rfl⟩ | other
  · refine ⟨(s.perform (.configure profile text? default?)).1,
      s.relogged (s.bridge.logging.configure profile text? default?).2 [], [], fun lines => ?_⟩
    rw [configure_relogged, List.append_nil]
    rfl
  · obtain ⟨a, t, events, after⟩ := s.perform_emits step other
    exact ⟨a, t.relogged s.bridge.logging [], events.flatMap s.bridge.logging.lines,
      fun lines => after s.bridge.logging lines rfl⟩

/-- So does a run. -/
theorem run_adds (s : Session) (steps : List Step) :
    ∃ (as : List (Attempt Answer)) (t : Session) (new : List Line), ∀ lines,
      (s.relogged s.bridge.logging lines).answers steps = as ∧
        (s.relogged s.bridge.logging lines).after steps =
          t.relogged t.bridge.logging (lines ++ new) := by
  induction steps generalizing s with
  | nil =>
    refine ⟨[], s, [], fun lines => ⟨rfl, ?_⟩⟩
    rw [List.append_nil]
    rfl
  | cons step steps ih =>
    obtain ⟨a, next, written, performed⟩ := s.perform_adds step
    obtain ⟨as, t, more, run⟩ := ih next
    refine ⟨a :: as, t, written ++ more, fun lines => ?_⟩
    obtain ⟨answered, left⟩ := run (lines ++ written)
    rw [answers, after_cons, performed, answered, left, List.append_assoc]
    exact ⟨rfl, rfl⟩

/-- Whole runs of sessions that differ in the lines of the log only answer alike and end alike. -/
theorem run_congr {s t : Session} (h : s.quiet = t.quiet) (steps : List Step) :
    s.answers steps = t.answers steps ∧ (s.after steps).quiet = (t.after steps).quiet := by
  obtain ⟨as, left, new, run⟩ := t.run_adds steps
  obtain ⟨answered, ended⟩ : t.answers steps = _ ∧ t.after steps = _ := run t.bridge.lines
  obtain ⟨answered', ended'⟩ := run s.bridge.lines
  rw [relogged_of_quiet h, answered, ended, answered', ended']
  exact ⟨rfl, rfl⟩

/-- They write the same lines. -/
theorem run_writes {s t : Session} (h : s.quiet = t.quiet) (steps : List Step) :
    ∃ new, (s.after steps).bridge.lines = s.bridge.lines ++ new ∧
      (t.after steps).bridge.lines = t.bridge.lines ++ new := by
  obtain ⟨as, left, new, run⟩ := t.run_adds steps
  obtain ⟨_, ended⟩ : t.answers steps = _ ∧ t.after steps = _ := run t.bridge.lines
  obtain ⟨_, ended'⟩ := run s.bridge.lines
  refine ⟨new, ?_, ?_⟩
  · rw [relogged_of_quiet h, ended']
    rfl
  · rw [ended]
    rfl

end Session

end HostBridge
