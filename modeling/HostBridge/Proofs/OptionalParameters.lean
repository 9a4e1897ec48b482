import HostBridge.Proofs.ArgumentDecoding
import HostBridge.Proofs.Effects

namespace HostBridge

namespace Binding

/-- What a request for a parameter comes to: it comes too late behind an optional one, it names no
kind, or it is accepted. -/
inductive Requested (b : Binding) (kind : Native) (optional : Bool) : Attempt Binding → Prop
  | late (closed : b.closed = true) (needed : optional = false) :
      Requested b kind optional (.error (.requiredAfterOptional b.name))
  | unknown (fits : b.closed = true → optional = true) (none : ∀ k : Kind, kind ≠ .text k.name) :
      Requested b kind optional (.error .unknownKind)
  | accepted (fits : b.closed = true → optional = true) (k : Kind) (known : kind = .text k.name) :
      Requested b kind optional (.ok { b with
        parameters := b.parameters ++ [⟨k, optional⟩]
        closed := b.closed || optional })

theorem addParameter_requested (b : Binding) (kind : Native) (optional : Bool) :
    b.Requested kind optional (b.addParameter kind optional) := by
  unfold addParameter
  split
  · rename_i late
    simp only [Bool.and_eq_true, Bool.not_eq_true'] at late
    exact .late late.1 late.2
  · rename_i early
    have fits : b.closed = true → optional = true := by simpa using early
    rcases kindOf_cases kind with ⟨k, known, hk⟩ | ⟨none, hk⟩
    · rw [hk]
      exact .accepted fits k known
    · rw [hk]
      exact .unknown fits none

/-- The two ways to refuse a request; the check of the order comes first. -/
theorem addParameter_refusals (b : Binding) (kind : Native) (optional : Bool) :
    (b.addParameter kind optional = .error (.requiredAfterOptional b.name) ↔
      optional = false ∧ b.closed = true) ∧
    (b.addParameter kind optional = .error .unknownKind ↔
      ¬ (optional = false ∧ b.closed = true) ∧ ∀ k : Kind, kind ≠ .text k.name) ∧
    ∀ e, b.addParameter kind optional = .error e →
      e = .requiredAfterOptional b.name ∨ e = .unknownKind := by
  have requested := b.addParameter_requested kind optional
  generalize b.addParameter kind optional = answer at requested
  cases requested with
  | late closed needed => simp [closed, needed]
  | unknown fits none =>
    have early : ¬ (optional = false ∧ b.closed = true) := fun late => by simp [fits late.2] at late
    simp [early, none]
  | accepted fits k known =>
    have early : ¬ (optional = false ∧ b.closed = true) := fun late => by simp [fits late.2] at late
    simp [early, known]

/-- The latch is set when there is an optional parameter, and the optional ones stand at the end. -/
structure Orderly (b : Binding) : Prop where
  latch : b.closed = b.parameters.any (·.optional)
  suffix : ∃ needed spare, b.parameters = needed ++ spare ∧ (∀ p ∈ needed, p.optional = false) ∧
    ∀ p ∈ spare, p.optional = true

theorem orderly_empty {b : Binding} (none : b.parameters = []) (unset : b.closed = false) :
    b.Orderly :=
  ⟨by rw [none, unset]; rfl, [], [], none, List.forall_mem_nil _, List.forall_mem_nil _⟩

theorem any_optional {ps : List Parameter} :
    ps.any (·.optional) = true ↔ ∃ p ∈ ps, p.optional = true :=
  List.any_eq_true

/-- A parameter that fits behind the others is added. -/
theorem Orderly.accept {b : Binding} (h : b.Orderly) {p : Parameter}
    (fits : b.closed = true → p.optional = true) :
    { b with parameters := b.parameters ++ [p], closed := b.closed || p.optional }.Orderly := by
  obtain ⟨needed, spare, split, required, optional⟩ := h.suffix
  refine ⟨by simp [h.latch], ?_⟩
  cases hp : p.optional with
  | true =>
    refine ⟨needed, spare ++ [p], by rw [split, List.append_assoc], required, ?_⟩
    exact List.forall_mem_append.mpr ⟨optional, List.forall_mem_singleton.mpr hp⟩
  | false =>
    -- No optional parameter has been accepted yet, or the latch would be set.
    have unset : ¬ b.closed = true := fun closed => by rw [fits closed] at hp; cases hp
    have none : spare = [] := by
      refine List.eq_nil_iff_forall_not_mem.mpr fun q hq => unset ?_
      rw [h.latch, any_optional, split]
      exact ⟨q, List.mem_append_right _ hq, optional q hq⟩
    subst none
    rw [List.append_nil] at split
    refine ⟨needed ++ [p], [], by rw [split, List.append_nil], ?_, List.forall_mem_nil _⟩
    exact List.forall_mem_append.mpr ⟨required, List.forall_mem_singleton.mpr hp⟩

/-- The last parameter tells whether any is optional. -/
theorem Orderly.required {b : Binding} (h : b.Orderly) :
    b.required =
      if ∃ p ∈ b.parameters, p.optional = true then b.parameters.length - 1
      else b.parameters.length := by
  obtain ⟨needed, spare, split, required, optional⟩ := h.suffix
  have last : (b.parameters.getLast?).any (·.optional) = true ↔
      ∃ p ∈ b.parameters, p.optional = true := by
    rw [split, List.getLast?_append]
    cases hs : spare.getLast? with
    | some p =>
      have spared := List.mem_of_getLast? hs
      have marked := optional p spared
      exact ⟨fun _ => ⟨p, List.mem_append_right _ spared, marked⟩, fun _ => by simpa using marked⟩
    | none =>
      rw [List.getLast?_eq_none_iff.mp hs, List.append_nil, Option.none_or]
      have unmarked : ∀ q ∈ needed, ¬ q.optional = true := fun q hq => by simp [required q hq]
      refine ⟨fun ends => ?_, fun ⟨q, hq, marked⟩ => absurd marked (unmarked q hq)⟩
      obtain ⟨q, hq, marked⟩ := (Option.any_eq_true ..).mp ends
      exact absurd marked (unmarked q (List.mem_of_getLast? hq))
  unfold Binding.required
  simp only [last]

end Binding

namespace Bridge

/-- Building adds a binding without requests, or fails and adds none. -/
theorem build_bindings (g : Bridge) (role : Role) (name kind : Native) (callback : Callback)
    (on store : Option Nat) :
    (g.build role name kind callback on store).2.bindings = g.bindings ∨
      ∃ b : Binding, (b.role = .function → b.parameters = [] ∧ b.closed = false) ∧
        (g.build role name kind callback on store).2.bindings = g.bindings ++ [b] := by
  unfold build
  split
  · exact .inl rfl
  · exact .inl rfl
  · rename_i text kind _ _
    right
    cases role with
    | function =>
      exact ⟨.function text callback kind store, fun _ => ⟨rfl, rfl⟩, by cases on <;> rfl⟩
    | decorator =>
      refine ⟨.decorator text kind callback store, fun function => ?_, by cases on <;> rfl⟩
      cases function

end Bridge

namespace Session

/-- The parameter that a step asks for on a binding, if it does and is not refused. -/
def declared (s : Session) (n : Nat) (step : Step) : Option Parameter :=
  match step, (s.perform step).1 with
  | .addParameter binding kind optional, .ok _ =>
    match named s.bindings binding with
    | .ok m => if m = n then some ⟨kindOrAny kind, optional⟩ else none
    | .error _ => none
  | _, _ => none

/-- All parameters that a run asks for on a binding and gets, in order. -/
def declarations (s : Session) (n : Nat) : List Step → List Parameter
  | [] => []
  | step :: steps => (s.declared n step).toList ++ (s.perform step).2.declarations n steps

/-- What a step makes of the bindings, and which parameters it declares. -/
inductive Declaring (s : Session) (step : Step) (bindings : List Binding) : Prop
  | kept (same : bindings = s.bridge.bindings) (declared : ∀ n, s.declared n step = none)
  | made (b : Binding) (fresh : b.role = .function → b.parameters = [] ∧ b.closed = false)
      (grown : bindings = s.bridge.bindings ++ [b]) (declared : ∀ n, s.declared n step = none)
  | accepted (m : Nat) (b : Binding) (p : Parameter) (found : s.bridge.bindings[m]? = some b)
      (fits : b.closed = true → p.optional = true)
      (replaced : bindings = s.bridge.bindings.set m { b with
        parameters := b.parameters ++ [p]
        closed := b.closed || p.optional })
      (declared : ∀ n, s.declared n step = if m = n then some p else none)

/-- Asking a function for a parameter: it is changed, or it refuses and all is as before. -/
theorem perform_addParameter {s : Session} {id : String} {n : Nat} {b : Binding}
    (stands : named s.bindings id = .ok n) (found : s.bridge.bindings[n]? = some b)
    (function : b.role = .function) (kind : Native) (optional : Bool) :
    s.perform (.addParameter id kind optional) = match b.addParameter kind optional with
      | .error e => (.error e, s)
      | .ok c => (.ok (.info c),
        { s with bridge := { s.bridge with bindings := s.bridge.bindings.set n c } }) := by
  have binding : s.bridge.binding n = .ok b := by simp only [Bridge.binding, found]
  have within := (List.getElem?_eq_some_iff.mp found).1
  simp only [perform, stands, Bridge.addParameter, binding, function]
  cases b.addParameter kind optional with
  | error e => rfl
  | ok c =>
    simp only [Bridge.binding, List.getElem?_set_self within]
    rfl

/-- A refused request answers the binding's own failure and changes nothing. -/
theorem perform_refused {s : Session} {id : String} {n : Nat} {b : Binding}
    (stands : named s.bindings id = .ok n) (found : s.bridge.bindings[n]? = some b)
    (function : b.role = .function) (kind : Native) (optional : Bool) (e : Failure) :
    ((s.perform (.addParameter id kind optional)).1 = .error e ↔
      b.addParameter kind optional = .error e) ∧
    ((s.perform (.addParameter id kind optional)).1 = .error e →
      (s.perform (.addParameter id kind optional)).2 = s) := by
  rw [perform_addParameter stands found function]
  cases b.addParameter kind optional with
  | error e => simp
  | ok c => simp

theorem declared_of_other (s : Session) {step : Step}
    (other : ∀ binding kind optional, step ≠ .addParameter binding kind optional) (n : Nat) :
    s.declared n step = none := by
  unfold declared
  split
  · rename_i binding kind optional _ _
    exact absurd rfl (other binding kind optional)
  · rfl

theorem declared_of_error {s : Session} {step : Step} {e : Failure}
    (refused : (s.perform step).1 = .error e) (n : Nat) : s.declared n step = none := by
  unfold declared
  rw [refused]
  split
  · rename_i answered
    cases answered
  · rfl

theorem addParameter_declaring (s : Session) (binding : String) (kind : Native) (optional : Bool) :
    s.Declaring (.addParameter binding kind optional)
      (s.perform (.addParameter binding kind optional)).2.bridge.bindings := by
  have refused {e : Failure} (failed : s.perform (.addParameter binding kind optional) =
      (.error e, s)) : s.Declaring (.addParameter binding kind optional)
        (s.perform (.addParameter binding kind optional)).2.bridge.bindings :=
    .kept (by rw [failed]) (declared_of_error (by rw [failed]))
  cases stands : named s.bindings binding with
  | error e => exact refused (e := e) (by simp only [perform, stands])
  | ok m =>
    cases found : s.bridge.bindings[m]? with
    | none =>
      refine refused (e := .missingReference) ?_
      simp only [perform, stands, Bridge.addParameter, Bridge.binding, found]
      rfl
    | some b =>
      cases role : b.role with
      | decorator =>
        refine refused (e := .missingOperation) ?_
        simp only [perform, stands, Bridge.addParameter, Bridge.binding, found, role]
        rfl
      | function =>
        have performed := perform_addParameter stands found role kind optional
        have requested := b.addParameter_requested kind optional
        generalize b.addParameter kind optional = answer at performed requested
        cases requested with
        | late => exact refused performed
        | unknown => exact refused performed
        | accepted fits k known =>
          refine .accepted m b ⟨k, optional⟩ found fits (by rw [performed]) fun n => ?_
          simp only [declared, performed, stands]
          rw [known, kindOrAny, kindOf_name]

theorem build_declaring {s : Session} {step : Step} {id : String} {role : Role}
    {name kind : Native} {callback : Callback} {on store : Option Nat}
    (performed : s.perform step =
      s.nameBinding id (s.bridge.build role name kind callback on store))
    (other : ∀ binding kind optional, step ≠ .addParameter binding kind optional) :
    s.Declaring step (s.perform step).2.bridge.bindings := by
  rw [performed, nameBinding_bridge]
  rcases s.bridge.build_bindings role name kind callback on store with same | ⟨b, fresh, grown⟩
  · exact .kept same (s.declared_of_other other)
  · exact .made b fresh grown (s.declared_of_other other)

/-- Every step keeps all bindings, adds one that has no parameters yet unless it is a decorator, or
declares a parameter of one. -/
theorem perform_declaring (s : Session) (step : Step) :
    s.Declaring step (s.perform step).2.bridge.bindings := by
  have kept (other : ∀ binding kind optional, step ≠ .addParameter binding kind optional)
      (same : (s.perform step).2.bridge.bindings = s.bridge.bindings) :
      s.Declaring step (s.perform step).2.bridge.bindings :=
    .kept same (s.declared_of_other other)
  have called (call : step.IsCall) :
      (s.perform step).2.bridge.bindings = s.bridge.bindings := by
    obtain ⟨g, ho, hg⟩ := s.perform_outcome call
    exact (congrArg (·.bridge.bindings) hg).trans ho.tables.2
  cases step with
  | addParameter binding kind optional => apply addParameter_declaring
  | call | invoke | decorate => exact kept (by simp) (called trivial)
  | add id registry role name kind callback =>
    cases hr : named s.registries registry with
    | error e => exact kept (by simp) (by simp only [perform, hr])
    | ok r => exact build_declaring (by simp only [perform, hr]; rfl) (by simp)
  | build id role name kind callback registry store =>
    cases hp : (do return (← named? s.registries registry, ← named? s.stores store) :
        Attempt (Option Nat × Option Nat)) with
    | error e => exact kept (by simp) (by simp only [perform, hp])
    | ok pair => exact build_declaring (by simp only [perform, hp]; rfl) (by simp)
  | registry id name author version store live =>
    refine kept (by simp) ?_
    simp only [perform]
    split
    · rfl
    · exact (s.addRegistry_kept id _ live).2
  | fromSettings id source store =>
    refine kept (by simp) ?_
    simp only [perform]
    split
    · rfl
    · exact (s.addRegistry_kept id _ true).2
  | store id initial =>
    refine kept (by simp) ?_
    simp only [perform]
    split <;> rfl
  | writeState binding state =>
    refine kept (by simp) ?_
    simp only [perform, onNamed]
    split
    · rfl
    · exact (s.bridge.writeState_tables ..).2
  | forward module least logger level message args =>
    refine kept (by simp) ?_
    exact congrArg (·.bridge.bindings) (s.forward_kept module least logger level message args)
  | current | reset | metadata | tables | info | lookup | decodeArguments | readState | callback
  | storeSize | configure => exact kept (by simp) rfl

/-- The function of a number has the declared parameters, in good order; before it is made there
are none. -/
structure Declares (s : Session) (n : Nat) (ps : List Parameter) : Prop where
  ahead : s.bridge.bindings.length ≤ n → ps = []
  made : ∀ b, s.bridge.bindings[n]? = some b → b.role = .function →
    b.parameters = ps ∧ b.Orderly

theorem declares_initial (n : Nat) : initial.Declares n [] := by
  refine ⟨fun _ => rfl, fun b found => ?_⟩
  cases found

theorem Declares.perform {s : Session} {n : Nat} {ps : List Parameter} (h : s.Declares n ps)
    (step : Step) : (s.perform step).2.Declares n (ps ++ (s.declared n step).toList) := by
  have declaring := s.perform_declaring step
  generalize (s.perform step).2 = t at declaring ⊢
  cases declaring with
  | kept same declared =>
    rw [declared n, Option.toList_none, List.append_nil]
    exact ⟨same ▸ h.ahead, same ▸ h.made⟩
  | made b fresh grown declared =>
    rw [declared n, Option.toList_none, List.append_nil]
    refine ⟨fun later => h.ahead ?_, fun c found function => ?_⟩
    · rw [grown, List.length_append] at later
      omega
    · rw [grown] at found
      rcases Nat.lt_trichotomy n s.bridge.bindings.length with before | rfl | after
      · rw [List.getElem?_append_left before] at found
        exact h.made c found function
      · rw [List.getElem?_concat_length] at found
        cases found
        obtain ⟨none, unset⟩ := fresh function
        exact ⟨none.trans (h.ahead (Nat.le_refl _)).symm, Binding.orderly_empty none unset⟩
      · rw [List.getElem?_eq_none (by simp; omega)] at found
        cases found
  | accepted m b p found fits replaced declared =>
    have within := (List.getElem?_eq_some_iff.mp found).1
    rw [declared n]
    by_cases here : m = n
    · subst here
      refine ⟨fun later => ?_, fun c place function => ?_⟩
      · rw [replaced, List.length_set] at later
        omega
      · rw [replaced, List.getElem?_set_self within] at place
        cases place
        obtain ⟨declared, orderly⟩ := h.made b found function
        exact ⟨by simp [declared], orderly.accept fits⟩
    · simp only [here, ↓reduceIte, Option.toList_none, List.append_nil]
      refine ⟨fun later => h.ahead ?_, fun c place => h.made c ?_⟩
      · rwa [replaced, List.length_set] at later
      · rwa [replaced, List.getElem?_set_ne here] at place

theorem Declares.after {s : Session} {n : Nat} {ps : List Parameter} (h : s.Declares n ps)
    (steps : List Step) : (s.after steps).Declares n (ps ++ s.declarations n steps) := by
  induction steps generalizing s ps with
  | nil => simpa [Session.after, declarations] using h
  | cons step steps ih =>
    have next := ih (h.perform step)
    rwa [List.append_assoc] at next

/-- A call with fewer arguments than are needed is refused before its callback. -/
theorem perform_missing {s : Session} {step : Step} {b : Binding} {args : List Incoming}
    (call : step.IsCall) (target : s.target step = .ok (b, args)) (function : b.role = .function)
    (few : args.length < b.required) :
    (s.perform step).1 =
        .error (.missingArgument b.name b.parameters.length args.length) ∧
      (s.perform step).2.quiet = s.quiet := by
  have called := s.perform_call call
  have considered : b.considered args = args := by rw [Binding.considered, function]
  have undecoded : b.decodeArguments (b.considered args) =
      .error (.missingArgument b.name b.parameters.length args.length) := by
    rw [considered, missing_iff]
    exact ⟨few, rfl, rfl, rfl⟩
  have unrun : s.bridge.run b args = (.error _, s.bridge) :=
    run_undecoded undecoded s.bridge b.callback
  rw [target, Called, unrun] at called
  exact called

/-- In every session: the parameters of a function are the ones that were asked for and not refused,
in order, the required ones first. A request is refused just when it asks for a required one behind
an optional one or, if not, names no kind, and then all is as if it had not been made. A call is
refused for its number of arguments just when it has fewer than there are parameters, but for one
if any is optional. -/
theorem optional_parameters_last {steps : List Step} {n : Nat} {b : Binding}
    (found : (initial.after steps).bridge.bindings[n]? = some b) (function : b.role = .function) :
    let s := initial.after steps
    let declared := initial.declarations n steps
    b.parameters = declared ∧
    (∃ needed spare, declared = needed ++ spare ∧ (∀ p ∈ needed, p.optional = false) ∧
      ∀ p ∈ spare, p.optional = true) ∧
    (∀ id kind optional, named s.bindings id = .ok n →
      let step := Step.addParameter id kind optional
      let late := optional = false ∧ ∃ p ∈ declared, p.optional = true
      ((s.perform step).1 = .error (.requiredAfterOptional b.name) ↔ late) ∧
      ((s.perform step).1 = .error .unknownKind ↔ ¬ late ∧ ∀ k : Kind, kind ≠ .text k.name) ∧
      ∀ e, (s.perform step).1 = .error e →
        (e = .requiredAfterOptional b.name ∨ e = .unknownKind) ∧ (s.perform step).2 = s) ∧
    ∀ step args, step.IsCall → s.target step = .ok (b, args) →
      let enough := if ∃ p ∈ declared, p.optional = true then declared.length - 1 ≤ args.length
        else declared.length ≤ args.length
      (¬ enough → (s.perform step).1 =
        .error (.missingArgument b.name declared.length args.length)) ∧
      (enough → ∀ name expected found,
        b.decodeArguments args ≠ .error (.missingArgument name expected found)) := by
  intro s declared
  have declares : s.Declares n declared := (declares_initial n).after steps
  obtain ⟨parameters, orderly⟩ := declares.made b found function
  have latch : b.closed = true ↔ ∃ p ∈ declared, p.optional = true := by
    rw [orderly.latch, parameters, Binding.any_optional]
  have required := orderly.required
  rw [parameters] at required
  refine ⟨parameters, parameters ▸ orderly.suffix, ?_, ?_⟩
  · intro id kind optional stands step late
    obtain ⟨tooLate, unknown, either⟩ := b.addParameter_refusals kind optional
    rw [latch] at tooLate unknown
    have refused := perform_refused stands found function kind optional
    refine ⟨(refused _).1.trans tooLate, (refused _).1.trans unknown, fun e answered => ?_⟩
    exact ⟨either e ((refused e).1.mp answered), (refused e).2 answered⟩
  · intro step args call target enough
    have needed : enough ↔ ¬ args.length < b.required := by
      simp only [enough, required, Nat.not_lt]
      split <;> rfl
    refine ⟨fun few => ?_, fun many name expected found missing => ?_⟩
    · rw [← parameters]
      exact (perform_missing call target function (not_not.mp (mt needed.mpr few))).1
    · exact needed.mp many (missing_iff.mp missing).1

/-- Requests of all sorts. The one for an unknown kind does not set the latch, and a required
parameter of an unknown kind is refused for coming too late. -/
def requests : List Step :=
  let ask := fun kind optional => Step.addParameter "f" (.text kind) optional
  [ .build "f" .function (.text "f") (.text "") (.ofFunction (.ok <| .list ·)) none none,
    ask "Integer" false,
    ask "Litre" true,
    ask "String" false,
    ask "Array" true,
    ask "Litre" false,
    ask "" true ]

/-- Four of six requests are accepted, and a call needs three arguments. -/
theorem requests_optional_last :
    let s := initial.after requests
    let args : List Incoming := [.tagged (.scalar .integer (.int 1)), .wire .null]
    ∃ b, s.bridge.bindings[0]? = some b ∧ b.role = .function ∧
      b.parameters =
        [⟨.integer, false⟩, ⟨.string, false⟩, ⟨.array, true⟩, ⟨.any, true⟩] ∧
      named s.bindings "f" = .ok 0 ∧
      (s.perform (.addParameter "f" (.text "Litre") false)).1 =
        .error (.requiredAfterOptional "f") ∧
      (s.perform (.addParameter "f" (.text "Litre") true)).1 = .error .unknownKind ∧
      (s.perform (.addParameter "f" (.text "Litre") true)).2 = s ∧
      s.target (.invoke "f" args) = .ok (b, args) ∧
      (s.perform (.invoke "f" args)).1 = .error (.missingArgument "f" 4 2) := by
  intro s args
  obtain ⟨b, found, function, name⟩ :
      ∃ b, s.bridge.bindings[0]? = some b ∧ b.role = .function ∧ b.name = "f" :=
    ⟨_, by rfl, by rfl, by rfl⟩
  have stands : named s.bindings "f" = .ok 0 := by rfl
  have declared : initial.declarations 0 requests =
      [⟨.integer, false⟩, ⟨.string, false⟩, ⟨.array, true⟩, ⟨.any, true⟩] := by rfl
  have target : s.target (.invoke "f" args) = .ok (b, args) := by
    simp only [Session.target, bindingOf, stands, Attempt.ok_bind, Bridge.binding, found]
    rfl
  obtain ⟨parameters, _, requested, called⟩ := optional_parameters_last found function
  rw [declared] at parameters requested called
  obtain ⟨late, _, _⟩ := requested "f" (.text "Litre") false stands
  obtain ⟨_, unknown, refused⟩ := requested "f" (.text "Litre") true stands
  have unnamed : ∀ k : Kind, Native.text "Litre" ≠ .text k.name := by
    intro k
    cases k <;> simp [Kind.name]
  have unasked := unknown.mpr ⟨by simp, unnamed⟩
  rw [name] at late called
  obtain ⟨few, _⟩ := called (.invoke "f" args) args trivial target
  exact ⟨b, found, function, parameters, stands, late.mpr (by simp), unasked,
    (refused _ unasked).2, target, few (by decide)⟩

end Session

end HostBridge
