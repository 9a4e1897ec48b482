import HostBridge.Callback.Stock
import HostBridge.Proofs.Effects

namespace HostBridge

namespace Kind

/-- The values that a callback can be given for a parameter of a kind. What is no finite number has
no whole number either. -/
def Admits : Kind → Native → Prop
  | .integer, .int _ | .integer, .float (.nan _) | .integer, .float (.infinite _) => True
  | .float, .int _ | .float, .float _ | .numeric, .int _ | .numeric, .float _ => True
  | .string, .text _ | .boolean, .bool _ | .array, .list _ | .object, .table _ | .any, _ => True
  | _, _ => False

/-- The tagged values that the host can be given as results of a kind. False stands for NaN. -/
def Yields : Kind → Tagged → Prop
  | .integer, .scalar .integer _ | .integer, .scalar .float (.float (.infinite _))
  | .integer, .scalar .boolean (.bool false) => True
  | .float, .scalar .integer _ | .float, .scalar .float _
  | .float, .scalar .boolean (.bool false) => True
  | .numeric, .scalar .integer _ | .numeric, .scalar .float _
  | .numeric, .scalar .boolean (.bool false) => True
  | .string, .scalar .string _ | .boolean, .scalar .boolean _ | .array, .array _
  | .object, .object _ | .any, _ => True
  | _, _ => False

end Kind

theorem floor_admitted (n : Number) : Kind.integer.Admits n.floor.toNative := by
  cases n with
  | int n => trivial
  | float x => cases x <;> trivial

/-- Coercion to a kind, where it succeeds, gives a value that the kind admits. -/
theorem coerce_admitted {v c : Native} {kind : Kind} (h : v.coerce kind = .ok c) :
    kind.Admits c := by
  cases kind with
  | integer =>
    cases h
    exact floor_admitted v.toNumber
  | float | numeric =>
    cases h
    cases v.toNumber <;> trivial
  | string =>
    obtain ⟨text, _, he⟩ := Attempt.bind_ok.mp h
    cases he
    trivial
  | boolean | array | object =>
    cases h
    trivial
  | any => trivial

/-- A value that a kind admits is tagged as a result of that kind. -/
theorem tag_yielded {kind : Kind} {c : Native} (h : kind.Admits c) : kind.Yields c.tag := by
  cases kind with
  | integer =>
    cases c with
    | int n => trivial
    | float x =>
      cases x with
      | finite => exact h.elim
      | nan | infinite => trivial
    | _ => exact h.elim
  | float | numeric =>
    cases c with
    | int n => trivial
    | float x =>
      rw [Native.tag]
      rcases tagFloat_cases x with ⟨n, _, he⟩ | ⟨_, he⟩ | he <;> rw [he] <;> trivial
    | _ => exact h.elim
  | string | boolean | array | object => cases c <;> trivial
  | any => trivial

theorem wrap_yielded {v : Native} {kind : Kind} {t : Tagged} (h : v.wrap kind = .ok t) :
    kind.Yields t ∧ t.ShapeNormal := by
  obtain ⟨c, coerced, he⟩ := Attempt.bind_ok.mp h
  cases he
  exact ⟨tag_yielded (coerce_admitted coerced), tag_shapeNormal c⟩

/-- One value is decoded for each argument, and those that have a parameter suit it. -/
theorem decodeEach_admitted {ps : List Parameter} {args : List Incoming} {vs : List Native}
    (h : Binding.decodeEach ps args = .ok vs) :
    vs.length = args.length ∧ ∀ (i : Nat) (p : Parameter) (v : Native),
      ps[i]? = some p → vs[i]? = some v → p.kind.Admits v := by
  induction args generalizing ps vs with
  | nil =>
    have empty : vs = [] := by cases ps <;> (cases h; rfl)
    simp [empty]
  | cons a as ih =>
    cases ps with
    | nil =>
      obtain ⟨v, _, h⟩ := Attempt.bind_ok.mp h
      obtain ⟨rest, hr, he⟩ := Attempt.bind_ok.mp h
      cases he
      simp [(ih hr).1]
    | cons p ps =>
      obtain ⟨v, decoded, h⟩ := Attempt.bind_ok.mp h
      obtain ⟨rest, hr, he⟩ := Attempt.bind_ok.mp h
      cases he
      obtain ⟨length, admitted⟩ := ih hr
      refine ⟨by simp [length], fun i q w hq hw => ?_⟩
      cases i with
      | zero =>
        obtain ⟨bare, _, coerced⟩ := Attempt.bind_ok.mp decoded
        simp only [List.getElem?_cons_zero, Option.some.injEq] at hq hw
        subst q w
        exact coerce_admitted coerced
      | succ i => exact admitted i q w (by simpa using hq) (by simpa using hw)

theorem decodeArguments_each {b : Binding} {args : List Incoming} {vs : List Native}
    (h : b.decodeArguments args = .ok vs) : Binding.decodeEach b.parameters args = .ok vs := by
  unfold Binding.decodeArguments at h
  split at h
  · cases h
  · split at h
    · cases h
    · exact h

/-- A prepared call runs on the decoded arguments. -/
theorem prepare_args {b : Binding} {store : Option Store} {args : List Incoming}
    {ready : Binding.Ready} (h : b.prepare store args = .ok ready) :
    b.decodeArguments args = .ok ready.args := by
  obtain ⟨vs, decoded, h⟩ := Attempt.bind_ok.mp h
  cases store with
  | none =>
    cases h
    exact decoded
  | some s =>
    obtain ⟨vars, _, he⟩ := Attempt.bind_ok.mp h
    cases he
    exact decoded

theorem ofVariables_shapeNormal (vars : Variables) :
    ∀ e ∈ Store.ofVariables vars, e.2.ShapeNormal :=
  List.forall_mem_map.mpr fun e _ => tag_shapeNormal e.2

namespace Bridge

/-- What a binding that answers leaves: a result of its kind, and a store with fitting payloads. -/
theorem Outcome.yielded {g g' : Bridge} {b : Binding} {args : List Incoming} {t : Tagged}
    (h : g.Outcome b args (.ok t) g') :
    b.result.Yields t ∧ t.ShapeNormal ∧ ∀ n store, b.store = some n →
      g'.stores[n]? = some store → ∀ e ∈ store, e.2.ShapeNormal := by
  generalize ha : Except.ok t = answer at h
  cases h with
  | refused => cases ha
  | failed => cases ha
  | succeeded reached done =>
    cases ha
    obtain ⟨result, _, done⟩ := Attempt.bind_ok.mp done
    obtain ⟨tagged, wrapped, he⟩ := Attempt.bind_ok.mp done
    cases he
    obtain ⟨yielded, shape⟩ := wrap_yielded wrapped
    refine ⟨yielded, shape, fun n store on hs => ?_⟩
    have made : n < g.stores.length := by
      have within := (List.getElem?_eq_some_iff.mp hs).1
      rwa [writeBack_stores on, List.length_set] at within
    rw [writeBack_at on made] at hs
    cases hs
    exact ofVariables_shapeNormal _

/-- A binding runs its callback on values that suit its parameters. Where it answers, the result is
of its kind, and no payload in the result or in its store is at odds with its tag. -/
theorem kinds_respected {g : Bridge} {b : Binding} {args : List Incoming} {vs : List Native}
    (accepted : b.decodeArguments (b.considered args) = .ok vs) :
    (vs.length = (b.considered args).length ∧ ∀ (i : Nat) (p : Parameter) (v : Native),
      b.parameters[i]? = some p → vs[i]? = some v → p.kind.Admits v) ∧
    (∀ ready, g.prepared b args = .ok ready → ready.args = vs) ∧
    ∀ t, (g.run b args).1 = .ok t → b.result.Yields t ∧ t.ShapeNormal ∧
      ∀ n store, b.store = some n → (g.run b args).2.stores[n]? = some store →
        ∀ e ∈ store, e.2.ShapeNormal := by
  refine ⟨decodeEach_admitted (decodeArguments_each accepted), fun ready reached => ?_,
    fun t answered => ?_⟩
  · have decoded := prepare_args reached
    rw [accepted] at decoded
    exact (Except.ok.inj decoded).symm
  · obtain ⟨left, outcome, same⟩ := g.run_outcome b args
    have stores : (g.run b args).2.stores = left.stores := congrArg (·.stores) same
    rw [answered] at outcome
    rw [stores]
    exact outcome.yielded

/-- A function of a whole number and a list that answers no number. -/
def crossed : Binding :=
  { Binding.function "crossed" (.const (.float (.nan .fresh))) .integer (some 0) with
    parameters := [⟨.integer, false⟩, ⟨.array, true⟩] }

/-- A text that is tagged as an integer, and a boolean that is tagged as a text. -/
def mistagged : List Incoming :=
  [.tagged (.scalar .integer (.text " 12 ")), .tagged (.scalar .string (.bool true))]

/-- The text arrives as a whole number and the boolean in a list; what is no number is answered as
false, and is false in the store from then on. -/
theorem crossed_respected :
    let g := { initial with stores := [[(.text "x", .scalar .float (.float (.nan .fresh)))]] }
    crossed.decodeArguments mistagged = .ok [.int 12, .list [.bool true]] ∧
      Kind.array.Admits (.list [.bool true]) ∧
      (g.run crossed mistagged).1 = .ok (.scalar .boolean (.bool false)) ∧
      Kind.integer.Yields (.scalar .boolean (.bool false)) ∧
      (g.run crossed mistagged).2.stores[0]? =
        some [(.text "x", .scalar .boolean (.bool false))] ∧
      (Tagged.scalar .boolean (.bool false)).ShapeNormal := by
  intro g
  have accepted : crossed.decodeArguments (crossed.considered mistagged) =
      .ok [.int 12, .list [.bool true]] := by rfl
  obtain ⟨⟨_, admitted⟩, _, answered⟩ := kinds_respected (g := g) accepted
  obtain ⟨yielded, _, kept⟩ := answered _ (by rfl)
  exact ⟨accepted, admitted 1 ⟨.array, true⟩ _ rfl rfl, by rfl, yielded, by rfl,
    kept 0 _ rfl (by rfl) _ (List.mem_singleton_self _)⟩

end Bridge

end HostBridge
