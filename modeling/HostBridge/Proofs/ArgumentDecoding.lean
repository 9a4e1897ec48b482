import Mathlib.Data.Nat.Find
import HostBridge.Bridge
import HostBridge.Proofs.Lossless
import HostBridge.Proofs.WireGrammar

namespace HostBridge

/-- The failures that come from what an argument holds. -/
def Failure.OfContents : Failure → Prop
  | .malformed _ _ | .tooManyDigits | .unhashableKey => True
  | _ => False

theorem ofDefect_contents (payload : Native) (defect : WireDefect) :
    (Failure.ofDefect payload defect).OfContents := by
  unfold Failure.ofDefect
  split <;> trivial

theorem ofWire_contents {w : Native} {e : Failure} (h : Tagged.ofWire w = .error e) :
    e.OfContents := by
  rcases Tagged.wireValue_or_firstDefect w with sound | ⟨node, defect, here⟩
  · obtain ⟨t, read⟩ := Tagged.ofWire_wireValue sound
    rw [read] at h
    cases h
  · rw [Tagged.ofWire_firstDefect here] at h
    cases h
    exact ofDefect_contents node defect

theorem unwrap_contents {t : Tagged} {e : Failure} (h : t.unwrap = .error e) : e.OfContents := by
  induction t with
  | scalar tag payload => cases h
  | array items ih =>
    obtain ⟨u, hu, failed⟩ := unwrapItems_error (Attempt.bind_pure_error.mp h)
    exact ih u hu failed
  | object pairs ih =>
    obtain ⟨d, hd, failed⟩ := unwrapPairs_error (Attempt.bind_pure_error.mp h)
    rcases failed with failed | failed | ⟨bare, _, unnamed | ⟨key, _, _, rfl⟩⟩
    · exact (ih d hd).1 failed
    · exact (ih d hd).2 failed
    · rw [(nativeKey_error unnamed).2]
      trivial
    · trivial

theorem argument_contents {a : Incoming} {e : Failure} (h : a.unwrap = .error e) :
    e.OfContents := by
  rcases Attempt.bind_error.mp h with unread | ⟨t, _, failed⟩
  · cases a with
    | wire w => exact ofWire_contents unread
    | tagged t => cases unread
  · exact unwrap_contents failed

/-- Coercion fails only for the text of a number that is too long. -/
theorem coerce_error {v : Native} {kind : Kind} {e : Failure} (h : v.coerce kind = .error e) :
    e = .tooManyDigits := by
  cases kind with
  | string =>
    have untold := Attempt.bind_pure_error.mp h
    cases v with
    | int n =>
      rw [Native.toText] at untold
      exact Json.intText_error untold
    | list | tuple | table => exact Native.canonicalText_error untold
    | _ => cases untold
  | _ => cases h

namespace Parameter

/-- A numeric parameter takes only what is tagged as an integer or a float. -/
def Refuses (p : Parameter) (a : Incoming) : Prop :=
  (p.kind = .integer ∨ p.kind = .float ∨ p.kind = .numeric) ∧
    a.kind? ≠ some .integer ∧ a.kind? ≠ some .float

theorem accepts_eq_false {p : Parameter} {a : Incoming} :
    p.accepts a = false ↔ p.Refuses a := by
  unfold accepts Refuses
  cases hk : p.kind <;> simp [Kind.isNumeric]

theorem accepts_eq_true {p : Parameter} {a : Incoming} : p.accepts a = true ↔ ¬ p.Refuses a := by
  rw [← accepts_eq_false, Bool.not_eq_false]

end Parameter

/-- What an argument at a place is decoded to: for the kind of its parameter, or as it is where
there is none. -/
def decodeAt (ps : List Parameter) (i : Nat) (a : Incoming) : Attempt Native :=
  match ps[i]? with
  | some p => do (← a.unwrap).coerce p.kind
  | none => a.unwrap

/-- The parameter at a place refuses the argument there. -/
def RefusedAt (ps : List Parameter) (args : List Incoming) (i : Nat) : Prop :=
  ∃ p a, ps[i]? = some p ∧ args[i]? = some a ∧ p.Refuses a

/-- The argument at a place is not decoded. -/
def FailsAt (ps : List Parameter) (args : List Incoming) (i : Nat) (e : Failure) : Prop :=
  ∃ a, args[i]? = some a ∧ decodeAt ps i a = .error e

/-- There is a value for each argument, and it is what that is decoded to. -/
structure Decoded (ps : List Parameter) (args : List Incoming) (vs : List Native) : Prop where
  length : vs.length = args.length
  each : ∀ (i : Nat) (a : Incoming), args[i]? = some a →
    ∃ v, vs[i]? = some v ∧ decodeAt ps i a = .ok v

/-- How decoding ends. Places are counted from zero, and from one in the failure that is
reported. -/
inductive Decodes (b : Binding) (args : List Incoming) : Attempt (List Native) → Prop
  | missing (few : args.length < b.required) :
      Decodes b args (.error (.missingArgument b.name b.parameters.length args.length))
  | refused {i : Nat} {p : Parameter} (enough : b.required ≤ args.length)
      (here : RefusedAt b.parameters args i) (parameter : b.parameters[i]? = some p)
      (earlier : ∀ j < i, ¬ RefusedAt b.parameters args j) :
      Decodes b args (.error (.wrongKind b.name (i + 1) p.kind))
  | failed {i : Nat} {e : Failure} (enough : b.required ≤ args.length)
      (accepted : ∀ j, ¬ RefusedAt b.parameters args j) (here : FailsAt b.parameters args i e)
      (earlier : ∀ j < i, ∀ f, ¬ FailsAt b.parameters args j f) : Decodes b args (.error e)
  | decoded {vs : List Native} (enough : b.required ≤ args.length)
      (accepted : ∀ j, ¬ RefusedAt b.parameters args j)
      (values : Decoded b.parameters args vs) : Decodes b args (.ok vs)

theorem decodeAt_succ (ps : List Parameter) (i : Nat) (a : Incoming) :
    decodeAt ps (i + 1) a = decodeAt ps.tail i a := by
  rw [decodeAt, decodeAt, List.getElem?_tail]

theorem decodeEach_cons (ps : List Parameter) (a : Incoming) (as : List Incoming) :
    Binding.decodeEach ps (a :: as) = (do
      let v ← decodeAt ps 0 a
      return v :: (← Binding.decodeEach ps.tail as)) := by
  cases ps <;> rfl

theorem failsAt_succ {ps : List Parameter} {a : Incoming} {as : List Incoming} {i : Nat}
    {e : Failure} : FailsAt ps (a :: as) (i + 1) e ↔ FailsAt ps.tail as i e := by
  simp only [FailsAt, List.getElem?_cons_succ, decodeAt_succ]

theorem firstRefused_none {ps : List Parameter} {args : List Incoming} (n : Nat)
    (accepted : ∀ j, ¬ RefusedAt ps args j) : Binding.firstRefused? n ps args = none := by
  induction ps generalizing args n with
  | nil => rfl
  | cons p ps ih =>
    cases args with
    | nil => rfl
    | cons a as =>
      have here : p.accepts a = true :=
        Parameter.accepts_eq_true.mpr fun refuses => accepted 0 ⟨p, a, rfl, rfl, refuses⟩
      rw [Binding.firstRefused?, if_pos here]
      exact ih (n + 1) fun j => accepted (j + 1)

theorem firstRefused_some {ps : List Parameter} {args : List Incoming} {i : Nat} {p : Parameter}
    (n : Nat) (here : RefusedAt ps args i) (parameter : ps[i]? = some p)
    (earlier : ∀ j < i, ¬ RefusedAt ps args j) :
    Binding.firstRefused? n ps args = some (n + i, p.kind) := by
  obtain ⟨q, a, hq, ha, refuses⟩ := here
  rw [parameter] at hq
  cases hq
  induction i generalizing ps args n with
  | zero =>
    obtain ⟨ps, rfl⟩ := List.head?_eq_some_iff.mp (List.head?_eq_getElem? ▸ parameter)
    obtain ⟨as, rfl⟩ := List.head?_eq_some_iff.mp (List.head?_eq_getElem? ▸ ha)
    have unfit : p.accepts a = false := Parameter.accepts_eq_false.mpr refuses
    rw [Binding.firstRefused?, unfit]
    rfl
  | succ i ih =>
    cases ps with
    | nil => cases parameter
    | cons q ps =>
      cases args with
      | nil => cases ha
      | cons c as =>
        have fit : q.accepts c = true :=
          Parameter.accepts_eq_true.mpr fun unfit =>
            earlier 0 (Nat.succ_pos i) ⟨q, c, rfl, rfl, unfit⟩
        have later : ∀ j < i, ¬ RefusedAt ps as j := fun j hj =>
          earlier (j + 1) (Nat.succ_lt_succ hj)
        rw [Binding.firstRefused?, if_pos fit, ih (n + 1) parameter later ha, Nat.add_right_comm]
        rfl

theorem decodeEach_error {ps : List Parameter} {args : List Incoming} {i : Nat} {e : Failure}
    (here : FailsAt ps args i e) (earlier : ∀ j < i, ∀ f, ¬ FailsAt ps args j f) :
    Binding.decodeEach ps args = .error e := by
  induction i generalizing ps args with
  | zero =>
    obtain ⟨a, ha, fails⟩ := here
    obtain ⟨as, rfl⟩ := List.head?_eq_some_iff.mp (List.head?_eq_getElem? ▸ ha)
    rw [decodeEach_cons, fails, Attempt.error_bind]
  | succ i ih =>
    cases args with
    | nil =>
      obtain ⟨a, ha, _⟩ := here
      cases ha
    | cons c as =>
      have later : ∀ j < i, ∀ f, ¬ FailsAt ps.tail as j f := fun j hj f fails =>
        earlier (j + 1) (Nat.succ_lt_succ hj) f (failsAt_succ.mpr fails)
      rw [decodeEach_cons, ih (failsAt_succ.mp here) later]
      cases first : decodeAt ps 0 c with
      | ok v => rfl
      | error f => exact absurd ⟨c, rfl, first⟩ (earlier 0 (Nat.succ_pos i) f)

theorem decoded_cons {ps : List Parameter} {a : Incoming} {as : List Incoming} {v : Native}
    {vs : List Native} :
    Decoded ps (a :: as) (v :: vs) ↔ decodeAt ps 0 a = .ok v ∧ Decoded ps.tail as vs := by
  constructor
  · rintro ⟨length, each⟩
    obtain ⟨w, hw, first⟩ := each 0 a rfl
    cases hw
    refine ⟨first, Nat.succ.inj length, fun i c hc => ?_⟩
    obtain ⟨u, hu, value⟩ := each (i + 1) c hc
    exact ⟨u, hu, decodeAt_succ ps i c ▸ value⟩
  · rintro ⟨first, length, each⟩
    refine ⟨congrArg Nat.succ length, fun i c hc => ?_⟩
    cases i with
    | zero =>
      cases hc
      exact ⟨v, rfl, first⟩
    | succ i =>
      obtain ⟨u, hu, value⟩ := each i c hc
      exact ⟨u, hu, (decodeAt_succ ps i c).trans value⟩

theorem decodeEach_ok {ps : List Parameter} {args : List Incoming} {vs : List Native} :
    Binding.decodeEach ps args = .ok vs ↔ Decoded ps args vs := by
  induction args generalizing ps vs with
  | nil =>
    have none : Binding.decodeEach ps [] = .ok [] := by cases ps <;> rfl
    rw [none, Except.ok.injEq]
    constructor
    · rintro rfl
      exact ⟨rfl, nofun⟩
    · intro h
      exact (List.length_eq_zero_iff.mp h.length).symm
  | cons a as ih =>
    rw [decodeEach_cons]
    constructor
    · intro h
      obtain ⟨v, first, h⟩ := Attempt.bind_ok.mp h
      obtain ⟨rest, others, he⟩ := Attempt.bind_ok.mp h
      cases he
      exact decoded_cons.mpr ⟨first, ih.mp others⟩
    · intro h
      cases vs with
      | nil => exact absurd h.length.symm (Nat.succ_ne_zero _)
      | cons v vs =>
        obtain ⟨first, others⟩ := decoded_cons.mp h
        rw [first, Attempt.ok_bind, ih.mpr others]
        rfl

theorem decodeEach_fails {ps : List Parameter} {args : List Incoming} {e : Failure}
    (h : Binding.decodeEach ps args = .error e) : ∃ i, FailsAt ps args i e := by
  induction args generalizing ps with
  | nil => cases ps <;> cases h
  | cons a as ih =>
    rw [decodeEach_cons] at h
    rcases Attempt.bind_error.mp h with first | ⟨v, _, later⟩
    · exact ⟨0, a, rfl, first⟩
    · obtain ⟨i, fails⟩ := ih (Attempt.bind_pure_error.mp later)
      exact ⟨i + 1, failsAt_succ.mpr fails⟩

/-- All arguments are decoded, or there is a first one that is not. -/
theorem decoded_or_failsAt (ps : List Parameter) (args : List Incoming) :
    (∃ vs, Decoded ps args vs) ∨
      ∃ i e, FailsAt ps args i e ∧ ∀ j < i, ∀ f, ¬ FailsAt ps args j f := by
  classical
  cases h : Binding.decodeEach ps args with
  | ok vs => exact .inl ⟨vs, decodeEach_ok.mp h⟩
  | error e =>
    obtain ⟨k, fails⟩ := decodeEach_fails h
    have some_place : ∃ i e, FailsAt ps args i e := ⟨k, e, fails⟩
    obtain ⟨f, here⟩ := Nat.find_spec some_place
    refine .inr ⟨Nat.find some_place, f, here, fun j hj f failed => ?_⟩
    exact Nat.find_min some_place hj ⟨f, failed⟩

/-- No argument is refused for its tag, or there is a first one. -/
theorem accepted_or_refusedAt (ps : List Parameter) (args : List Incoming) :
    (∀ j, ¬ RefusedAt ps args j) ∨
      ∃ i p, RefusedAt ps args i ∧ ps[i]? = some p ∧ ∀ j < i, ¬ RefusedAt ps args j := by
  classical
  by_cases refused : ∃ i, RefusedAt ps args i
  · obtain ⟨p, a, parameter, ha, refuses⟩ := Nat.find_spec refused
    exact .inr ⟨Nat.find refused, p, ⟨p, a, parameter, ha, refuses⟩, parameter,
      fun j hj => Nat.find_min refused hj⟩
  · exact .inl fun j here => refused ⟨j, here⟩

theorem exists_decodes (b : Binding) (args : List Incoming) : ∃ r, Decodes b args r := by
  rcases Nat.lt_or_ge args.length b.required with few | enough
  · exact ⟨_, .missing few⟩
  · rcases accepted_or_refusedAt b.parameters args with accepted | ⟨i, p, here, parameter, earlier⟩
    · rcases decoded_or_failsAt b.parameters args with ⟨vs, values⟩ | ⟨i, e, here, earlier⟩
      · exact ⟨_, .decoded enough accepted values⟩
      · exact ⟨_, .failed enough accepted here earlier⟩
    · exact ⟨_, .refused enough here parameter earlier⟩

theorem Decodes.eq {b : Binding} {args : List Incoming} {r : Attempt (List Native)}
    (h : Decodes b args r) : b.decodeArguments args = r := by
  unfold Binding.decodeArguments
  cases h with
  | missing few => rw [if_pos few]
  | refused enough here parameter earlier =>
    rw [if_neg (Nat.not_lt.mpr enough), firstRefused_some 1 here parameter earlier, Nat.add_comm]
  | failed enough accepted here earlier =>
    rw [if_neg (Nat.not_lt.mpr enough), firstRefused_none 1 accepted]
    exact decodeEach_error here earlier
  | decoded enough accepted values =>
    rw [if_neg (Nat.not_lt.mpr enough), firstRefused_none 1 accepted]
    exact decodeEach_ok.mpr values

theorem decodes_iff {b : Binding} {args : List Incoming} {r : Attempt (List Native)} :
    Decodes b args r ↔ b.decodeArguments args = r := by
  constructor
  · exact Decodes.eq
  · intro h
    obtain ⟨s, decodes⟩ := exists_decodes b args
    rw [← h, decodes.eq]
    exact decodes

theorem FailsAt.contents {ps : List Parameter} {args : List Incoming} {i : Nat} {e : Failure}
    (h : FailsAt ps args i e) : e.OfContents := by
  obtain ⟨a, _, fails⟩ := h
  unfold decodeAt at fails
  split at fails
  · rcases Attempt.bind_error.mp fails with unread | ⟨v, _, uncoerced⟩
    · exact argument_contents unread
    · rw [coerce_error uncoerced]
      trivial
  · exact argument_contents fails

/-- Only too few arguments are reported as missing ones. -/
theorem missing_iff {b : Binding} {args : List Incoming} {name : String} {expected found : Nat} :
    b.decodeArguments args = .error (.missingArgument name expected found) ↔
      args.length < b.required ∧ name = b.name ∧ expected = b.parameters.length ∧
        found = args.length := by
  rw [← decodes_iff]
  constructor
  · intro h
    cases h with
    | missing few => exact ⟨few, rfl, rfl, rfl⟩
    | failed _ _ here => exact here.contents.elim
  · rintro ⟨few, rfl, rfl, rfl⟩
    exact .missing few

/-- A binding whose arguments are not decoded answers with that failure, whatever its callback is,
and changes nothing. -/
theorem run_undecoded {b : Binding} {given : List Incoming} {e : Failure}
    (h : b.decodeArguments (b.considered given) = .error e) (g : Bridge) (callback : Callback) :
    g.run { b with callback } given = (.error e, g) := by
  have unprepared : { b with callback }.prepare (g.contents { b with callback })
      ({ b with callback }.considered given) = .error e := by
    change (do
      let args ← b.decodeArguments (b.considered given)
      _) = _
    rw [h]
    rfl
  rw [Bridge.run, unprepared]

/-- Decoding does what it should, and a callback runs only where all arguments are decoded. -/
theorem decoding_precedence (b : Binding) (args : List Incoming) :
    (∀ r, b.decodeArguments args = r ↔ Decodes b args r) ∧
    (b.decodeArguments args =
        .error (.missingArgument b.name b.parameters.length args.length) ↔
      args.length < b.required) ∧
    ∀ e, b.decodeArguments args = .error e → ∀ (g : Bridge) (callback : Callback)
      (given : List Incoming), b.considered given = args →
        g.run { b with callback } given = (.error e, g) := by
  refine ⟨fun r => decodes_iff.symm, ?_, ?_⟩
  · rw [missing_iff]
    exact ⟨fun h => h.1, fun few => ⟨few, rfl, rfl, rfl⟩⟩
  · rintro e undecoded g callback given rfl
    exact run_undecoded undecoded g callback

/-- A text for a number is reported before a value in front of it that is no wire value at all, and
the callback does not run. -/
theorem decoding_precedence_late :
    let silent := Callback.ofFunction fun _ => .ok .null
    let b : Binding := { Binding.function "f" silent .any none with
      parameters := [⟨.any, false⟩, ⟨.integer, false⟩, ⟨.float, true⟩] }
    let args : List Incoming := [.wire .null, .tagged (.text "1")]
    Decodes b args (.error (.wrongKind "f" 2 .integer)) ∧
      b.decodeArguments args = .error (.wrongKind "f" 2 .integer) ∧
      ∀ (g : Bridge) (callback : Callback),
        g.run { b with callback } args = (.error (.wrongKind "f" 2 .integer), g) := by
  intro silent b args
  have decoded : b.decodeArguments args = .error (.wrongKind "f" 2 .integer) := by rfl
  obtain ⟨specified, _, unrun⟩ := decoding_precedence b args
  exact ⟨(specified _).mp decoded, decoded, fun g callback => unrun _ decoded g callback args rfl⟩

end HostBridge
