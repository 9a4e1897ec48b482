import HostBridge.Callback.Stock
import HostBridge.Proofs.ArgumentDecoding
import HostBridge.Proofs.Calls

namespace HostBridge

/-- A result as a text: the result itself if it is tagged as one, or the text of its native
value. -/
def Tagged.asText : Tagged → Attempt Tagged
  | .scalar .string payload => .ok (.scalar .string payload)
  | t => do return .scalar .string (← (← t.unwrap).coerce .string)

theorem wrap_string {v : Native} {t : Tagged} :
    v.wrap .string = .ok t ↔ ∃ text, v.coerce .string = .ok (.text text) ∧ t = .text text := by
  constructor
  · intro h
    obtain ⟨c, coerced, he⟩ := Attempt.bind_ok.mp h
    obtain ⟨text, written, hc⟩ := Attempt.bind_ok.mp coerced
    cases hc
    cases he
    exact ⟨text, coerced, rfl⟩
  · rintro ⟨text, coerced, rfl⟩
    rw [Native.wrap, coerced]
    rfl

namespace Binding

/-- A binding for texts answers the text of what its callback answers. -/
theorem finish_string {b : Binding} (string : b.result = .string) {ready : Ready} {t : Tagged} :
    b.finish ready = .ok (t, b.left ready) ↔
      ∃ r text, (b.callback.apply ready.args ready.vars).1 = .ok r ∧
        r.coerce .string = .ok (.text text) ∧ t = .text text := by
  constructor
  · intro h
    obtain ⟨r, answered, h⟩ := Attempt.bind_ok.mp h
    obtain ⟨value, wrapped, he⟩ := Attempt.bind_ok.mp h
    cases he
    rw [string] at wrapped
    obtain ⟨text, coerced, rfl⟩ := wrap_string.mp wrapped
    exact ⟨r, text, answered, coerced, rfl⟩
  · rintro ⟨r, text, answered, coerced, rfl⟩
    have wrapped := wrap_string.mpr ⟨text, coerced, rfl⟩
    simp only [finish, answered, string, Attempt.ok_bind, wrapped]
    rfl

end Binding

namespace Bridge

/-- Runs a decorator on a list of arguments, and makes a text of a result that is none. -/
def dispatch (g : Bridge) (id : Nat) (args : List Incoming) : Attempt Tagged × Bridge :=
  let (result, g) := g.invoke id args
  (result >>= Tagged.asText, g)

/-- Nothing is left to do where all results are texts. -/
theorem dispatch_text {g : Bridge} {id : Nat} {args : List Incoming}
    (texts : ∀ t, (g.invoke id args).1 = .ok t → ∃ text, t = .text text) :
    g.dispatch id args = g.invoke id args := by
  cases ran : g.invoke id args with
  | mk result left =>
    rw [dispatch, ran]
    rw [ran] at texts
    cases result with
    | error e => rfl
    | ok t =>
      obtain ⟨text, rfl⟩ := texts t rfl
      rfl

/-- A decorator, whatever its parameter, callback and store are, comes to the same for a list of
arguments as for the first of them alone. It answers just where the callback is reached and its
answer has a text, and then with that text. Without arguments it is refused, the callback is not
reached and nothing changes. -/
theorem decorator_answers_text {g : Bridge} {id : Nat} {name : String} {kind : Kind}
    {callback : Callback} {store : Option Nat}
    (held : g.binding id = .ok (.decorator name kind callback store)) :
    let b := Binding.decorator name kind callback store
    (∀ args, g.dispatch id args = g.invoke id args) ∧
    (∀ first rest, g.dispatch id (first :: rest) = g.decorate id first) ∧
    (∀ first rest answer, (g.dispatch id (first :: rest)).1 = .ok answer ↔
      ∃ ready r text, g.prepared b [first] = .ok ready ∧
        (callback.apply ready.args ready.vars).1 = .ok r ∧
        r.coerce .string = .ok (.text text) ∧ (∀ s, r = .text s → text = s) ∧
        answer = .text text) ∧
    g.dispatch id [] = (.error (.missingArgument (bareName name) 1 0), g) ∧
      ∀ ready, g.prepared b [] ≠ .ok ready := by
  intro b
  have ran (args : List Incoming) : g.invoke id args = g.run b args := by
    simp only [invoke, held]
    rfl
  have first_only (first : Incoming) (rest : List Incoming) :
      g.run b (first :: rest) = g.run b [first] := rfl
  have answers (args : List Incoming) (t : Tagged) : (g.invoke id args).1 = .ok t ↔
      ∃ ready, g.prepared b args = .ok ready ∧ ∃ r text,
        (callback.apply ready.args ready.vars).1 = .ok r ∧
          r.coerce .string = .ok (.text text) ∧ t = .text text := by
    rw [ran, run_ok]
    exact exists_congr fun ready => and_congr_right fun _ => Binding.finish_string rfl
  have texts (args : List Incoming) : g.dispatch id args = g.invoke id args := by
    refine dispatch_text fun t answered => ?_
    obtain ⟨_, _, _, text, _, _, rfl⟩ := (answers args t).mp answered
    exact ⟨text, rfl⟩
  have undecoded : b.decodeArguments (b.considered []) =
      .error (.missingArgument (bareName name) 1 0) := rfl
  refine ⟨texts, fun first rest => ?_, fun first rest answer => ?_, ?_, fun ready reached => ?_⟩
  · rw [texts, ran, first_only, decorate, held]
    rfl
  · rw [texts, ran, first_only, ← ran, answers]
    constructor
    · rintro ⟨ready, reached, r, text, answered, coerced, rfl⟩
      refine ⟨ready, r, text, reached, answered, coerced, ?_, rfl⟩
      rintro s rfl
      cases coerced
      rfl
    · rintro ⟨ready, r, text, reached, answered, coerced, _, rfl⟩
      exact ⟨ready, reached, r, text, answered, coerced, rfl⟩
  · rw [texts, ran]
    exact run_undecoded undecoded g callback
  · cases reached

/-- A decorator of lists that answers the list. -/
def listed : Binding :=
  .decorator "@listed" .array Callback.first (some 0)

/-- A value that is no wire value at all stands behind the first argument and is not looked at. The
list is answered as its text. -/
theorem listed_answers_text :
    let g := { initial with
      bindings := [listed]
      stores := [[(.text "x", .text "kept")]] }
    let yes := Incoming.tagged (.scalar .boolean (.bool true))
    g.binding 0 = .ok listed ∧
      g.dispatch 0 [yes, .wire .null] = g.decorate 0 yes ∧
      (g.dispatch 0 [yes, .wire .null]).1 = .ok (.text "[true]") ∧
      g.dispatch 0 [] = (.error (.missingArgument "listed" 1 0), g) := by
  intro g yes
  have held : g.binding 0 = .ok listed := rfl
  obtain ⟨_, first, answers, refused, _⟩ := decorator_answers_text held
  refine ⟨held, first yes [.wire .null], (answers yes [.wire .null] _).mpr ?_, refused⟩
  have other (s : String) (same : Native.list [.bool true] = .text s) : "[true]" = s := by
    cases same
  exact ⟨⟨[.list [.bool true]], [(.text "x", .text "kept")]⟩, .list [.bool true], "[true]", by rfl,
    rfl, by rfl, other, rfl⟩

end Bridge

end HostBridge
