import HostBridge.Callback.Stock
import HostBridge.Proofs.FailedCalls
import HostBridge.Proofs.References

namespace HostBridge

namespace Session

/-- A property of every step of a run, in the session in which the step is performed. -/
def Throughout (p : Session → Step → Prop) (s : Session) : List Step → Prop
  | [] => True
  | step :: steps => p s step ∧ (s.perform step).2.Throughout p steps

/-- A step that writes variables to a store: a successful call on it, or a direct write. -/
inductive Writes (n : Nat) (s : Session) : Step → Prop
  | called (reached : s.Reaches step b ready) (on : b.store = some n)
      (answered : (s.perform step).1 = .ok answer) : Writes n s step
  | written (found : s.bindingOf binding = .ok b) (on : b.store = some n) (state : Variables) :
      Writes n s (.writeState binding (.table state))

def Leaves (n : Nat) (s : Session) (step : Step) : Prop :=
  ¬ s.Writes n step

/-- A step leaves a variable of a store as it is, though it may be a call that changes others. -/
inductive Spares (n : Nat) (k : Native) (s : Session) (step : Step) : Prop
  | leaves (h : s.Leaves n step)
  | keeps (reached : s.Reaches step b ready)
      (same : (b.left ready).get? k = ready.vars.get? k)

/-- A variable in a store is the tagged form of a value. -/
def Holds (stores : List Store) (n : Nat) (k v : Native) : Prop :=
  ∃ store, stores[n]? = some store ∧ Ordered.get? store k = some v.tag

/-- What a step that writes nothing to a store makes of it. -/
theorem Effect.leaves {s : Session} {step : Step} {stores : List Store}
    (he : s.Effect step stores) {n : Nat} (hw : s.Leaves n step) {store : Store}
    (hs : s.bridge.stores[n]? = some store) :
    stores[n]? = some store ∨ ∃ edits, stores[n]? = some (store.edit edits) := by
  cases he with
  | none => exact .inl hs
  | added =>
    obtain ⟨made, _⟩ := List.getElem?_eq_some_iff.mp hs
    exact .inl ((List.getElem?_append_left made).trans hs)
  | edited => exact (Bridge.keepEdits_at hs _ _).imp_right fun h => ⟨_, h⟩
  | called reached answered =>
    rw [Bridge.writeBack_other fun on => hw (.called reached on answered)]
    exact .inl hs
  | written found state =>
    rw [Bridge.writeBack_other fun on => hw (.written found on state)]
    exact .inl hs

/-- A plain store stays as it is over a run that writes nothing to it. -/
theorem leaves_after {s : Session} {n : Nat} {store : Store}
    (hs : s.bridge.stores[n]? = some store) (plain : store.Plain) {steps : List Step}
    (h : s.Throughout (Leaves n) steps) : (s.after steps).bridge.stores[n]? = some store := by
  induction steps generalizing s with
  | nil => exact hs
  | cons step steps ih =>
    obtain ⟨hstep, hsteps⟩ := h
    refine ih ?_ hsteps
    rcases (s.perform_effect step).leaves hstep hs with same | ⟨edits, edited⟩
    · exact same
    · rwa [Store.edit_plain plain] at edited

theorem holds_left {g : Bridge} {b : Binding} {n : Nat} (on : b.store = some n)
    (made : n < g.stores.length) {vars : Variables} {k v : Native}
    (hk : vars.get? k = some v) : Holds (g.writeBack b vars).stores n k v :=
  ⟨_, Bridge.writeBack_at on made _, Store.ofVariables_get hk⟩

/-- A call on the store finds the value of a variable that is held. -/
theorem Holds.found {s : Session} {n : Nat} {k v : Native} (h : Holds s.bridge.stores n k v)
    (normal : v.Normal) {step : Step} {b : Binding} {ready : Binding.Ready}
    (reached : s.Reaches step b ready) (on : b.store = some n) : ready.vars.get? k = some v := by
  obtain ⟨store, hs, hk⟩ := h
  exact Store.read_get (reached.read on hs) hk (unwrap_tag_normal normal)

/-- A held variable stays held when a step spares it. -/
theorem Holds.perform {s : Session} {n : Nat} {k v : Native} (h : Holds s.bridge.stores n k v)
    (normal : v.Normal) {step : Step} (spared : s.Spares n k step) :
    Holds (s.perform step).2.bridge.stores n k v := by
  by_cases writes : s.Writes n step
  · cases spared with
    | leaves aside => exact absurd writes aside
    | keeps reached same =>
      cases writes with
      | called reached' on answered =>
        obtain ⟨rfl, rfl⟩ := reached.unique reached'
        have found := h.found normal reached on
        obtain ⟨store, hs, _⟩ := h
        obtain ⟨made, _⟩ := List.getElem?_eq_some_iff.mp hs
        rw [(reached.answered answered).2]
        exact holds_left on made (same.trans found)
      | written => cases reached.isCall
  · obtain ⟨store, hs, hk⟩ := h
    rcases (s.perform_effect step).leaves writes hs with same | ⟨edits, edited⟩
    · exact ⟨store, same, hk⟩
    · exact ⟨_, edited, Store.edit_get hk (tag_shapeNormal v).plain edits⟩

theorem Holds.after {s : Session} {n : Nat} {k v : Native} (h : Holds s.bridge.stores n k v)
    (normal : v.Normal) {steps : List Step} (spared : s.Throughout (Spares n k) steps) :
    Holds (s.after steps).bridge.stores n k v := by
  induction steps generalizing s with
  | nil => exact h
  | cons step steps ih =>
    obtain ⟨hstep, hsteps⟩ := spared
    exact ih (h.perform normal hstep) hsteps

/-- What a call that succeeds leaves is handed over to the next call on its store. It finds the
same variables in the same order and each value in normal form as it was; a call in between that
does succeed takes nothing from the variables that it leaves alone. No other store is touched. -/
theorem variables_handed_over (before between : List Step) {first later : Step} {b c : Binding}
    {ready next : Binding.Ready} {n : Nat} {answer : Answer}
    (reached : (initial.after before).Reaches first b ready) (on : b.store = some n)
    (answered : ((initial.after before).perform first).1 = .ok answer)
    (again : (initial.after (before ++ first :: between)).Reaches later c next)
    (on' : c.store = some n) :
    (((initial.after before).perform first).2.Throughout (Leaves n) between →
      next.vars.map (·.1) = (b.left ready).map (·.1) ∧
      ∀ (i : Nat) (k v : Native), (b.left ready)[i]? = some (k, v) → v.Normal →
        next.vars[i]? = some (k, v)) ∧
    (∀ k v, ((initial.after before).perform first).2.Throughout (Spares n k) between →
      (b.left ready).get? k = some v → v.Normal → next.vars.get? k = some v) ∧
    ∀ m, m ≠ n → ((initial.after before).perform first).2.bridge.stores[m]? =
      (initial.after before).bridge.stores[m]? := by
  have made := (linked_initial.after before).reaches reached n on
  rw [after_append] at again
  have written := (reached.answered answered).2
  refine ⟨fun aside => ?_, fun k v spared hk normal => ?_, fun m other => ?_⟩
  · have held : ((initial.after before).perform first).2.bridge.stores[n]? =
        some (.ofVariables (b.left ready)) := by
      rw [written, Bridge.writeBack_at on made]
    have read := again.read on' (leaves_after held (Store.plain_ofVariables _) aside)
    exact Store.read_ofVariables read
  · have held : Holds ((initial.after before).perform first).2.bridge.stores n k v := by
      rw [written]
      exact holds_left on made hk
    exact (held.after normal spared).found normal again on'
  · rw [written, Bridge.writeBack_other]
    rw [on]
    exact fun same => other (Option.some.inj same).symm

/-- Between two calls of a counter, a call on its store fails and one on another succeeds. -/
theorem count_handed_over :
    let before : List Step :=
      [.store "host" [(.text "counter", .tagged (.scalar .integer (.int 4)))], .store "other" [],
        .build "tick" .function (.text "tick") (.text "Integer") Callback.next none (some "host"),
        .build "spoil" .function (.text "spoil") (.text "") Callback.putFail none (some "host"),
        .build "note" .function (.text "note") (.text "") Callback.put none (some "other")]
    let args : List Incoming :=
      [.tagged (.scalar .string (.text "counter")), .tagged (.scalar .boolean (.bool true))]
    let between : List Step := [.invoke "spoil" args, .invoke "note" args]
    let tick : Step := .invoke "tick" []
    let counter := Binding.function "tick" Callback.next .integer (some 0)
    (initial.after before).Reaches tick counter ⟨[], [(.text "counter", .int 4)]⟩ ∧
      ((initial.after before).perform tick).2.Throughout (Leaves 0) between ∧
      ∃ next, (initial.after (before ++ tick :: between)).Reaches tick counter next ∧
        next.vars.map (·.1) = [.text "counter"] ∧
        next.vars[0]? = some (.text "counter", .int 5) := by
  intro before args between tick counter
  have reached : (initial.after before).Reaches tick counter ⟨[], [(.text "counter", .int 4)]⟩ :=
    ⟨[], by rfl, by rfl⟩
  have answered : ((initial.after before).perform tick).1 =
      .ok (.tagged (.scalar .integer (.int 4))) := by rfl
  have again : (initial.after (before ++ tick :: between)).Reaches tick counter
      ⟨[], [(.text "counter", .int 5)]⟩ := ⟨[], by rfl, by rfl⟩
  have aside : ((initial.after before).perform tick).2.Throughout (Leaves 0) between := by
    refine ⟨?_, ?_, trivial⟩
    · intro writes
      cases writes with
      | called reached on answered => cases answered
    · intro writes
      cases writes with
      | called reached on answered =>
        have elsewhere : (initial.after (before ++ [tick, .invoke "spoil" args])).Reaches
            (.invoke "note" args) (Binding.function "note" Callback.put .any (some 1))
            ⟨[.text "counter", .bool true], []⟩ := ⟨args, by rfl, by rfl⟩
        obtain ⟨rfl, _⟩ := elsewhere.unique reached
        cases on
  obtain ⟨handed, _, _⟩ := variables_handed_over before between reached rfl answered again rfl
  obtain ⟨keys, values⟩ := handed aside
  exact ⟨reached, aside, _, again, keys, values 0 _ _ rfl (.simple ⟨.integer, trivial⟩)⟩

/-- The variable in which a counter counts, where an absent one counts as zero. -/
def countOf (vars : Variables) : Native :=
  (vars.get? (.text "counter")).getD (.int 0)

/-- A counter that finishes answers the count it found and leaves the next one. -/
theorem next_finish {b : Binding} (counter : b.callback = Callback.next) {ready : Binding.Ready}
    {i : Int} (count : countOf ready.vars = .int i) {value : Tagged}
    (h : b.finish ready = .ok (value, b.left ready)) :
    (Native.int i).wrap b.result = .ok value ∧
      (b.left ready).get? (.text "counter") = some (.int (i + 1)) := by
  obtain ⟨args, vars⟩ := ready
  unfold countOf at count
  cases args with
  | cons a as =>
    simp [Binding.finish, Callback.apply, counter, Callback.next, Callback.withState] at h
  | nil =>
    have ran : b.callback.apply [] vars =
        (.ok (.int i), vars.insert (.text "counter") (.int (i + 1))) := by
      simp [counter, Callback.apply, Callback.next, Callback.withState, count, Native.isNumber,
        Native.plus, Native.asInt?]
    have left : b.left ⟨[], vars⟩ = vars.insert (.text "counter") (.int (i + 1)) :=
      congrArg Prod.snd ran
    rw [left] at h ⊢
    simp only [Binding.finish, ran, Attempt.ok_bind] at h
    obtain ⟨t, ht, he⟩ := Attempt.bind_ok.mp h
    cases he
    exact ⟨ht, Ordered.get?_insert_self rfl vars _⟩

/-- Counters on one store count on from each other, whatever spares their variable in between. -/
theorem counters_count_on {s : Session} (linked : s.Linked) {first later : Step} {b c : Binding}
    {ready next : Binding.Ready} {n : Nat} {i : Int} {answer answer' : Answer}
    (reached : s.Reaches first b ready) (on : b.store = some n)
    (counter : b.callback = Callback.next) (count : countOf ready.vars = .int i)
    (answered : (s.perform first).1 = .ok answer) {between : List Step}
    (spared : (s.perform first).2.Throughout (Spares n (.text "counter")) between)
    (again : (s.after (first :: between)).Reaches later c next) (on' : c.store = some n)
    (counter' : c.callback = Callback.next)
    (answered' : ((s.after (first :: between)).perform later).1 = .ok answer') :
    ((Native.int i).wrap b.result).map .tagged = .ok answer ∧
      ((Native.int (i + 1)).wrap c.result).map .tagged = .ok answer' ∧
      countOf next.vars = .int (i + 1) := by
  obtain ⟨⟨value, rfl, done⟩, written⟩ := reached.answered answered
  obtain ⟨⟨value', rfl, done'⟩, _⟩ := again.answered answered'
  obtain ⟨wrapped, left⟩ := next_finish counter count done
  have held : Holds (s.perform first).2.bridge.stores n (.text "counter") (.int (i + 1)) := by
    rw [written]
    exact holds_left on (linked.reaches reached n on) left
  have normal : (Native.int (i + 1)).Normal := .simple ⟨.integer, trivial⟩
  have count' : countOf next.vars = .int (i + 1) := by
    rw [countOf, (held.after normal spared).found normal again on', Option.getD_some]
  obtain ⟨wrapped', _⟩ := next_finish counter' count' done'
  exact ⟨by rw [wrapped]; rfl, by rw [wrapped']; rfl, count'⟩

/-- Two counters on one store, between which another variable of it is changed. -/
example :
    let build (name : String) (callback : Callback) : Step :=
      .build name .function (.text name) (.text "Integer") callback none (some "host")
    let before : List Step :=
      [.store "host" [], build "tick" Callback.next, build "tock" Callback.next,
        build "note" Callback.put]
    let note : Step := .invoke "note"
      [.tagged (.scalar .string (.text "seen")), .tagged (.scalar .boolean (.bool true))]
    ((Native.int 0).wrap .integer).map Answer.tagged =
        ((initial.after before).perform (.invoke "tick" [])).1 ∧
      ((Native.int 1).wrap .integer).map Answer.tagged =
        ((initial.after (before ++ [.invoke "tick" [], note])).perform (.invoke "tock" [])).1 := by
  intro build before note
  let counter (name : String) := Binding.function name Callback.next .integer (some 0)
  have linked : (initial.after before).Linked := linked_initial.after before
  have first : (initial.after before).Reaches (.invoke "tick" []) (counter "tick") ⟨[], []⟩ :=
    ⟨[], by rfl, by rfl⟩
  have noted : (initial.after (before ++ [.invoke "tick" []])).Reaches note
      (Binding.function "note" Callback.put .integer (some 0))
      ⟨[.text "seen", .bool true], [(.text "counter", .int 1)]⟩ := ⟨_, by rfl, by rfl⟩
  have second : (initial.after (before ++ [.invoke "tick" [], note])).Reaches (.invoke "tock" [])
      (counter "tock") ⟨[], [(.text "counter", .int 1), (.text "seen", .bool true)]⟩ :=
    ⟨[], by rfl, by rfl⟩
  have spared : ((initial.after before).perform (.invoke "tick" [])).2.Throughout
      (Spares 0 (.text "counter")) [note] := ⟨.keeps noted (by rfl), trivial⟩
  obtain ⟨answered, answered', _⟩ :=
    counters_count_on linked first rfl rfl rfl rfl spared second rfl rfl rfl
  exact ⟨answered, answered'⟩

end Session

end HostBridge
