import HostBridge.Callback.Stock
import HostBridge.Proofs.Effects

namespace HostBridge

/-- What a step puts into a new store are plain values. -/
def Step.Plain : Step → Prop
  | .store _ initial => ∀ e ∈ initial, ∀ t, e.2.toTagged = .ok t → t.Plain
  | _ => True

theorem keepEdits_plain {g : Bridge} (h : ∀ s ∈ g.stores, s.Plain) (b : Binding)
    (edits : Ordered Native (List Native)) : g.keepEdits b edits = g := by
  cases hs : b.store with
  | none => exact Bridge.keepEdits_storeless hs g edits
  | some n =>
    have same : g.stores.modify n (Store.edit · edits) = g.stores := by
      apply List.ext_getElem?
      intro i
      rw [List.getElem?_modify]
      cases hi : g.stores[i]? with
      | none => rfl
      | some s =>
        simp only [Option.map_eq_map, Option.map_some]
        split
        · rw [Store.edit_plain (h s (List.mem_of_getElem? hi))]
        · rfl
    simp only [Bridge.keepEdits, hs, same]

namespace Session

/-- All values in all stores are plain. -/
def Plain (s : Session) : Prop :=
  ∀ store ∈ s.bridge.stores, store.Plain

theorem plain_initial : initial.Plain := by
  intro store hs
  cases hs

theorem contents_plain {entries : List (Native × Incoming)} {start store : Store}
    (hi : ∀ e ∈ entries, ∀ t, e.2.toTagged = .ok t → t.Plain) (hs : start.Plain)
    (h : contents entries start = .ok store) : store.Plain := by
  induction entries generalizing start with
  | nil =>
    cases h
    exact hs
  | cons e es ih =>
    obtain ⟨k, v⟩ := e
    obtain ⟨hv, hes⟩ := List.forall_mem_cons.mp hi
    obtain ⟨t, ht, h⟩ := Attempt.bind_ok.mp h
    split at h
    · exact ih hes (hs.insert k (hv t ht)) h
    · cases h

theorem writeBack_plain {g : Bridge} (h : ∀ s ∈ g.stores, s.Plain) (b : Binding)
    (vars : Variables) : ∀ s ∈ (g.writeBack b vars).stores, s.Plain := by
  cases hs : b.store with
  | none => rwa [Bridge.writeBack_storeless hs]
  | some n =>
    rw [Bridge.writeBack_stores hs]
    intro s hm
    rcases List.mem_or_eq_of_mem_set hm with hm | rfl
    · exact h s hm
    · exact Store.plain_ofVariables vars

theorem Effect.plain {s : Session} {step : Step} {stores : List Store}
    (he : s.Effect step stores) (hs : s.Plain) (hp : step.Plain) :
    ∀ store ∈ stores, store.Plain := by
  cases he with
  | none => exact hs
  | added id made =>
    intro store hm
    rcases List.mem_append.mp hm with hm | hm
    · exact hs store hm
    · rw [List.mem_singleton.mp hm]
      exact contents_plain hp (List.forall_mem_nil _) made
  | edited reached late => rwa [keepEdits_plain hs]
  | called reached answered => exact writeBack_plain hs _ _
  | written found state => exact writeBack_plain hs _ _

/-- Plain stores stay plain over any run that adds no others. -/
theorem Plain.after {s : Session} (hs : s.Plain) {steps : List Step}
    (hp : ∀ step ∈ steps, step.Plain) : (s.after steps).Plain := by
  induction steps generalizing s with
  | nil => exact hs
  | cons step steps ih =>
    obtain ⟨hstep, hsteps⟩ := List.forall_mem_cons.mp hp
    exact ih ((s.perform_effect step).plain hs hstep) hsteps

/-- A call that fails leaves only lines in the log. -/
theorem failed_call_quiet {s : Session} (hs : s.Plain) {step : Step} (hc : step.IsCall)
    {failure : Failure} (hf : (s.perform step).1 = .error failure) :
    (s.perform step).2.quiet = s.quiet := by
  obtain ⟨g, ho, hg⟩ := s.perform_outcome hc
  rw [hf] at ho
  rw [hg]
  generalize ha : Except.error failure = answer at ho
  cases ho with
  | missed => rfl
  | ran found run =>
    cases run with
    | refused => rfl
    | failed reached late => rw [keepEdits_plain hs]
    | succeeded reached done => cases ha

/-- A call that fails in a session with plain values, at whatever stage, leaves every store as it
was, and the session without it answers all other steps alike and ends with the same stores. -/
theorem failed_call_invisible (before later : List Step) {step : Step} {failure : Failure}
    (plain : ∀ earlier ∈ before, earlier.Plain) (call : step.IsCall)
    (failed : ((initial.after before).perform step).1 = .error failure) :
    ((initial.after before).perform step).2.bridge.stores = (initial.after before).bridge.stores ∧
      initial.answers (before ++ later) =
        (initial.answers (before ++ step :: later)).eraseIdx before.length ∧
      (initial.after (before ++ later)).bridge.stores =
        (initial.after (before ++ step :: later)).bridge.stores ∧
      (initial.after (before ++ later)).storeContents =
        (initial.after (before ++ step :: later)).storeContents := by
  have hq := failed_call_quiet (plain_initial.after plain) call failed
  obtain ⟨ha, hs⟩ := run_congr hq.symm later
  refine ⟨stores_congr hq, ?_, ?_, ?_⟩
  · rw [answers_append, answers_append, ha, answers, List.eraseIdx_append_of_length_le,
      answers_length, Nat.sub_self, List.eraseIdx_cons_zero]
    exact Nat.le_of_eq (answers_length _ _)
  · rw [after_append, after_append]
    exact stores_congr hs
  · rw [after_append, after_append]
    exact storeContents_congr hs

/-- A function that changes a variable and then fails, called before a look at the variables. -/
theorem failed_put_invisible :
    let before : List Step :=
      [.store "host" [(.text "ready", .tagged (.scalar .boolean (.bool true)))],
        .build "spoil" .function (.text "spoil") (.text "String") Callback.putFail none
          (some "host")]
    let step : Step := .invoke "spoil" [.tagged (.scalar .string (.text "ready")),
      .tagged (.scalar .string (.text "no"))]
    ((initial.after before).perform step).1 = .error (.raised "put_fail") ∧
      (initial.after (before ++ step :: [.readState "spoil"])).storeContents =
        [("host", [(.text "ready", .scalar .boolean (.bool true))])] ∧
      initial.answers (before ++ [.readState "spoil"]) =
        (initial.answers (before ++ step :: [.readState "spoil"])).eraseIdx 2 := by
  intro before step
  have plain : ∀ earlier ∈ before, earlier.Plain := by
    simp only [before, List.forall_mem_cons]
    refine ⟨fun e he t ht => ?_, trivial, List.forall_mem_nil _⟩
    rw [List.mem_singleton.mp he] at ht
    cases ht
    exact .scalar trivial
  have call : step.IsCall := trivial
  have failed : ((initial.after before).perform step).1 = .error (.raised "put_fail") := by rfl
  obtain ⟨_, answers, _, contents⟩ :=
    failed_call_invisible before [.readState "spoil"] plain call failed
  exact ⟨failed, contents.symm.trans rfl, answers⟩

end Session

end HostBridge
