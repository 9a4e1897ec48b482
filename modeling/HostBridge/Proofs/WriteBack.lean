import HostBridge.Callback.Stock
import HostBridge.Proofs.Effects

namespace HostBridge

/-- Reading a store and writing the variables back keeps the keys, and tags all values anew. -/
theorem rewritten {store : Store} {vars : Variables} (h : store.read = .ok vars) :
    (Store.ofVariables vars).map (·.1) = store.map (·.1) ∧
      ∀ (i : Nat) (k : Native) (t : Tagged), store[i]? = some (k, t) →
        ∃ v, t.unwrap = .ok v ∧ (Store.ofVariables vars)[i]? = some (k, v.tag) := by
  refine ⟨(Store.ofVariables_keys vars).trans (Store.read_keys h), fun i k t hi => ?_⟩
  obtain ⟨v, hv, found⟩ := Store.read_at h hi
  exact ⟨v, hv, by simp [Store.ofVariables, found]⟩

theorem kept_iff {store : Store} {vars : Variables} (h : store.read = .ok vars) {i : Nat}
    {k : Native} {t : Tagged} (hi : store[i]? = some (k, t)) :
    (Store.ofVariables vars)[i]? = some (k, t) ↔ t.Lossless := by
  obtain ⟨v, hv, found⟩ := (rewritten h).2 i k t hi
  rw [found, ← tag_unwrap_iff]
  constructor
  · intro same
    simp only [Option.some.injEq, Prod.mk.injEq, true_and] at same
    exact ⟨v, hv, same⟩
  · rintro ⟨w, hw, same⟩
    rw [hv] at hw
    cases hw
    rw [same]

/-- The whole store stays as it was exactly when all its values are lossless. -/
theorem rewritten_same_iff {store : Store} {vars : Variables} (h : store.read = .ok vars) :
    Store.ofVariables vars = store ↔ ∀ e ∈ store, e.2.Lossless := by
  constructor
  · intro same e he
    obtain ⟨i, hi⟩ := List.mem_iff_getElem?.mp he
    exact (kept_iff h hi).mp (by rw [same]; exact hi)
  · intro lossless
    have length := congrArg List.length (rewritten h).1
    simp only [List.length_map] at length
    apply List.ext_getElem?
    intro i
    cases hi : store[i]? with
    | none =>
      rw [List.getElem?_eq_none_iff] at hi ⊢
      omega
    | some e => exact (kept_iff h hi).mpr (lossless e (List.mem_of_getElem? hi))

namespace Tagged

/-- The payload of a scalar has the type that its tag names. -/
def HasTypedPayload : Tagged → Prop
  | .scalar .integer (.int _) => True
  | .scalar .float (.float _) => True
  | .scalar .string (.text _) => True
  | .scalar .boolean (.bool _) => True
  | .scalar _ _ => False
  | _ => True

def WellTyped (t : Tagged) : Prop :=
  t.Everywhere HasTypedPayload

end Tagged

namespace Session

/-- A call that succeeds and whose callback has not changed the variables, as one that is not handed
them never has, leaves its store with the same keys in the same order. Each variable is tagged
anew, so it stays as it was exactly when it is lossless, and so does the store when all of it is. -/
theorem unchanged_written_back {s : Session} {step : Step} {b : Binding} {ready : Binding.Ready}
    {n : Nat} {store : Store} {answer : Answer} (reached : s.Reaches step b ready)
    (on : b.store = some n) (held : s.bridge.stores[n]? = some store)
    (unchanged : b.callback.takesState = true → b.left ready = ready.vars)
    (answered : (s.perform step).1 = .ok answer) :
    ∃ after, (s.perform step).2.bridge.stores[n]? = some after ∧
      after.map (·.1) = store.map (·.1) ∧
      (∀ (i : Nat) (k : Native) (t : Tagged), store[i]? = some (k, t) →
        (∃ v, t.unwrap = .ok v ∧ after[i]? = some (k, v.tag)) ∧
        (after[i]? = some (k, t) ↔ t.Lossless)) ∧
      (after = store ↔ ∀ e ∈ store, e.2.Lossless) := by
  have left : b.left ready = ready.vars := by
    cases takes : b.callback.takesState with
    | false => exact left_of_no_state takes ready
    | true => exact unchanged takes
  obtain ⟨made, _⟩ := List.getElem?_eq_some_iff.mp held
  have read := reached.read on held
  obtain ⟨keys, values⟩ := rewritten read
  refine ⟨.ofVariables ready.vars, ?_, keys, fun i k t hi => ?_, rewritten_same_iff read⟩
  · rw [(reached.answered answered).2, left, Bridge.writeBack_at on made]
  · exact ⟨values i k t hi, kept_iff read hi⟩

/-- Five as a double. -/
def five : Binary64 :=
  .finite false (5 * Nat.pow 2 50) 1024 (by decide)

theorem five_tag : (Native.float five).tag = .scalar .integer (.int 5) := by
  have whole : five.toInt? = some 5 := by decide +kernel
  rw [Native.tag, tagFloat_whole whole]

/-- A store with a text and with a whole number as a double, and a function that only counts its
arguments. -/
def mixed : List Step :=
  [.store "host" [(.text "name", .tagged (.scalar .string (.text "x"))),
      (.text "rate", .tagged (.scalar .float (.float five)))],
    .build "count" .function (.text "count") (.text "") Callback.count none (some "host")]

theorem mixed_reaches : (initial.after mixed).Reaches (.invoke "count" [])
    (Binding.function "count" Callback.count .any (some 0))
    ⟨[], [(.text "name", .text "x"), (.text "rate", .float five)]⟩ :=
  ⟨[], by rfl, by rfl⟩

/-- The text stays as it was and the double becomes an integer. -/
theorem mixed_written_back :
    ∃ after, ((initial.after mixed).perform (.invoke "count" [])).2.bridge.stores[0]? = some after ∧
      after[0]? = some (.text "name", .scalar .string (.text "x")) ∧
      after[1]? = some (.text "rate", .scalar .integer (.int 5)) := by
  obtain ⟨after, held, _, values, _⟩ :=
    unchanged_written_back mixed_reaches rfl rfl (fun _ => rfl) rfl
  obtain ⟨⟨_, hu, hv⟩, _⟩ := values 0 _ _ rfl
  cases hu
  obtain ⟨⟨_, hu, hw⟩, _⟩ := values 1 _ _ rfl
  cases hu
  rw [five_tag] at hw
  exact ⟨after, held, hv, hw⟩

/-- Not every well-typed store stays as it was. -/
theorem well_typed_rewritten : ¬ ∀ (s : Session) (step : Step) (b : Binding)
    (ready : Binding.Ready) (n : Nat) (store : Store) (answer : Answer),
    s.Reaches step b ready → b.store = some n → s.bridge.stores[n]? = some store →
    (∀ e ∈ store, e.2.WellTyped) → b.left ready = ready.vars →
    (s.perform step).1 = .ok answer → (s.perform step).2.bridge.stores[n]? = some store := by
  intro same
  have typed : ∀ e ∈ [(Native.text "name", Tagged.scalar .string (.text "x")),
      (.text "rate", .scalar .float (.float five))], e.2.WellTyped := by
    simp only [List.forall_mem_cons]
    exact ⟨.scalar trivial, .scalar trivial, List.forall_mem_nil _⟩
  have kept := same _ _ _ _ 0 _ (.tagged (.scalar .integer (.int 0))) mixed_reaches rfl rfl typed
    rfl rfl
  rw [(mixed_reaches.answered rfl).2, Bridge.writeBack_at rfl (by decide)] at kept
  have rate : some (Native.text "rate", (Native.float five).tag) =
      some (.text "rate", .scalar .float (.float five)) :=
    congrArg (·[1]?) (Option.some.inj kept)
  rw [five_tag] at rate
  cases rate

end Session

end HostBridge
