import HostBridge.Bridge
import HostBridge.Proofs.Contents

namespace HostBridge

/-- The variables as the callback of a prepared call leaves them. -/
def Binding.left (b : Binding) (ready : Ready) : Variables :=
  (b.callback.apply ready.args ready.vars).2

theorem finish_left {b : Binding} {ready : Binding.Ready} {value : Tagged} {vars : Variables}
    (h : b.finish ready = .ok (value, vars)) : vars = b.left ready := by
  obtain ⟨result, _, h⟩ := Attempt.bind_ok.mp h
  obtain ⟨tagged, _, he⟩ := Attempt.bind_ok.mp h
  cases he
  rfl

/-- A callback that is not handed the variables leaves them as they are. -/
theorem left_of_no_state {b : Binding} (h : b.callback.takesState = false)
    (ready : Binding.Ready) : b.left ready = ready.vars := by
  simp [Binding.left, Callback.apply, h]

namespace Bridge

/-- A bridge without the lines of its log. -/
def quiet (g : Bridge) : Bridge :=
  { g with lines := [] }

@[simp]
theorem report_quiet (g : Bridge) (module message : String) :
    (g.report module message).quiet = g.quiet := rfl

theorem quiet_keepEdits {g h : Bridge} (he : g.quiet = h.quiet) (b : Binding)
    (edits : Ordered Native (List Native)) :
    (g.keepEdits b edits).quiet = (h.keepEdits b edits).quiet := by
  cases g
  cases h
  cases he
  cases hs : b.store <;> simp only [keepEdits, hs] <;> rfl

theorem quiet_writeBack {g h : Bridge} (he : g.quiet = h.quiet) (b : Binding)
    (vars : Variables) : (g.writeBack b vars).quiet = (h.writeBack b vars).quiet := by
  cases g
  cases h
  cases he
  cases hs : b.store <;> simp only [writeBack, hs] <;> rfl

/-- The call that a binding makes of its arguments, prepared to run. -/
def prepared (g : Bridge) (b : Binding) (args : List Incoming) : Attempt Binding.Ready :=
  b.prepare (g.contents b) (b.considered args)

/-- What running a binding comes to: its answer and, but for the log, the bridge that it leaves. -/
inductive Outcome (g : Bridge) (b : Binding) (args : List Incoming) :
    Attempt Tagged → Bridge → Prop
  | refused (early : g.prepared b args = .error e) : Outcome g b args (.error e) g
  | failed {ready : Binding.Ready} (reached : g.prepared b args = .ok ready)
      (late : b.finish ready = .error e) :
      Outcome g b args (.error e) (g.keepEdits b (b.edited ready))
  | succeeded {ready : Binding.Ready} (reached : g.prepared b args = .ok ready)
      (done : b.finish ready = .ok (value, b.left ready)) :
      Outcome g b args (.ok value) (g.writeBack b (b.left ready))

theorem run_outcome (g : Bridge) (b : Binding) (args : List Incoming) :
    ∃ h, Outcome g b args (g.run b args).1 h ∧ (g.run b args).2.quiet = h.quiet := by
  unfold run
  split
  · rename_i e he
    exact ⟨g, .refused he, rfl⟩
  · rename_i ready hr
    dsimp only
    split
    · rename_i e he
      exact ⟨_, .failed hr he, quiet_keepEdits (report_quiet g _ _) b _⟩
    · rename_i value vars hf
      cases finish_left hf
      exact ⟨_, .succeeded hr hf, quiet_writeBack (report_quiet g _ _) b _⟩

/-- A binding answers where its callback is reached and what that answers can be tagged. -/
theorem run_ok {g : Bridge} {b : Binding} {args : List Incoming} {t : Tagged} :
    (g.run b args).1 = .ok t ↔
      ∃ ready, g.prepared b args = .ok ready ∧ b.finish ready = .ok (t, b.left ready) := by
  unfold run prepared
  cases b.prepare (g.contents b) (b.considered args) with
  | error e => simp
  | ok ready =>
    dsimp only
    cases finished : b.finish ready with
    | error e => simp [finished]
    | ok r =>
      obtain ⟨value, vars⟩ := r
      cases finish_left finished
      simp [finished]

end Bridge

end HostBridge
