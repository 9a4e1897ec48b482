import HostBridge.Proofs.LogIndependence

namespace HostBridge

open Log (Logging Line)

namespace Log.Logging

/-- The log after a configuration that fails. -/
def dropped (l : Logging) : Logging :=
  { l with enabled := true, sink := none }

/-- Whether a configuration has no filter text and finds its profile remembered. -/
def Repeats (l : Logging) (profile : Profile) (text? : Option String) : Prop :=
  text? = none ∧ l.profile = some profile

/-- The filter that a configuration reads: its own text, or else the default one. -/
def filter? (text? default? : Option String) : Option Filter :=
  Filter.ofText? (.ofText ((text?.orElse fun _ => default?).getD "info"))

/-- What a configuration comes to: it is skipped, it fails, or it puts a new sink in place. -/
inductive Configured (l : Logging) (profile : Profile) (text? default? : Option String) :
    Attempt Unit × Logging → Prop
  | skipped (same : l.Repeats profile text?) : Configured l profile text? default? (.ok (), l)
  | failed (anew : ¬ l.Repeats profile text?) (unknown : filter? text? default? = none) :
      Configured l profile text? default? (.error .unknownLevel, l.dropped)
  | replaced {filter : Filter} (anew : ¬ l.Repeats profile text?)
      (known : filter? text? default? = some filter) :
      Configured l profile text? default? (.ok (),
        { enabled := true, sink := some ⟨profile, filter⟩, forwarding := true,
          profile := some profile })

theorem repeats_iff {l : Logging} {profile : Profile} {text? : Option String} :
    (text?.isNone && l.profile == some profile) = true ↔ l.Repeats profile text? := by
  simp [Repeats]

theorem configure_configured (l : Logging) (profile : Profile) (text? default? : Option String) :
    l.Configured profile text? default? (l.configure profile text? default?) := by
  unfold configure
  split
  · rename_i same
    exact .skipped (repeats_iff.mp same)
  · rename_i anew
    have anew := mt repeats_iff.mpr anew
    dsimp only
    split
    · rename_i unknown
      exact .failed anew unknown
    · rename_i filter known
      exact .replaced anew known

/-- A configuration anew does not ask whether there was a sink. -/
theorem configure_dropped {l : Logging} {profile : Profile} {text? default? : Option String}
    (anew : ¬ l.Repeats profile text?) :
    l.dropped.configure profile text? default? = l.configure profile text? default? := by
  have fresh : (text?.isNone && l.profile == some profile) = false :=
    Bool.eq_false_iff.mpr (mt repeats_iff.mp anew)
  have unseen : (text?.isNone && l.dropped.profile == some profile) = false := fresh
  rw [configure, configure, fresh, unseen]
  rfl

theorem configure_repeated {l : Logging} {profile : Profile} {text? default? : Option String}
    (same : l.Repeats profile text?) : l.configure profile text? default? = (.ok (), l) := by
  rw [configure, if_pos (repeats_iff.mpr same)]

/-- Without a sink nothing more is lost. -/
theorem dropped_lines {l : Logging} (closed : l.sink = none) (e : Event) :
    l.dropped.lines e = l.lines e := by
  cases e with
  | library module message => simp [lines, report, write, dropped, closed]
  | other least record =>
    simp only [lines, forward, write, closed]
    rfl

/-- Where records are forwarded, nothing is written without a sink. -/
theorem dropped_silent {l : Logging} (forwards : l.forwarding = true) (e : Event) :
    l.dropped.lines e = [] := by
  cases e with
  | library module message => simp [lines, report, write, dropped]
  | other least record => simp [lines, forward, write, dropped, forwards]

end Log.Logging

/-- Whether a step configures a log anew. -/
def Step.Reconfigures (l : Logging) : Step → Prop
  | .configure profile text? _ => ¬ l.Repeats profile text?
  | _ => False

namespace Session

/-- A step that does not configure the log anew goes the same way under every log that forwards
alike and remembers the same profile. -/
theorem perform_steady (s : Session) {l : Logging} {step : Step} (steady : ¬ step.Reconfigures l) :
    ∃ (a : Attempt Answer) (t : Session) (events : List Log.Event), ∀ logging lines,
      logging.forwarding = l.forwarding → logging.profile = l.profile →
      (s.relogged logging lines).perform step =
        (a, t.relogged logging (lines ++ events.flatMap logging.lines)) := by
  rcases configures_or_not step with ⟨profile, text?, default?, rfl⟩ | other
  · have same : l.Repeats profile text? := Classical.not_not.mp steady
    refine ⟨.ok .nothing, s, [], fun logging lines _ remembered => ?_⟩
    have again : logging.Repeats profile text? := ⟨same.1, remembered.trans same.2⟩
    rw [configure_relogged, Log.Logging.configure_repeated again, List.flatMap_nil,
      List.append_nil]
    rfl
  · obtain ⟨a, t, events, after⟩ := (s.relogged l []).perform_emits step other
    exact ⟨a, t, events, fun logging lines alike _ => after logging lines alike⟩

theorem run_steady (s : Session) {l : Logging} {steps : List Step}
    (steady : ∀ step ∈ steps, ¬ step.Reconfigures l) :
    ∃ (answers : List (Attempt Answer)) (t : Session) (events : List Log.Event),
      ∀ logging lines, logging.forwarding = l.forwarding → logging.profile = l.profile →
        (s.relogged logging lines).answers steps = answers ∧
          (s.relogged logging lines).after steps =
            t.relogged logging (lines ++ events.flatMap logging.lines) := by
  induction steps generalizing s with
  | nil =>
    refine ⟨[], s, [], fun logging lines _ _ => ⟨rfl, ?_⟩⟩
    rw [List.flatMap_nil, List.append_nil]
    rfl
  | cons step steps ih =>
    obtain ⟨here, later⟩ := List.forall_mem_cons.mp steady
    obtain ⟨a, next, written, after⟩ := s.perform_steady here
    obtain ⟨rest, t, more, run⟩ := ih next later
    refine ⟨a :: rest, t, written ++ more, fun logging lines alike remembered => ?_⟩
    have first := after logging lines alike remembered
    obtain ⟨answered, left⟩ := run logging (lines ++ written.flatMap logging.lines) alike remembered
    rw [List.flatMap_append, ← List.append_assoc, ← left, ← answered]
    constructor
    · rw [answers, first]
    · exact congrArg (fun r => r.2.after steps) first

theorem perform_forwards {s : Session} (step : Step)
    (forwards : s.bridge.logging.sink ≠ none → s.bridge.logging.forwarding = true) :
    (s.perform step).2.bridge.logging.sink ≠ none →
      (s.perform step).2.bridge.logging.forwarding = true := by
  rcases configures_or_not step with ⟨profile, text?, default?, rfl⟩ | other
  · have outcome := s.bridge.logging.configure_configured profile text? default?
    have left : (s.perform (.configure profile text? default?)).2.bridge.logging =
      (s.bridge.logging.configure profile text? default?).2 := rfl
    rw [left]
    generalize s.bridge.logging.configure profile text? default? = result at outcome
    cases outcome with
    | skipped => exact forwards
    | failed => exact fun sink => absurd rfl sink
    | replaced => exact fun _ => rfl
  · rwa [s.perform_logging other]

theorem after_forwards {s : Session} (steps : List Step)
    (forwards : s.bridge.logging.sink ≠ none → s.bridge.logging.forwarding = true) :
    (s.after steps).bridge.logging.sink ≠ none →
      (s.after steps).bridge.logging.forwarding = true := by
  induction steps generalizing s with
  | nil => exact forwards
  | cons step steps ih => exact ih (perform_forwards step forwards)

/-- Any steps are some that do not configure the log anew, and others that begin with one that
does. -/
theorem split_steady (l : Logging) (steps : List Step) :
    ∃ steady rest, steps = steady ++ rest ∧ (∀ step ∈ steady, ¬ step.Reconfigures l) ∧
      ∀ step ∈ rest.head?, step.Reconfigures l := by
  induction steps with
  | nil => exact ⟨[], [], rfl, List.forall_mem_nil _, fun _ none => by cases none⟩
  | cons step steps ih =>
    by_cases anew : step.Reconfigures l
    · refine ⟨[], step :: steps, rfl, List.forall_mem_nil _, fun first here => ?_⟩
      cases here
      exact anew
    · obtain ⟨steady, rest, rfl, none, first⟩ := ih
      exact ⟨step :: steady, rest, rfl, List.forall_mem_cons.mpr ⟨anew, none⟩, first⟩

/-- A session whose log has lost its sink by a configuration that failed. -/
def dropped (s : Session) : Session :=
  s.relogged s.bridge.logging.dropped s.bridge.lines

/-- Until the log is configured anew, the events are the same without the sink. -/
theorem dropped_steady (s : Session) {steps : List Step}
    (steady : ∀ step ∈ steps, ¬ step.Reconfigures s.bridge.logging) :
    s.dropped.answers steps = s.answers steps ∧
      ∃ (t : Session) (events : List Log.Event),
        s.after steps = t.relogged s.bridge.logging
          (s.bridge.lines ++ events.flatMap s.bridge.logging.lines) ∧
        s.dropped.after steps = t.relogged s.bridge.logging.dropped
          (s.bridge.lines ++ events.flatMap s.bridge.logging.dropped.lines) := by
  obtain ⟨as, t, events, run⟩ := s.run_steady steady
  obtain ⟨answered, left⟩ := run s.bridge.logging s.bridge.lines rfl rfl
  obtain ⟨answered', left'⟩ := run s.bridge.logging.dropped s.bridge.lines rfl rfl
  exact ⟨answered'.trans answered.symm, t, events, left, left'⟩

/-- Configuring the log anew goes the same way with and without the sink, and writes nothing. -/
theorem dropped_reconfigured (t : Session) {l : Logging} {step : Step}
    (anew : step.Reconfigures l) (lines lines' : List Line) :
    ∃ (a : Attempt Answer) (logging : Logging),
      (t.relogged l lines).perform step = (a, t.relogged logging lines) ∧
      (t.relogged l.dropped lines').perform step = (a, t.relogged logging lines') := by
  cases step with
  | configure profile text? default? =>
    refine ⟨_, _, configure_relogged t l lines profile text? default?, ?_⟩
    rw [configure_relogged, Log.Logging.configure_dropped anew]
  | _ => exact anew.elim

/-- What steps come to without the sink: the same answers and, but for the log, the same session;
before the log is configured anew the lines of the same events, and from then on the same lines. -/
theorem dropped_run (s : Session) {steady rest : List Step}
    (none : ∀ step ∈ steady, ¬ step.Reconfigures s.bridge.logging)
    (first : ∀ step ∈ rest.head?, step.Reconfigures s.bridge.logging) :
    s.dropped.answers (steady ++ rest) = s.answers (steady ++ rest) ∧
      (∃ logging lines,
        s.dropped.after (steady ++ rest) = (s.after (steady ++ rest)).relogged logging lines) ∧
      ∃ (events : List Log.Event) (new : List Line),
        (s.after steady).bridge.lines =
          s.bridge.lines ++ events.flatMap s.bridge.logging.lines ∧
        (s.dropped.after steady).bridge.lines =
          s.bridge.lines ++ events.flatMap s.bridge.logging.dropped.lines ∧
        (s.after (steady ++ rest)).bridge.lines = (s.after steady).bridge.lines ++ new ∧
        (s.dropped.after (steady ++ rest)).bridge.lines =
          (s.dropped.after steady).bridge.lines ++ new := by
  obtain ⟨answered, t, events, left, lost⟩ := s.dropped_steady none
  rw [answers_append, answers_append, answered, after_append, after_append, left, lost]
  cases rest with
  | nil =>
    refine ⟨rfl, ⟨_, _, rfl⟩, events, [], rfl, rfl, ?_, ?_⟩
    · exact (List.append_nil _).symm
    · exact (List.append_nil _).symm
  | cons step later =>
    obtain ⟨a, logging, kept, anew⟩ := t.dropped_reconfigured (first step rfl)
      (s.bridge.lines ++ events.flatMap s.bridge.logging.lines)
      (s.bridge.lines ++ events.flatMap s.bridge.logging.dropped.lines)
    simp only [answers, after_cons, kept, anew]
    have alike (lines lines' : List Line) :
        (t.relogged logging lines).quiet = (t.relogged logging lines').quiet := rfl
    obtain ⟨same, ended⟩ := run_congr (alike _ _) later
    obtain ⟨new, written, written'⟩ := run_writes (alike _ _) later
    exact ⟨by rw [same], ⟨_, _, relogged_of_quiet ended⟩, events, new, rfl, rfl, written',
      written⟩

/-- For every configuration that fails in a session: the failure is that the filter names no level,
and all it does is that the log loses its sink. Any steps after it answer as they would without it,
and leave the same session but for the log. Where there was no sink they write the same lines. Where
there was one, they write nothing until one of them configures the log anew, with a filter text or
for a profile that is not the remembered one; from then on they write the same lines. -/
theorem failed_configuration {before : List Step} {profile : Log.Profile}
    {text? default? : Option String} {e : Failure}
    (failed : ((initial.after before).perform (.configure profile text? default?)).1 = .error e) :
    let s := initial.after before
    let t := (s.perform (.configure profile text? default?)).2
    e = .unknownLevel ∧ t = s.relogged s.bridge.logging.dropped s.bridge.lines ∧
    (∀ later, t.answers later = s.answers later ∧
      ∃ logging lines, t.after later = (s.after later).relogged logging lines) ∧
    (s.bridge.logging.sink = none →
      ∀ later, (t.after later).bridge.lines = (s.after later).bridge.lines) ∧
    (s.bridge.logging.sink ≠ none → ∀ steady rest,
      (∀ step ∈ steady, ¬ step.Reconfigures s.bridge.logging) →
      (∀ step ∈ rest.head?, step.Reconfigures s.bridge.logging) →
      (t.after steady).bridge.lines = s.bridge.lines ∧
      ∃ new, (s.after (steady ++ rest)).bridge.lines = (s.after steady).bridge.lines ++ new ∧
        (t.after (steady ++ rest)).bridge.lines = s.bridge.lines ++ new) := by
  intro s t
  have lost : e = .unknownLevel ∧ t = s.dropped := by
    have outcome := s.bridge.logging.configure_configured profile text? default?
    have performed : s.perform (.configure profile text? default?) = _ :=
      configure_relogged s s.bridge.logging s.bridge.lines profile text? default?
    rw [performed] at failed
    simp only [t, performed]
    generalize s.bridge.logging.configure profile text? default? = result at outcome failed ⊢
    cases outcome with
    | skipped | replaced => cases failed
    | failed =>
      cases failed
      exact ⟨rfl, rfl⟩
  obtain ⟨rfl, same⟩ := lost
  rw [same]
  refine ⟨rfl, rfl, fun later => ?_, fun closed later => ?_, fun sink steady rest none first => ?_⟩
  · obtain ⟨steady, rest, rfl, none, first⟩ := split_steady s.bridge.logging later
    obtain ⟨answered, ended, _⟩ := s.dropped_run none first
    exact ⟨answered, ended⟩
  · obtain ⟨steady, rest, rfl, none, first⟩ := split_steady s.bridge.logging later
    obtain ⟨_, _, events, new, kept, lost, kept', lost'⟩ := s.dropped_run none first
    have alike : s.bridge.logging.dropped.lines = s.bridge.logging.lines :=
      funext (Log.Logging.dropped_lines closed)
    rw [kept', lost', kept, lost, alike]
  · have forwards := after_forwards before (fun sink => absurd rfl sink) sink
    obtain ⟨_, _, events, new, _, lost, kept', lost'⟩ := s.dropped_run none first
    have silent : events.flatMap s.bridge.logging.dropped.lines = [] :=
      List.flatMap_eq_nil_iff.mpr fun event _ => Log.Logging.dropped_silent forwards event
    rw [silent, List.append_nil] at lost
    exact ⟨lost, new, kept', by rw [lost', lost]⟩

/-- A log that is configured for debugging. -/
def debugged : List Step :=
  [.configure .full (some "debug") none]

def creation : Step :=
  .registry "r" (.text "n") (.text "a") (.text "1.0.0") none true

/-- After a filter with a misspelt level a registry is made as before, and nothing is written of it.
The log is not configured anew by its profile alone, but by another filter. -/
theorem misspelt_configuration :
    let s := initial.after debugged
    let misspelt := Step.configure .full (some "nolevel") none
    let steady := [.configure .full none none, creation]
    let rest := [Step.configure .full (some "error") none]
    (s.perform misspelt).1 = .error .unknownLevel ∧ s.bridge.logging.sink ≠ none ∧
    (∀ step ∈ steady, ¬ step.Reconfigures s.bridge.logging) ∧
    (∀ step ∈ rest.head?, step.Reconfigures s.bridge.logging) ∧
    ((s.perform misspelt).2.after steady).bridge.lines = [] ∧
    (s.perform misspelt).2.answers (steady ++ rest) = s.answers (steady ++ rest) := by
  intro s misspelt steady rest
  have failed : (s.perform misspelt).1 = .error .unknownLevel := by rfl
  obtain ⟨k, sink⟩ : ∃ k, s.bridge.logging.sink = some k := ⟨_, by rfl⟩
  have sinking : s.bridge.logging.sink ≠ none := sink ▸ Option.some_ne_none k
  have none : ∀ step ∈ steady, ¬ step.Reconfigures s.bridge.logging :=
    List.forall_mem_cons.mpr
      ⟨fun anew => anew ⟨rfl, by rfl⟩, List.forall_mem_singleton.mpr id⟩
  have first : ∀ step ∈ rest.head?, step.Reconfigures s.bridge.logging := by
    rintro _ ⟨⟩ same
    exact Option.some_ne_none _ same.1
  obtain ⟨_, _, later, _, silent⟩ := failed_configuration failed
  obtain ⟨written, _⟩ := silent sinking steady rest none first
  exact ⟨failed, sinking, none, first, written.trans (by rfl), (later (steady ++ rest)).1⟩

/-- Without that filter a line is written of the registry. After it none is, not even where the
profile is configured again in between. -/
theorem misspelt_configuration_silences :
    let s := initial.after debugged
    let misspelt := Step.configure .full (some "nolevel") none
    let again := Step.configure .full none none
    (s.perform misspelt).1 = .error .unknownLevel ∧
    (s.after [again, creation]).bridge.lines = [.record "DEBUG" "lavendeux.extension"
      "extension.create name=n version=1.0.0 state=False"] ∧
    ((s.perform misspelt).2.after [creation]).bridge.lines = [] ∧
    ((s.perform misspelt).2.after [again, creation]).bridge.lines = [] := by
  intro s misspelt again
  let levels : Log.Filter := [("", some 10)]
  have logging : s.bridge.logging =
      { enabled := true, sink := some ⟨.full, levels⟩, forwarding := true,
        profile := some .full } := by rfl
  have reported : (s.after [again, creation]).bridge.lines = s.bridge.logging.report
      "lavendeux.extension" "extension.create name=n version=1.0.0 state=False" := by rfl
  have passes : levels.passes "lavendeux.extension" 10 = true := by
    have top : levels.deciding? [] = some (some 10) := by
      rw [Log.Filter.deciding?]
      rfl
    have library : levels.deciding? "lavendeux".toList = some (some 10) := by
      rw [Log.Filter.deciding?]
      exact top
    have module : levels.deciding? "lavendeux.extension".toList = some (some 10) := by
      rw [Log.Filter.deciding?]
      exact library
    rw [Log.Filter.passes, module]
    rfl
  refine ⟨by rfl, ?_, by rfl, by rfl⟩
  rw [reported, logging]
  simp only [Log.Logging.report, Log.Logging.write, Log.Sink.write, passes]
  rfl

end Session

end HostBridge
