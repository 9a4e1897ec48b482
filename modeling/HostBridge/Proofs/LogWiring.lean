import HostBridge.Proofs.LogConfiguration
import HostBridge.Proofs.NamedTables

namespace HostBridge

open Log (Logging Line)

namespace Log

/-- The log by its parts, each as it is kept. -/
structure Wiring where
  /-- Whether the records of the library are let through. -/
  enabled : Bool
  sinks : List Sink
  /-- How many handlers forward the records of the rest of the program. -/
  forwarders : Nat
  /-- The profile of the last configuration that succeeded. -/
  profile : Option Profile

namespace Event

def record : Event → Record
  | .library module message => ⟨10, module, message⟩
  | .other _ record => record

/-- Whether a logger drops a record before it comes to any handler. -/
def isDropped : Event → Bool
  | .library .. => false
  | .other least record => record.level < least

end Event

theorem Logging.Configured.eq {l : Logging} {profile : Profile} {text? default? : Option String}
    {result : Attempt Unit × Logging} (h : l.Configured profile text? default? result) :
    l.configure profile text? default? = result := by
  cases h with
  | skipped same => exact configure_repeated same
  | failed anew unknown =>
    unfold filter? at unknown
    rw [configure, if_neg (mt repeats_iff.mp anew)]
    simp only [unknown]
    rfl
  | replaced anew known =>
    unfold filter? at known
    rw [configure, if_neg (mt repeats_iff.mp anew)]
    simp only [known]

namespace Wiring

def initial : Wiring :=
  { enabled := false, sinks := [], forwarders := 0, profile := none }

/-- Puts a sink beside those there are, if its filter names only levels there are. -/
def addSink (w : Wiring) (profile : Profile) (text : FilterText) : Attempt Wiring :=
  match Filter.ofText? text with
  | none => .error .unknownLevel
  | some filter => .ok { w with sinks := w.sinks ++ [⟨profile, filter⟩] }

/-- Adds a handler that forwards records, unless there is one. -/
def addForwarder (w : Wiring) : Wiring :=
  if 0 < w.forwarders then w else { w with forwarders := w.forwarders + 1 }

/-- Configures the log in the order in which its parts are changed: all sinks are removed, the
library is let through, the new sink is added, and only then a handler, and the profile. -/
def configure (w : Wiring) (profile : Profile) (text? default? : Option String) :
    Attempt Unit × Wiring :=
  if text?.isNone && w.profile == some profile then (.ok (), w)
  else
    let text := (text?.orElse fun _ => default?).getD "info"
    let w := { w with sinks := [], enabled := true }
    match w.addSink profile (.ofText text) with
    | .error e => (.error e, w)
    | .ok w => (.ok (), { w.addForwarder with profile := some profile })

/-- The sinks that the record of an event comes to, each as often as it does. -/
def arrivals (w : Wiring) : Event → List Sink
  | .library .. => if w.enabled then w.sinks else []
  | .other least record =>
    if record.level < least then [] else (List.replicate w.forwarders w.sinks).flatten

/-- What is written of an event where nothing forwards it. -/
def unforwarded (w : Wiring) : Event → List Line
  | .library .. => []
  | .other least record =>
    if record.level < least ∨ 0 < w.forwarders ∨ record.level < 30 then []
    else [.bare record.message]

def lines (w : Wiring) (e : Event) : List Line :=
  w.unforwarded e ++ (w.arrivals e).flatMap (·.write e.record)

/-- The log that a wiring comes to where it holds one sink and one handler at most. -/
def view (w : Wiring) : Logging :=
  { enabled := w.enabled, sink := w.sinks.getLast?, forwarding := decide (0 < w.forwarders),
    profile := w.profile }

/-- What a configuration comes to: it is skipped, it fails and leaves no sink, or it leaves one. -/
inductive Configured (w : Wiring) (profile : Profile) (text? default? : Option String) :
    Attempt Unit × Wiring → Prop
  | skipped (same : w.view.Repeats profile text?) : Configured w profile text? default? (.ok (), w)
  | failed (anew : ¬ w.view.Repeats profile text?)
      (unknown : Logging.filter? text? default? = none) :
      Configured w profile text? default?
        (.error .unknownLevel, { w with sinks := [], enabled := true })
  | replaced {filter : Filter} (anew : ¬ w.view.Repeats profile text?)
      (known : Logging.filter? text? default? = some filter) :
      Configured w profile text? default? (.ok (),
        { enabled := true, sinks := [⟨profile, filter⟩], forwarders := max 1 w.forwarders,
          profile := some profile })

theorem configure_configured (w : Wiring) (profile : Profile) (text? default? : Option String) :
    w.Configured profile text? default? (w.configure profile text? default?) := by
  unfold configure
  split
  · rename_i same
    exact .skipped (Logging.repeats_iff.mp same)
  · rename_i anew
    have anew : ¬ w.view.Repeats profile text? := mt Logging.repeats_iff.mpr anew
    cases known : Logging.filter? text? default? with
    | none =>
      have refused := Configured.failed (w := w) anew known
      unfold Logging.filter? at known
      simpa only [addSink, known] using refused
    | some filter =>
      have added : addForwarder { w with sinks := [⟨profile, filter⟩], enabled := true } =
          { w with sinks := [⟨profile, filter⟩], enabled := true,
                   forwarders := max 1 w.forwarders } := by
        unfold addForwarder
        split
        · rename_i some
          rw [Nat.max_eq_right some]
        · rename_i none
          rw [Nat.eq_zero_of_not_pos none]
          rfl
      have replaced := Configured.replaced (w := w) anew known
      unfold Logging.filter? at known
      simp only [addSink, known, List.nil_append, added]
      exact replaced

/-- A wiring and the log that it comes to are configured alike. -/
theorem view_configure (w : Wiring) (profile : Profile) (text? default? : Option String) :
    w.view.configure profile text? default? =
      ((w.configure profile text? default?).1, (w.configure profile text? default?).2.view) := by
  have outcome := w.configure_configured profile text? default?
  generalize w.configure profile text? default? = result at outcome
  cases outcome with
  | skipped same => exact (Logging.Configured.skipped same).eq
  | failed anew unknown => exact (Logging.Configured.failed anew unknown).eq
  | replaced anew known =>
    have forwards : 0 < max 1 w.forwarders :=
      Nat.lt_of_lt_of_le Nat.zero_lt_one (Nat.le_max_left ..)
    rw [(Logging.Configured.replaced anew known).eq, view, decide_eq_true forwards]
    rfl

/-- There is one sink at most, and one handler that forwards. -/
structure Single (w : Wiring) : Prop where
  sinks : w.sinks.length ≤ 1
  forwarders : w.forwarders ≤ 1

theorem single_initial : initial.Single :=
  ⟨Nat.zero_le 1, Nat.zero_le 1⟩

theorem Single.configure {w : Wiring} (h : w.Single) (profile : Profile)
    (text? default? : Option String) : (w.configure profile text? default?).2.Single := by
  have outcome := w.configure_configured profile text? default?
  generalize w.configure profile text? default? = result at outcome
  cases outcome with
  | skipped => exact h
  | failed => exact ⟨Nat.zero_le 1, h.forwarders⟩
  | replaced => exact ⟨Nat.le_refl 1, Nat.max_le.mpr ⟨Nat.le_refl 1, h.forwarders⟩⟩

/-- What a wiring holds is then told by the log that it comes to. -/
theorem Single.sinks_eq {w : Wiring} (h : w.Single) : w.sinks = w.view.sink.toList := by
  obtain ⟨one, _⟩ := h
  cases held : w.sinks with
  | nil => simp [view, held]
  | cons sink sinks =>
    rw [held, List.length_cons] at one
    have none : sinks = [] := List.eq_nil_of_length_eq_zero (by omega)
    simp [view, held, none]

theorem Single.forwarders_eq {w : Wiring} (h : w.Single) :
    w.forwarders = if w.view.forwarding then 1 else 0 := by
  have one := h.forwarders
  by_cases some : 0 < w.forwarders
  · simp only [view, decide_eq_true some, if_true]
    omega
  · simp only [view, decide_eq_false some, Bool.false_eq_true, if_false]
    omega

theorem Single.arrivals_eq {w : Wiring} (h : w.Single) (e : Event) :
    w.arrivals e = match e with
      | .library .. => if w.view.enabled then w.view.sink.toList else []
      | .other least record =>
        if record.level < least then []
        else if w.view.forwarding then w.view.sink.toList else [] := by
  cases e with
  | library module message => rw [arrivals, h.sinks_eq]; rfl
  | other least record =>
    simp only [arrivals]
    rw [h.sinks_eq, h.forwarders_eq]
    cases w.view.forwarding <;> simp

/-- Such a wiring writes what the log writes that it comes to. -/
theorem Single.lines_eq {w : Wiring} (h : w.Single) (e : Event) : w.lines e = w.view.lines e := by
  have written (r : Record) : w.view.write r = w.view.sink.toList.flatMap (·.write r) := by
    unfold Logging.write
    cases w.view.sink <;> simp
  have arrived := h.arrivals_eq e
  cases e with
  | library module message =>
    rw [lines, arrived, Logging.lines, Logging.report, written]
    cases w.view.enabled <;> rfl
  | other least record =>
    rw [lines, arrived, unforwarded, Logging.lines, Logging.forward, written]
    by_cases low : record.level < least
    · simp [low]
    · by_cases some : 0 < w.forwarders
      · simp [low, some, view, Event.record]
      · by_cases quiet : record.level < 30 <;> simp [low, some, quiet, view]

end Wiring

/-- A call that asks to configure the log. -/
structure ConfigureCall where
  profile : Profile
  text? : Option String
  default? : Option String
  /-- Whether it does more than repeat the remembered profile without a filter text. -/
  effective : Bool
  /-- Whether it answers without a failure. -/
  succeeded : Bool

namespace ConfigureCall

/-- The filter that it asks for, if there are the levels that it names. -/
def filter? (c : ConfigureCall) : Option Filter :=
  Logging.filter? c.text? c.default?

def sink? (c : ConfigureCall) : Option Sink :=
  c.filter?.map (Sink.mk c.profile)

def lastEffective? (calls : List ConfigureCall) : Option ConfigureCall :=
  (calls.filter (·.effective)).getLast?

def lastSuccess? (calls : List ConfigureCall) : Option ConfigureCall :=
  (calls.filter fun c => c.effective && c.succeeded).getLast?

theorem lastEffective_append (calls : List ConfigureCall) (c : ConfigureCall) :
    lastEffective? (calls ++ [c]) = if c.effective then some c else lastEffective? calls := by
  rw [lastEffective?, getLast?_filter_append_singleton]
  rfl

theorem lastSuccess_append (calls : List ConfigureCall) (c : ConfigureCall) :
    lastSuccess? (calls ++ [c]) =
      if c.effective && c.succeeded then some c else lastSuccess? calls := by
  rw [lastSuccess?, getLast?_filter_append_singleton]
  rfl

end ConfigureCall

namespace Logging

open ConfigureCall (lastEffective? lastSuccess? lastEffective_append lastSuccess_append sink?)

variable {l : Logging} {calls : List ConfigureCall}

instance (l : Logging) (profile : Profile) (text? : Option String) :
    Decidable (l.Repeats profile text?) :=
  inferInstanceAs (Decidable (_ ∧ _))

/-- What a log makes of a call that asks to configure it. -/
def configuration (l : Logging) (profile : Profile) (text? default? : Option String) :
    ConfigureCall :=
  { profile, text?, default?
    effective := !decide (l.Repeats profile text?)
    succeeded := (l.configure profile text? default?).1.isOk }

/-- A log is what the configurations of a run have made of it. -/
structure Reflects (l : Logging) (calls : List ConfigureCall) : Prop where
  enabled : l.enabled = (lastEffective? calls).isSome
  sink : l.sink = (lastEffective? calls).bind sink?
  forwarding : l.forwarding = calls.any (·.succeeded)
  profile : l.profile = (lastSuccess? calls).map (·.profile)
  outcome : ∀ c ∈ lastEffective? calls, c.succeeded = c.sink?.isSome

theorem reflects_initial : initial.Reflects [] :=
  ⟨rfl, rfl, rfl, rfl, fun _ none => by cases none⟩

/-- Where a profile is remembered, a configuration has succeeded. -/
theorem Reflects.forwards (h : l.Reflects calls) {profile : Profile}
    (remembered : l.profile = some profile) : l.forwarding = true := by
  rw [h.profile] at remembered
  obtain ⟨c, last, _⟩ := Option.map_eq_some_iff.mp remembered
  obtain ⟨member, succeeded⟩ := List.mem_filter.mp (List.mem_of_getLast? last)
  rw [h.forwarding, List.any_eq_true]
  exact ⟨c, member, (Bool.and_eq_true_iff.mp succeeded).2⟩

/-- A call that is skipped leaves the log as it is, and has found one before it that succeeded. -/
theorem Reflects.skipped (h : l.Reflects calls) {c : ConfigureCall}
    (skipped : c.effective = false) (forwards : l.forwarding = true) :
    l.Reflects (calls ++ [c]) := by
  have last : lastEffective? (calls ++ [c]) = lastEffective? calls := by
    simp [lastEffective_append, skipped]
  constructor
  · rw [last, h.enabled]
  · rw [last, h.sink]
  · rw [List.any_append, ← h.forwarding, forwards, Bool.true_or]
  · rw [h.profile, lastSuccess_append, skipped]
    rfl
  · rw [last]
    exact h.outcome

theorem Reflects.dropped (h : l.Reflects calls) {c : ConfigureCall}
    (effective : c.effective = true) (failed : c.succeeded = false) (none : c.sink? = none) :
    l.dropped.Reflects (calls ++ [c]) := by
  have last : lastEffective? (calls ++ [c]) = some c := by
    simp [lastEffective_append, effective]
  constructor
  · rw [last]
    rfl
  · rw [last, Option.bind_some, none]
    rfl
  · rw [List.any_append, ← h.forwarding, List.any_cons, failed]
    simp [Logging.dropped]
  · rw [lastSuccess_append, failed, Bool.and_false]
    exact h.profile
  · rw [last]
    rintro _ ⟨⟩
    rw [failed, none]
    rfl

/-- After a configuration that succeeds it does not matter what the log was. -/
theorem reflects_replaced {c : ConfigureCall} {sink : Sink} {profile : Profile}
    (effective : c.effective = true) (succeeded : c.succeeded = true) (made : c.sink? = some sink)
    (named : c.profile = profile) :
    Reflects { enabled := true, sink := some sink, forwarding := true, profile := some profile }
      (calls ++ [c]) := by
  have last : lastEffective? (calls ++ [c]) = some c := by
    simp [lastEffective_append, effective]
  constructor
  · rw [last]
    rfl
  · rw [last, Option.bind_some, made]
  · rw [List.any_append, List.any_cons, succeeded, Bool.true_or, Bool.or_true]
  · rw [lastSuccess_append, effective, succeeded, ← named]
    rfl
  · rw [last]
    rintro _ ⟨⟩
    rw [succeeded, made]
    rfl

/-- The log keeps reflecting the calls when it is configured once more. -/
theorem Reflects.configure (h : l.Reflects calls) (profile : Profile)
    (text? default? : Option String) :
    (l.configure profile text? default?).2.Reflects
      (calls ++ [l.configuration profile text? default?]) := by
  have outcome := l.configure_configured profile text? default?
  unfold configuration
  generalize l.configure profile text? default? = result at outcome
  cases outcome with
  | skipped same =>
    exact h.skipped (by simpa using same) (h.forwards same.2)
  | failed anew unknown =>
    refine h.dropped (by simpa using anew) rfl ?_
    rw [sink?, ConfigureCall.filter?, unknown]
    rfl
  | replaced anew known =>
    refine reflects_replaced ?_ rfl ?_ rfl
    · simpa using anew
    · rw [sink?, ConfigureCall.filter?, known]
      rfl

/-- Where there is a sink, records of the library are let through and others are forwarded. -/
theorem Reflects.opened (h : l.Reflects calls) {sink : Sink} (held : l.sink = some sink) :
    l.enabled = true ∧ l.forwarding = true := by
  rw [h.sink] at held
  obtain ⟨c, last, made⟩ := Option.bind_eq_some_iff.mp held
  have succeeded : c.succeeded = true := by rw [h.outcome c last, made]; rfl
  have member : c ∈ calls := (List.mem_filter.mp (List.mem_of_getLast? last)).1
  constructor
  · rw [h.enabled, last]
    rfl
  · rw [h.forwarding, List.any_eq_true]
    exact ⟨c, member, succeeded⟩

/-- There is a sink exactly if the last effective configuration has succeeded. -/
theorem Reflects.sink_iff (h : l.Reflects calls) :
    l.sink.isSome = true ↔ ∃ c ∈ lastEffective? calls, c.succeeded = true := by
  rw [h.sink]
  cases last : lastEffective? calls with
  | none => simp
  | some c => simp [h.outcome c last]

end Logging

open ConfigureCall in
/-- Where a record comes to is told by the last configuration that was effective. -/
theorem Wiring.Single.arrivals_last {w : Wiring} (single : w.Single)
    {calls : List ConfigureCall} (h : w.view.Reflects calls) (e : Event) :
    w.arrivals e = if e.isDropped then [] else ((lastEffective? calls).bind sink?).toList := by
  rw [single.arrivals_eq, ← h.sink]
  cases held : w.view.sink with
  | none => cases e <;> simp
  | some sink =>
    obtain ⟨enabled, forwarding⟩ := h.opened held
    cases e <;> simp [enabled, forwarding, Event.isDropped]

end Log

namespace Log.Wiring

def perform (w : Wiring) : Step → Wiring
  | .configure profile text? default? => (w.configure profile text? default?).2
  | _ => w

/-- A wiring after the configurations among some steps. -/
def after (w : Wiring) (steps : List Step) : Wiring :=
  steps.foldl perform w

theorem Single.after {w : Wiring} (h : w.Single) (steps : List Step) : (w.after steps).Single := by
  induction steps generalizing w with
  | nil => exact h
  | cons step steps ih =>
    refine ih ?_
    cases step with
    | configure profile text? default? => exact h.configure profile text? default?
    | _ => exact h

end Log.Wiring

namespace Session

/-- What a step asks of the log, if it is a configuration. -/
def configuration? (s : Session) : Step → Option Log.ConfigureCall
  | .configure profile text? default? =>
    some (s.bridge.logging.configuration profile text? default?)
  | _ => none

/-- The configurations of a run, the skipped ones and those that fail among them. -/
def configurations (s : Session) : List Step → List Log.ConfigureCall
  | [] => []
  | step :: steps => (s.configuration? step).toList ++ configurations (s.perform step).2 steps

theorem perform_reflects {s : Session} {calls : List Log.ConfigureCall}
    (h : s.bridge.logging.Reflects calls) (step : Step) :
    (s.perform step).2.bridge.logging.Reflects (calls ++ (s.configuration? step).toList) := by
  rcases configures_or_not step with ⟨profile, text?, default?, rfl⟩ | other
  · exact h.configure profile text? default?
  · have none : s.configuration? step = none := by
      cases step with
      | configure profile text? default? => exact absurd rfl (other profile text? default?)
      | _ => rfl
    rw [none, Option.toList_none, List.append_nil, s.perform_logging other]
    exact h

theorem after_reflects {s : Session} {calls : List Log.ConfigureCall}
    (h : s.bridge.logging.Reflects calls) (steps : List Step) :
    (s.after steps).bridge.logging.Reflects (calls ++ s.configurations steps) := by
  induction steps generalizing s calls with
  | nil => rwa [configurations, List.append_nil]
  | cons step steps ih =>
    rw [configurations, ← List.append_assoc]
    exact ih (perform_reflects h step)

theorem after_view {s : Session} {w : Log.Wiring} (same : w.view = s.bridge.logging)
    (steps : List Step) : (w.after steps).view = (s.after steps).bridge.logging := by
  induction steps generalizing s w with
  | nil => exact same
  | cons step steps ih =>
    refine ih ?_
    rcases configures_or_not step with ⟨profile, text?, default?, rfl⟩ | other
    · have configured := w.view_configure profile text? default?
      rw [same] at configured
      exact (congrArg Prod.snd configured).symm
    · rw [s.perform_logging other]
      cases step with
      | configure profile text? default? => exact absurd rfl (other profile text? default?)
      | _ => exact same

/-- A step writes the lines of the events that come with it. -/
theorem perform_lines (s : Session) (step : Step) :
    ∃ events : List Log.Event, (s.perform step).2.bridge.lines =
      s.bridge.lines ++ events.flatMap s.bridge.logging.lines := by
  rcases configures_or_not step with ⟨profile, text?, default?, rfl⟩ | other
  · exact ⟨[], (List.append_nil _).symm⟩
  · obtain ⟨a, t, events, after⟩ := s.perform_emits step other
    have here : s.perform step = _ := after s.bridge.logging s.bridge.lines rfl
    exact ⟨events, by rw [here]; rfl⟩

open Log.ConfigureCall in
/-- After any steps of a session there is one sink at most. There is one exactly if the last
configuration that was effective has succeeded, and it has the profile and the filter of that one.
Records are forwarded by one handler if any configuration has succeeded, and by none otherwise; the
remembered profile is that of the last effective one that succeeded. So every record comes to one
sink at most, and to which is told by the last effective configuration alone. The session has the
log of this wiring, and writes the lines of it. -/
theorem last_configuration_decides (steps : List Step) :
    let s := initial.after steps
    let w := Log.Wiring.initial.after steps
    let calls := initial.configurations steps
    w.view = s.bridge.logging ∧
    w.sinks.length ≤ 1 ∧
    (w.sinks.length = 1 ↔ ∃ c ∈ lastEffective? calls, c.succeeded = true) ∧
    (∀ sink ∈ w.sinks, ∃ c ∈ lastEffective? calls,
      sink.profile = c.profile ∧ c.filter? = some sink.filter) ∧
    w.forwarders = (if calls.any (·.succeeded) then 1 else 0) ∧
    w.profile = (lastSuccess? calls).map (·.profile) ∧
    (∀ e, (w.arrivals e).length ≤ 1 ∧
      w.arrivals e = (if e.isDropped then [] else ((lastEffective? calls).bind sink?).toList) ∧
      s.bridge.logging.lines e = w.lines e) ∧
    ∀ step, ∃ events : List Log.Event,
      (s.perform step).2.bridge.lines = s.bridge.lines ++ events.flatMap w.lines := by
  intro s w calls
  have view : w.view = s.bridge.logging := after_view rfl steps
  have single : w.Single := Log.Wiring.single_initial.after steps
  have reflects : w.view.Reflects calls := by
    rw [view]
    exact after_reflects (s := initial) Log.Logging.reflects_initial steps
  have sinks : w.sinks = ((lastEffective? calls).bind sink?).toList := by
    rw [single.sinks_eq, reflects.sink]
  have lines (e : Log.Event) : s.bridge.logging.lines e = w.lines e := by
    rw [single.lines_eq, view]
  refine ⟨view, single.sinks, ?_, ?_, ?_, reflects.profile, fun e => ⟨?_, ?_, lines e⟩, ?_⟩
  · rw [sinks, ← reflects.sink, ← reflects.sink_iff]
    cases w.view.sink <;> simp
  · intro sink held
    rw [sinks, Option.mem_toList, Option.bind_eq_some_iff] at held
    obtain ⟨c, last, made⟩ := held
    obtain ⟨filter, known, rfl⟩ := Option.map_eq_some_iff.mp made
    exact ⟨c, last, rfl, known⟩
  · rw [single.forwarders_eq, reflects.forwarding]
  · rw [single.arrivals_last reflects]
    split
    · exact Nat.zero_le 1
    · exact Option.length_toList_le
  · exact single.arrivals_last reflects e
  · intro step
    obtain ⟨events, written⟩ := s.perform_lines step
    rw [funext lines] at written
    exact ⟨events, written⟩

/-- A configuration that fails is effective, and leaves no sink to the one after it, which is
skipped. A record of another module comes to nothing then, and again to one sink after one for
another profile, by which its one handler is kept. -/
theorem lost_and_regained :
    let lost : List Step := [.configure .full (some "debug") none,
      .configure .full (some "nolevel") none, .configure .full none none]
    let regained := lost ++ [.configure .console (some "error") none]
    let event := Log.Event.other 10 ⟨40, "app.jobs", "late"⟩
    let wiring (steps : List Step) := Log.Wiring.initial.after steps
    (initial.configurations regained).map (fun c => (c.effective, c.succeeded)) =
      [(true, true), (true, false), (false, true), (true, true)] ∧
    (wiring lost).sinks.length ≠ 1 ∧ (wiring lost).arrivals event = [] ∧
    (wiring lost).forwarders = 1 ∧ (wiring lost).profile = some .full ∧
    (wiring regained).arrivals event = [⟨.console, [("", some 40)]⟩] ∧
    (wiring regained).forwarders = 1 ∧ (wiring regained).profile = some .console := by
  intro lost regained event wiring
  obtain ⟨_, _, sink, _, handler, profile, arrives, _⟩ := last_configuration_decides lost
  obtain ⟨_, _, _, _, handler', profile', arrives', _⟩ := last_configuration_decides regained
  have failed : ¬ ∃ c ∈ Log.ConfigureCall.lastEffective? (initial.configurations lost),
      c.succeeded = true := by
    rintro ⟨_, ⟨⟩, succeeded⟩
    cases succeeded
  exact ⟨by rfl, mt sink.mp failed, (arrives event).2.1.trans (by rfl), handler.trans (by rfl),
    profile.trans (by rfl), (arrives' event).2.1.trans (by rfl), handler'.trans (by rfl),
    profile'.trans (by rfl)⟩

end Session

end HostBridge
