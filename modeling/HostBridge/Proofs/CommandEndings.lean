import HostBridge.Proofs.CommandCall
import HostBridge.Proofs.JsonLimit
import HostBridge.Proofs.WireGrammar

namespace HostBridge.CommandLine

/-- Arguments are read as a list or refused, unless they hold a long run of digits. -/
theorem readArguments_cases (text : String) :
    (∃ args, readArguments text = .ok args ∧ Json.read text = .ok (.list args)) ∨
      (∃ message, readArguments text = .error (.refused (.badParameter message))) ∨
      readArguments text = .error (.failed .tooManyDigits) ∧ Json.LongRun text.toList := by
  unfold readArguments
  cases read : Json.read text with
  | error e =>
    cases e with
    | syntaxError => exact .inr (.inl ⟨_, rfl⟩)
    | tooManyDigits => exact .inr (.inr ⟨rfl, Json.read_limit read⟩)
  | ok v =>
    cases v with
    | list args => exact .inl ⟨args, rfl, rfl⟩
    | null | bool | int | float | text | bytes | tuple | table => exact .inr (.inl ⟨_, rfl⟩)

theorem printable_short {r : Native} (h : r.Everywhere Printable) : r.Short := by
  refine h.imp₂ (fun v printable _ => ?_) h
  cases v with
  | int n => exact printable
  | null | bool | float | text | bytes | list | tuple | table => trivial

/-- The proper endings of a call, by what it came to. The lines of the log stand before the message
in each. -/
inductive Ends (name : String) (log : List String) : Attempt Native → Ending → Prop
  | printed {r : Native} {line : String} (printable : r.Everywhere Printable)
      (written : Json.write Json.spaced r = .ok line) :
      Ends name log (.ok r) (.exit 0 (line ++ "\n") log)
  | reported {e : Failure} {message : String} (host : e.hostMessage? = some message) :
      Ends name log (.error e) (.exit 1 "" (log ++ [echoed message]))
  | withheld {r : Native} {shown : String} (unprintable : ¬ r.Everywhere Printable)
      (display : r.display? = some shown) :
      Ends name log (.ok r) (.exit 1 ""
        (log ++ [echoed s!"{name} returned {shown}, which has no JSON form"]))

variable {g : Bridge} {name : String} {r : Native}

theorem report_short (usable : r.Everywhere Tagged.Usable) (short : r.Short) :
    Ends name (errorLines g.lines) (.ok r) (report g name (.ok r)).1 := by
  cases written : Json.write Json.spaced r with
  | ok line =>
    have printable := (write_printable usable).mp ⟨line, written⟩
    simp only [report, written, finish, List.append_nil]
    exact .printed printable written
  | error e =>
    obtain ⟨shown, display⟩ := Native.display_iff.mpr short
    simp only [report, written, display, finish]
    refine .withheld (fun printable => ?_) display
    obtain ⟨line, done⟩ := (write_printable usable).mpr printable
    cases written.symm.trans done

theorem report_long (usable : r.Everywhere Tagged.Usable) (long : ¬ r.Short) :
    (report g name (.ok r)).1 = .failed .tooManyDigits := by
  have undisplayed : r.display? = none := by
    rw [Option.eq_none_iff_forall_not_mem]
    intro shown display
    exact long (Native.display_iff.mp ⟨shown, display⟩)
  cases written : Json.write Json.spaced r with
  | ok line =>
    have printable := (write_printable usable).mp ⟨line, written⟩
    exact absurd (printable_short printable) long
  | error e => simp only [report, written, undisplayed]

/-- A call whose arguments are not read ends as reading them does. -/
theorem run_unread {modules : Modules} {environment option : Option String} {argv : List String}
    {target text : String} {registry : Nat} {e : Ending}
    (parsed : parseCommand argv = .ok (.call target name text, option))
    (configured : (g.configure .console (option.orElse fun _ => environment.filter (!·.isEmpty))
      environment).1 = .ok ())
    (found : load g modules target = .ok registry) (unread : readArguments text = .error e) :
    (run g modules environment argv).1 = e := by
  obtain ⟨logging, configured⟩ := Bridge.configure_relogged configured
  have again : load (g.relogged logging g.lines) modules target = .ok registry := found
  simp only [run, parsed, configured, call, again, unread]
  rfl

/-- For each command line that is a call of a binding in a registry that is found, once the log is
configured: the arguments are read, refused, or hold a long run of digits, and what refuses them
ends the call. With arguments that are read the answer is the one within the process, and the call
ends properly where the bridge refuses it or where all whole numbers of the answer keep to the digit
limit. Any other answer stops the command. -/
theorem call_endings {modules : Modules} {environment option : Option String} {argv : List String}
    {target text : String} {registry : Nat}
    (parsed : parseCommand argv = .ok (.call target name text, option))
    (configured : (g.configure .console (option.orElse fun _ => environment.filter (!·.isEmpty))
      environment).1 = .ok ())
    (found : load g modules target = .ok registry) :
    let ran := run g modules environment argv
    (∀ raw, (∃ args, readArguments raw = .ok args ∧ Json.read raw = .ok (.list args)) ∨
      (∃ message, readArguments raw = .error (.refused (.badParameter message))) ∨
      readArguments raw = .error (.failed .tooManyDigits) ∧ Json.LongRun raw.toList) ∧
    (∀ e, readArguments text = .error e → ran.1 = e) ∧
    ∀ args, readArguments text = .ok args →
      let called := (g.callWire registry (.text name) (args.map .wire)).1
      (∀ e message, called = .error e → e.hostMessage? = some message →
        Ends name (errorLines ran.2.lines) called ran.1) ∧
      ∀ r, called = .ok r → (r.Short → Ends name (errorLines ran.2.lines) called ran.1) ∧
        (¬ r.Short → ran.1 = .failed .tooManyDigits) := by
  intro ran
  refine ⟨readArguments_cases, fun e unread => ?_, fun args read => ?_⟩
  · exact run_unread parsed configured found unread
  · intro called
    obtain ⟨logging, reported⟩ := run_reported parsed configured found read
    have same : _ = called :=
      (g.callWire_relogged logging g.lines registry (.text name) (args.map .wire)).1
    have ended : ran = report _ name called := same ▸ reported
    rw [ended, report_stores]
    refine ⟨fun e message failed host => ?_, fun r answered => ⟨fun short => ?_, fun long => ?_⟩⟩
    · rw [failed, report_refused host]
      exact .reported host
    · rw [answered]
      exact report_short (Bridge.callWire_usable answered) short
    · rw [answered]
      exact report_long (Bridge.callWire_usable answered) long

/-- With a log filter in the environment, an infinite result is withheld with a message, and a name
that nothing is registered under is reported. -/
theorem sample_call_endings :
    let g := sample.bridge
    let argv := fun name => ["call", "ext:r", name, "[]"]
    let ending := fun name => (run g sampleModules (some "error") (argv name)).1
    (∀ name ∈ ["lavendeuxfunction_far", "far"],
      parseCommand (argv name) = .ok (.call "ext:r" name "[]", none)) ∧
    (g.configure .console (some "error") (some "error")).1 = .ok () ∧
    load g sampleModules "ext:r" = .ok 0 ∧
    (∃ log, ending "lavendeuxfunction_far" = .exit 1 "" (log ++
      ["lavendeuxfunction_far returned \x7b'Float': inf\x7d, which has no JSON form"])) ∧
    ∃ log, ending "far" = .exit 1 "" (log ++ ["No function or decorator registered as far"]) := by
  intro g argv ending
  have parsed (name : String) (nameWord : name.toList.head? ≠ some '-') :
      parseCommand (argv name) = .ok (.call "ext:r" name "[]", none) :=
    parseCommand_call (by decide) nameWord (by decide)
  have configured : (g.configure .console (some "error") (some "error")).1 = .ok () := by rfl
  have found : load g sampleModules "ext:r" = .ok 0 := by rfl
  have empty : readArguments "[]" = .ok [] := by rfl
  refine ⟨by simpa using ⟨parsed _ (by decide), parsed _ (by decide)⟩, configured, found, ?_, ?_⟩
  · obtain ⟨_, _, called⟩ := @call_endings g "lavendeuxfunction_far" sampleModules (some "error")
      none _ _ _ _ (parsed _ (by decide)) configured found
    have answered : (g.callWire 0 (.text "lavendeuxfunction_far") []).1 =
        .ok (.table [(.text "Float", .float (.infinite false))]) := by rfl
    have short : (Native.table [(.text "Float", .float (.infinite false))]).Short :=
      .ofEntry trivial (.leaf trivial rfl) (.leaf trivial rfl)
    have ends : Ends "lavendeuxfunction_far" _ (.ok _) (ending "lavendeuxfunction_far") :=
      answered ▸ ((called [] empty).2 _ answered).1 short
    generalize ending "lavendeuxfunction_far" = e at ends ⊢
    cases ends with
    | printed printable => exact (printable.entry (List.mem_singleton_self _)).2.here.elim
    | withheld _ display =>
      cases display
      exact ⟨_, by rfl⟩
  · obtain ⟨_, _, called⟩ := @call_endings g "far" sampleModules (some "error")
      none _ _ _ _ (parsed _ (by decide)) configured found
    have failed : (g.callWire 0 (.text "far") []).1 = .error (.unknownBinding (.text "far")) := by
      rfl
    have ends : Ends "far" _ (.error _) (ending "far") :=
      failed ▸ (called [] empty).1 _ _ failed rfl
    generalize ending "far" = e at ends ⊢
    cases ends with
    | reported host =>
      cases host
      exact ⟨_, by rfl⟩

/-- A registry with a function that answers a number. -/
def holding (n : Int) : Session :=
  Session.initial.after
    [ .registry "r" (.text "n") (.text "a") (.text "1.0.0") none true,
      .add "big" "r" .function (.text "big") (.text "") (.ofFunction fun _ => .ok (.int n)) ]

/-- A list of too many ones is neither read nor refused. Where a function answers a number over the
digit limit, a call of it is stopped. -/
theorem holding_stops {n : Int} (long : tooLarge ≤ n.natAbs) {ones : List Char}
    (same : ones = List.replicate (digitLimit + 1) '1') :
    let g := (holding n).bridge
    let modules : Modules := [("ext", (holding n).registries)]
    readArguments (String.ofList ('[' :: (ones ++ [']']))) = .error (.failed .tooManyDigits) ∧
    load g modules "ext:r" = .ok 0 ∧
    (g.callWire 0 (.text "lavendeuxfunction_big") []).1 =
      .ok (.table [(.text "Integer", .int n)]) ∧
    (run g modules none ["call", "ext:r", "lavendeuxfunction_big", "[]"]).1 =
      .failed .tooManyDigits := by
  intro g modules
  have whole : Json.IsWhole ones := by
    rw [same]
    refine ⟨fun c hc => ?_, .inr ⟨'1', List.replicate digitLimit '1', rfl, by decide⟩⟩
    rw [List.eq_of_mem_replicate hc]
    rfl
  have exceeds : digitLimit < ones.length := by
    rw [same, List.length_replicate]
    exact Nat.lt_succ_self _
  have found : load g modules "ext:r" = .ok 0 := by rfl
  have answered : (g.callWire 0 (.text "lavendeuxfunction_big") []).1 =
      .ok (.table [(.text "Integer", .int n)]) := by rfl
  have empty : Json.read "[]" = .ok (.list []) := by rfl
  refine ⟨by rw [readArguments, Json.read_longItem whole exceeds], found, answered, ?_⟩
  obtain ⟨logging, reported⟩ :=
    @run_call g modules "ext:r" "lavendeuxfunction_big" "[]" 0 [] found (by decide) (by decide)
      empty
  have usable := Bridge.callWire_usable answered
  have unshort : ¬ (Native.table [(.text "Integer", .int n)]).Short := fun short =>
    Nat.not_lt.mpr long (short.entry (List.mem_singleton_self _)).2.here
  have called := (g.callWire_relogged logging g.lines 0 (.text "lavendeuxfunction_big") []).1
  rw [reported]
  exact (congrArg (fun a => (report _ _ a).1) (called.trans answered)).trans
    (report_long usable unshort)

/-- The least number over the digit limit, as an argument and as an answer. -/
theorem long_numbers_stop :
    let ones := List.replicate (digitLimit + 1) '1'
    let g := (holding tooLarge).bridge
    let modules : Modules := [("ext", (holding tooLarge).registries)]
    readArguments (String.ofList ('[' :: (ones ++ [']']))) = .error (.failed .tooManyDigits) ∧
    load g modules "ext:r" = .ok 0 ∧
    (g.callWire 0 (.text "lavendeuxfunction_big") []).1 =
      .ok (.table [(.text "Integer", .int tooLarge)]) ∧
    (run g modules none ["call", "ext:r", "lavendeuxfunction_big", "[]"]).1 =
      .failed .tooManyDigits :=
  holding_stops (n := tooLarge) (Nat.le_of_eq (Int.natAbs_natCast _).symm) rfl

end HostBridge.CommandLine
