import HostBridge.CommandLine
import HostBridge.Proofs.JsonText
import HostBridge.Proofs.Kinds
import HostBridge.Proofs.LogIndependence

namespace HostBridge

namespace Tagged

theorem itemsToWire_eq_map (ts : List Tagged) : itemsToWire ts = ts.map toWire := by
  induction ts with
  | nil => rfl
  | cons t ts ih => rw [itemsToWire, ih, List.map_cons]

theorem pairsToWire_eq_map (ps : List (Tagged × Tagged)) :
    pairsToWire ps = ps.map fun e => .list [e.1.toWire, e.2.toWire] := by
  induction ps with
  | nil => rfl
  | cons e ps ih => rw [pairsToWire, ih, List.map_cons]

/-- A value that is in JSON texts, and no NaN. -/
def Usable (v : Native) : Prop :=
  Json.Formed v ∧ ∀ object, v ≠ .float (.nan object)

theorem usable_formed {v : Native} (h : v.Everywhere Usable) : v.Everywhere Json.Formed :=
  h.imp₂ (fun _ usable _ => usable.1) h

theorem usable_payload {tag : ScalarTag} {payload : Native} (h : tag.Holds payload) :
    payload.Everywhere Usable := by
  cases payload with
  | int | text | bool => exact .leaf ⟨trivial, nofun⟩ rfl
  | float x =>
    have number : x.isNaN = false := by
      cases tag with
      | float => exact h.1
      | _ => exact h.elim
    refine .leaf ⟨trivial, fun object same => ?_⟩ rfl
    rw [Native.float.inj same] at number
    cases number
  | null | bytes | list | tuple | table => cases tag <;> exact h.elim

theorem usable_list {items : List Native} (h : ∀ v ∈ items, v.Everywhere Usable) :
    (Native.list items).Everywhere Usable :=
  .node ⟨trivial, nofun⟩ h

theorem usable_entry (tag : String) {payload : Native} (h : payload.Everywhere Usable) :
    (Native.table [(.text tag, payload)]).Everywhere Usable := by
  refine .ofEntry ⟨⟨?_, List.pairwise_singleton _ _⟩, nofun⟩ (.leaf ⟨trivial, nofun⟩ rfl) h
  exact List.forall_mem_singleton.mpr ⟨tag, rfl⟩

/-- Payloads that fit their tags are JSON values, so the wire form is one. -/
theorem toWire_usable {t : Tagged} (shape : t.ShapeNormal) : t.toWire.Everywhere Usable := by
  unfold ShapeNormal at shape
  induction shape with
  | scalar here => exact usable_entry _ (usable_payload here)
  | array here parts ih =>
    rw [toWire, itemsToWire_eq_map]
    exact usable_entry _ (usable_list (List.forall_mem_map.mpr ih))
  | object here keys values ihk ihv =>
    rw [toWire, pairsToWire_eq_map]
    refine usable_entry _ (usable_list (List.forall_mem_map.mpr fun e he => ?_))
    exact usable_list
      (List.forall_mem_cons.mpr ⟨ihk e he, List.forall_mem_singleton.mpr (ihv e he)⟩)

end Tagged

namespace Bridge

open Log (Logging Line)

/-- A call writes to the log before it runs, and answers what the binding answers. -/
theorem call_found {g : Bridge} {registry id : Nat} {target : Native}
    (found : g.find registry target = .ok id) (args : List Incoming) :
    (g.call registry target args).1 = (g.invoke id args).1 := by
  simp only [call, found]
  exact (Emits.congr (invoke_emits · id args) (report_quiet g _ _)).1

theorem callWire_relogged (g : Bridge) (logging : Logging) (lines : List Line) (registry : Nat)
    (target : Native) (args : List Incoming) :
    ((g.relogged logging lines).callWire registry target args).1 =
        (g.callWire registry target args).1 ∧
      ((g.relogged logging lines).callWire registry target args).2.stores =
        (g.callWire registry target args).2.stores := by
  obtain ⟨written, called⟩ := (g.call_emits registry target args).relogged logging lines
  simp only [callWire, called, true_and]
  rfl

/-- A configuration leaves all but the log alone. -/
theorem configure_relogged {g : Bridge} {profile : Log.Profile} {text? default? : Option String}
    (configured : (g.configure profile text? default?).1 = .ok ()) :
    ∃ logging, g.configure profile text? default? = (.ok (), g.relogged logging g.lines) :=
  ⟨(g.logging.configure profile text? default?).2, Prod.ext configured rfl⟩

theorem configure_console (g : Bridge) : (g.configure .console none none).1 = .ok () := by
  have done : (g.logging.configure .console none none).1 = .ok () := by
    unfold Logging.configure
    split <;> rfl
  exact done

theorem run_shapeNormal {g : Bridge} {b : Binding} {args : List Incoming} {t : Tagged}
    (answered : (g.run b args).1 = .ok t) : t.ShapeNormal := by
  obtain ⟨left, outcome, _⟩ := g.run_outcome b args
  rw [answered] at outcome
  exact outcome.yielded.2.1

theorem invoke_shapeNormal {g : Bridge} {id : Nat} {args : List Incoming} {t : Tagged}
    (answered : (g.invoke id args).1 = .ok t) : t.ShapeNormal := by
  unfold invoke at answered
  split at answered
  · cases answered
  · exact run_shapeNormal answered

/-- What a call answers is a JSON value without NaN. -/
theorem callWire_usable {g : Bridge} {registry : Nat} {target : Native} {args : List Incoming}
    {r : Native} (answered : (g.callWire registry target args).1 = .ok r) :
    r.Everywhere Tagged.Usable := by
  cases found : g.find registry target with
  | error e =>
    simp only [callWire, call, found] at answered
    cases answered
  | ok id =>
    simp only [callWire, call_found found args] at answered
    cases invoked : (g.invoke id args).1 with
    | error e =>
      rw [invoked] at answered
      cases answered
    | ok t =>
      rw [invoked] at answered
      cases answered
      exact Tagged.toWire_usable (invoke_shapeNormal invoked)

end Bridge

theorem Text.dropCommands_self {cs : List Char} (plain : '\x1b' ∉ cs) {n : Nat}
    (enough : cs.length ≤ n) : Text.dropCommands n cs = cs := by
  induction cs generalizing n with
  | nil => cases n <;> rfl
  | cons c cs ih =>
    obtain ⟨first, others⟩ := not_or.mp (mt List.mem_cons.mpr plain)
    obtain ⟨m, rfl⟩ := Nat.exists_eq_succ_of_ne_zero (Nat.ne_zero_of_lt enough)
    rw [Text.dropCommands, ih others (Nat.le_of_succ_le_succ enough)]
    rintro rest rfl
    exact absurd rfl first

theorem Text.withoutCommands_self {s : String} (plain : '\x1b' ∉ s.toList) :
    Text.withoutCommands s = s := by
  have enough : s.toList.length ≤ s.length := Nat.le_of_eq String.length_toList
  rw [Text.withoutCommands, Text.dropCommands_self plain enough, String.ofList_toList]

theorem Text.escapeUnits_self {s : String} (whole : ∀ c ∈ s.toList, Text.loneUnit? c = none) :
    Text.escapeUnits s = s := by
  have kept : ∀ c ∈ s.toList,
      (if (Text.loneUnit? c).isSome then Text.codeEscape c else [c]) = [c] := by
    intro c hc
    rw [whole c hc]
    rfl
  rw [Text.escapeUnits, List.flatMap_congr kept, List.flatMap_singleton', String.ofList_toList]

namespace CommandLine

theorem parse_word {arg : String} (word : arg.toList.head? ≠ some '-') (args : List String) :
    parse (arg :: args) =
      (parse args).map fun rest => { rest with positional := arg :: rest.positional } := by
  rw [parse.eq_def]
  dsimp only
  split
  · rename_i dashes
    exact absurd (by rw [dashes]; rfl) word
  · rename_i dash
    exact absurd (by rw [dash]; rfl) word
  · cases parse args <;> rfl

theorem parseCommand_call {target name text : String} (targetWord : target.toList.head? ≠ some '-')
    (nameWord : name.toList.head? ≠ some '-') (textWord : text.toList.head? ≠ some '-') :
    parseCommand ["call", target, name, text] = .ok (.call target name text, none) := by
  have words : parse [target, name, text] = .ok ⟨[target, name, text], none⟩ := by
    rw [parse_word targetWord, parse_word nameWord, parse_word textWord]
    rfl
  have named : commandOf "call" [target, name, text] = .ok (.call target name text, none) := by
    rw [commandOf, if_pos (.inr rfl), words]
    rfl
  exact named

/-- Running the command `call` comes to a call under some log, and a report of its answer. -/
theorem run_reported {g : Bridge} {modules : Modules} {environment option : Option String}
    {argv : List String} {target name text : String} {registry : Nat} {args : List Native}
    (parsed : parseCommand argv = .ok (.call target name text, option))
    (configured : (g.configure .console (option.orElse fun _ => environment.filter (!·.isEmpty))
      environment).1 = .ok ())
    (found : load g modules target = .ok registry) (read : readArguments text = .ok args) :
    ∃ logging, run g modules environment argv =
      report ((g.relogged logging g.lines).callWire registry (.text name) (args.map .wire)).2 name
        ((g.relogged logging g.lines).callWire registry (.text name) (args.map .wire)).1 := by
  obtain ⟨logging, configured⟩ := Bridge.configure_relogged configured
  have again : load (g.relogged logging g.lines) modules target = .ok registry := found
  refine ⟨logging, ?_⟩
  simp only [run, parsed, configured, call, again, read]
  rfl

theorem run_call {g : Bridge} {modules : Modules} {target name text : String} {registry : Nat}
    {args : List Native} (found : load g modules target = .ok registry)
    (targetWord : target.toList.head? ≠ some '-') (nameWord : name.toList.head? ≠ some '-')
    (read : Json.read text = .ok (.list args)) :
    ∃ logging, run g modules none ["call", target, name, text] =
      report ((g.relogged logging g.lines).callWire registry (.text name) (args.map .wire)).2 name
        ((g.relogged logging g.lines).callWire registry (.text name) (args.map .wire)).1 :=
  run_reported (parseCommand_call targetWord nameWord (Json.read_list_unsigned read))
    g.configure_console found (by rw [readArguments, read])

/-- No infinite double and no whole number over the digit limit. -/
def Printable : Native → Prop
  | .int n => n.natAbs < tooLarge
  | .float (.infinite _) => False
  | _ => True

theorem printable_iff {v : Native} (usable : Tagged.Usable v) :
    Printable v ↔ Json.Bounded v := by
  cases v with
  | float x =>
    cases x with
    | nan object => exact (usable.2 object rfl).elim
    | infinite | finite => exact Iff.rfl
  | _ => exact Iff.rfl

/-- A result has a JSON text exactly where it is printed. -/
theorem write_printable {r : Native} (usable : r.Everywhere Tagged.Usable) :
    (∃ text, Json.write Json.spaced r = .ok text) ↔ r.Everywhere Printable := by
  refine (Json.writeAt_ok (Tagged.usable_formed usable)).trans ⟨fun h => ?_, fun h => ?_⟩
  · exact h.imp₂ (fun _ bounded usable => (printable_iff usable).mpr bounded) usable
  · exact h.imp₂ (fun _ printable usable => (printable_iff usable).mp printable) usable

theorem report_stores (g : Bridge) (name : String) (result : Attempt Native) :
    (report g name result).2 = g := by
  unfold report
  split
  · split <;> rfl
  · split <;> rfl

theorem report_unwritten {g : Bridge} {name : String} {r : Native} {e : Failure}
    (unwritten : Json.write Json.spaced r = .error e) :
    (report g name (.ok r)).1.code = 1 ∧ (report g name (.ok r)).1.output = "" := by
  simp only [report, unwritten]
  cases r.display? <;> exact ⟨rfl, rfl⟩

theorem report_refused {g : Bridge} {name message : String} {e : Failure}
    (host : e.hostMessage? = some message) :
    report g name (.error e) = finish g 1 "" [echoed message] := by
  simp only [report, host]

/-- What a call within the process and the same call from the command line have in common. A result
is printed as one line; where a unit stands right before its partner in a text of the result, the
two are read as their character. -/
structure Agrees (called : Attempt Native × Bridge) (ran : Ending × Bridge) : Prop where
  stores : ran.2.stores = called.2.stores
  printed : ∀ r, called.1 = .ok r → r.Everywhere Printable → ran.1.code = 0 ∧
    ∃ line, ran.1.output = line ++ "\n" ∧ '\n' ∉ line.toList ∧
      Json.read line = .ok (Json.rereadValue true r) ∧
      (r.Everywhere Json.Unjoined → Json.read line = .ok r)
  withheld : ∀ r, called.1 = .ok r → ¬ r.Everywhere Printable →
    ran.1.code ≠ 0 ∧ ran.1.output = ""
  reported : ∀ e message, called.1 = .error e → e.hostMessage? = some message →
    ran.1.code = 1 ∧ ran.1.output = "" ∧ echoed message ∈ ran.1.errors ∧
      ('\x1b' ∉ message.toList → (∀ c ∈ message.toList, Text.loneUnit? c = none) →
        message ∈ ran.1.errors)

theorem report_agrees {called : Attempt Native × Bridge} {g : Bridge} (name : String)
    (usable : ∀ r, called.1 = .ok r → r.Everywhere Tagged.Usable)
    (stores : g.stores = called.2.stores) : Agrees called (report g name called.1) := by
  refine ⟨by rw [report_stores, stores], ?_, ?_, ?_⟩
  · intro r answered printable
    obtain ⟨line, written⟩ := (write_printable (usable r answered)).mpr printable
    obtain ⟨single, read⟩ := Json.read_write Json.spaced_oneLine written
    simp only [answered, report, written]
    refine ⟨rfl, line, rfl, single, read, fun apart => ?_⟩
    have formed := Tagged.usable_formed (usable r answered)
    exact read.trans (congrArg Except.ok (Json.rereadValue_self formed fun _ => apart))
  · intro r answered unprintable
    cases written : Json.write Json.spaced r with
    | ok line => exact absurd ((write_printable (usable r answered)).mp ⟨line, written⟩) unprintable
    | error e =>
      obtain ⟨code, output⟩ := @report_unwritten g name r e written
      rw [answered, code]
      exact ⟨by decide, output⟩
  · intro e message failed host
    rw [failed, report_refused host]
    have shown : echoed message ∈ (finish g 1 "" [echoed message]).1.errors :=
      List.mem_append_right _ (List.mem_singleton_self _)
    refine ⟨rfl, rfl, shown, fun plain whole => ?_⟩
    have same : echoed message = message := by
      rw [echoed, Text.withoutCommands_self plain, Text.escapeUnits_self whole]
    rw [same] at shown ⊢
    exact shown

theorem run_agrees {g : Bridge} {modules : Modules} {target name text : String} {registry : Nat}
    {args : List Native} (found : load g modules target = .ok registry)
    (targetWord : target.toList.head? ≠ some '-') (nameWord : name.toList.head? ≠ some '-')
    (read : Json.read text = .ok (.list args)) :
    Agrees (g.callWire registry (.text name) (args.map .wire))
      (run g modules none ["call", target, name, text]) := by
  obtain ⟨logging, ran⟩ := run_call found targetWord nameWord read
  obtain ⟨answer, stores⟩ :=
    g.callWire_relogged logging g.lines registry (.text name) (args.map .wire)
  rw [ran, answer]
  exact report_agrees name (fun r answered => Bridge.callWire_usable answered) stores

/-- Arguments within the limits of JSON have a text, and with any text of a list the command line
does what the call with that list does within the process. -/
theorem call_command_agrees {g : Bridge} {modules : Modules} {target name : String}
    {registry : Nat} (found : load g modules target = .ok registry)
    (targetWord : target.toList.head? ≠ some '-') (nameWord : name.toList.head? ≠ some '-') :
    (∀ args, (Native.list args).Everywhere Json.Formed →
      (Native.list args).Everywhere Json.Bounded →
      ∃ text, Json.write Json.spaced (.list args) = .ok text ∧
        Json.read text = .ok (.list (Json.rereadItems true args)) ∧
        ((Native.list args).Everywhere Json.Unjoined → Json.read text = .ok (.list args))) ∧
    ∀ text args, Json.read text = .ok (.list args) →
      Agrees (g.callWire registry (.text name) (args.map .wire))
        (run g modules none ["call", target, name, text]) := by
  constructor
  · intro args formed bounded
    obtain ⟨text, written⟩ := (@Json.writeAt_ok Json.spaced 0 _ formed).mpr bounded
    have read := (Json.read_write Json.spaced_oneLine written).2
    refine ⟨text, written, read, fun unjoined => ?_⟩
    exact read.trans (congrArg Except.ok (Json.rereadValue_self formed fun _ => unjoined))
  · exact fun text args read => run_agrees found targetWord nameWord read

/-- A high unit right before a low one. -/
def neighbours : String :=
  String.ofList [Text.standIn 0xd800, Text.standIn 0xdc00]

/-- A registry with a function that answers its arguments, one that answers an infinite double, and
one that answers a high unit right before a low one. -/
def sample : Session :=
  let add := fun name (f : List Native → Native) =>
    Step.add name "r" .function (.text name) (.text "") (.ofFunction (.ok <| f ·))
  Session.initial.after
    [ .registry "r" (.text "n") (.text "a") (.text "1.0.0") none true,
      add "echo" .list,
      add "far" fun _ => .float (.infinite false),
      add "pair" fun _ => .text neighbours ]

def sampleModules : Modules :=
  [("ext", sample.registries)]

/-- Arguments go through the command line and come back, an infinite result is withheld, and a name
that is not registered is reported. -/
theorem sample_call_agrees :
    let g := sample.bridge
    let ran := fun name text => run g sampleModules none ["call", "ext:r", name, text]
    let args := [Native.table [(.text "Integer", .int 1)]]
    load g sampleModules "ext:r" = .ok 0 ∧
    (∃ text line, Json.write Json.spaced (.list args) = .ok text ∧
      (ran "lavendeuxfunction_echo" text).1.code = 0 ∧
      (ran "lavendeuxfunction_echo" text).1.output = line ++ "\n" ∧
      Json.read line = .ok (.table [(.text "Array", .list args)])) ∧
    Json.read "[]" = .ok (.list []) ∧
    ((ran "lavendeuxfunction_far" "[]").1.code ≠ 0 ∧
      (ran "lavendeuxfunction_far" "[]").1.output = "") ∧
    (ran "far" "[]").1.code = 1 ∧
      "No function or decorator registered as far" ∈ (ran "far" "[]").1.errors := by
  intro g ran args
  have found : load g sampleModules "ext:r" = .ok 0 := by rfl
  have empty : Json.read "[]" = .ok (.list []) := by rfl
  have everywhere {p : Native → Prop} (list : p (.list args)) (entry : p args[0])
      (tag : p (.text "Integer")) (number : p (.int 1)) : (Native.list args).Everywhere p :=
    .node list (List.forall_mem_singleton.mpr
      (.ofEntry entry (.leaf tag rfl) (.leaf number rfl)))
  have short : Int.natAbs 1 < tooLarge := Nat.lt_trans (by decide) digitLimit_lt_tooLarge
  have apart : (Native.list args).Everywhere Json.Unjoined :=
    everywhere trivial trivial (by decide) trivial
  have formed : (Native.list args).Everywhere Json.Formed :=
    everywhere trivial ⟨List.forall_mem_singleton.mpr ⟨_, rfl⟩, List.pairwise_singleton _ _⟩
      trivial trivial
  have bounded : (Native.list args).Everywhere Json.Bounded :=
    everywhere trivial trivial trivial short
  have printable : (Native.list args).Everywhere Printable :=
    everywhere trivial trivial trivial short
  refine ⟨found, ?_, empty, ?_, ?_⟩
  · obtain ⟨written, agree⟩ := @call_command_agrees g sampleModules "ext:r"
      "lavendeuxfunction_echo" 0 found (by decide) (by decide)
    obtain ⟨text, shown, _, read⟩ := written args formed bounded
    have answered : (g.callWire 0 (.text "lavendeuxfunction_echo") (args.map .wire)).1 =
        .ok (.table [(.text "Array", .list args)]) := by rfl
    obtain ⟨code, line, output, _, _, same⟩ := (agree text args (read apart)).printed _ answered
      (.ofEntry trivial (.leaf trivial rfl) printable)
    exact ⟨text, line, shown, code, output, same (.ofEntry trivial (.leaf (by decide) rfl) apart)⟩
  · have answered : (g.callWire 0 (.text "lavendeuxfunction_far") []).1 =
        .ok (.table [(.text "Float", .float (.infinite false))]) := by rfl
    have agrees := (@call_command_agrees g sampleModules "ext:r" "lavendeuxfunction_far" 0 found
      (by decide) (by decide)).2 _ _ empty
    refine agrees.withheld _ answered fun printable => ?_
    exact (printable.entry (List.mem_singleton_self _)).2.here
  · have agrees := (@call_command_agrees g sampleModules "ext:r" "far" 0 found
      (by decide) (by decide)).2 _ _ empty
    let message := "No function or decorator registered as far"
    obtain ⟨code, _, _, shown⟩ := agrees.reported _ message rfl rfl
    -- Decided over the list: as a statement on characters it would be decided over all of them.
    have whole : message.toList.all (Text.loneUnit? · == none) = true := by decide
    exact ⟨code, shown (by decide) fun c hc => beq_iff_eq.mp (List.all_eq_true.mp whole c hc)⟩

theorem rereadText_neighbours : Json.rereadText true neighbours ≠ neighbours := by
  have high : Text.loneUnit? (Text.standIn 0xd800) = some 0xd800 :=
    Json.loneUnit_eq_some.mpr (by decide)
  have low : Text.loneUnit? (Text.standIn 0xdc00) = some 0xdc00 :=
    Json.loneUnit_eq_some.mpr (by decide)
  have paired := Json.pair_of_units high low (by decide) (by decide)
  have merged : Json.reread true neighbours.toList = [Text.pairChar 0xd800 0xdc00] := by
    rw [neighbours, String.toList_ofList]
    exact Json.mergePairs_pair paired []
  intro same
  have chars := congrArg String.toList same
  rw [Json.rereadText, merged, String.toList_ofList, neighbours, String.toList_ofList] at chars
  cases chars

/-- A unit without its partner, as a name. -/
def unpartnered : String :=
  String.singleton (Text.standIn 0xdc80)

/-- A message loses its commands to a terminal and shows an escape for a unit without its partner, a
high unit right before a low one is read as the character of the pair, and a module whose name
begins like an option is not called. -/
theorem call_command_differs :
    let g := sample.bridge
    let ran := fun name => run g sampleModules none ["call", "ext:r", name, "[]"]
    let dashed : Modules := [("-ext", sample.registries)]
    load g sampleModules "ext:r" = .ok 0 ∧ Json.read "[]" = .ok (.list []) ∧
    (load g dashed "-ext:r" = .ok 0 ∧
      (g.callWire 0 (.text "lavendeuxfunction_echo") []).1 =
        .ok (.table [(.text "Array", .list [])]) ∧
      (run g dashed none ["call", "-ext:r", "lavendeuxfunction_echo", "[]"]).1.code ≠ 0) ∧
    (∃ e, (g.callWire 0 (.text "a\x1b[31mb") []).1 = .error e ∧
      e.hostMessage? = some "No function or decorator registered as a\x1b[31mb" ∧
      "No function or decorator registered as a\x1b[31mb" ∉ (ran "a\x1b[31mb").1.errors) ∧
    (∃ e, (g.callWire 0 (.text unpartnered) []).1 = .error e ∧
      e.hostMessage? = some ("No function or decorator registered as " ++ unpartnered) ∧
      (ran unpartnered).1.errors = ["No function or decorator registered as \\udc80"]) ∧
    ∃ r line, (g.callWire 0 (.text "lavendeuxfunction_pair") []).1 = .ok r ∧
      r.Everywhere Printable ∧ (ran "lavendeuxfunction_pair").1.output = line ++ "\n" ∧
      Json.read line ≠ .ok r := by
  intro g ran dashed
  have found : load g sampleModules "ext:r" = .ok 0 := by rfl
  have read : Json.read "[]" = .ok (.list []) := by rfl
  refine ⟨found, read, ⟨by rfl, by rfl, ?_⟩, ⟨_, by rfl, by rfl, ?_⟩,
    ⟨_, by rfl, by rfl, by rfl⟩, ?_⟩
  · have code : (run g dashed none ["call", "-ext:r", "lavendeuxfunction_echo", "[]"]).1.code =
        usageCode := by rfl
    rw [code]
    decide
  · have errors : (ran "a\x1b[31mb").1.errors = ["No function or decorator registered as ab"] := by
      rfl
    rw [errors]
    decide
  · have answered : (g.callWire 0 (.text "lavendeuxfunction_pair") []).1 =
        .ok (.table [(.text "String", .text neighbours)]) := by rfl
    have printable : (Native.table [(.text "String", .text neighbours)]).Everywhere Printable :=
      .ofEntry trivial (.leaf trivial rfl) (.leaf trivial rfl)
    have agrees : Agrees (g.callWire 0 (.text "lavendeuxfunction_pair") [])
        (ran "lavendeuxfunction_pair") := run_agrees found (by decide) (by decide) read
    obtain ⟨_, line, output, _, joined, _⟩ := agrees.printed _ answered printable
    refine ⟨_, line, answered, printable, output, fun same => ?_⟩
    have equal := Except.ok.inj (joined.symm.trans same)
    simp only [Json.rereadValue, Json.rereadMembers, Ordered.ofList, List.foldl_cons,
      List.foldl_nil, Ordered.insert, Native.table.injEq, List.cons.injEq, Prod.mk.injEq,
      Native.text.injEq] at equal
    exact rereadText_neighbours equal.1.2

end CommandLine

end HostBridge
