import HostBridge.Session
import HostBridge.Json.Reader
import HostBridge.Text.Escape

namespace HostBridge.CommandLine

inductive UsageFault where
  | missingParameter
  | usage
  | noSuchOption
  | badOption
  | badParameter (message : String)

/-- What is said about a refused command. -/
def UsageFault.message : UsageFault → String
  | .missingParameter => "an argument is missing"
  | .usage => "expected describe TARGET or call TARGET NAME [ARGUMENTS]"
  | .noSuchOption => "no such option"
  | .badOption => "an option needs a value"
  | .badParameter message => message

/-- How a command ends: with an exit code and what it wrote, refused, or stopped by a failure. -/
inductive Ending where
  | exit (code : Nat) (output : String) (errors : List String)
  | refused (fault : UsageFault)
  | failed (cause : Failure)

def usageCode : Nat := 2

/-- A message as it comes to the user: commands to a terminal are dropped from it first. -/
def echoed (message : String) : String :=
  Text.escapeUnits (Text.withoutCommands message)

namespace Ending

/-- The exit code of the program, which is one where a failure stopped the command. -/
def code : Ending → Nat
  | .exit code _ _ => code
  | .refused _ => usageCode
  | .failed _ => 1

def output : Ending → String
  | .exit _ output _ => output
  | _ => ""

def errors : Ending → List String
  | .exit _ _ errors => errors
  | .refused fault => [echoed fault.message]
  | .failed cause => [Text.escapeUnits (cause.message?.getD "the command failed")]

end Ending

structure Parsed where
  positional : List String
  filter : Option String

def filterOption : List Char :=
  "--log-filter".toList

/-- Options may stand among the positional arguments, and end at two dashes. -/
def parse : List String → Except UsageFault Parsed
  | [] => .ok ⟨[], none⟩
  | arg :: args =>
    match arg.toList with
    | ['-', '-'] => .ok ⟨args, none⟩
    | '-' :: c :: cs =>
      let name := ('-' :: c :: cs).takeWhile (· != '=')
      if name = filterOption then
        match ('-' :: c :: cs).dropWhile (· != '=') with
        | _ :: value => do
          let rest ← parse args
          return { rest with filter := rest.filter.orElse fun _ => some (String.ofList value) }
        | [] => match args with
          | [] => .error .badOption
          | value :: args => do
            let rest ← parse args
            return { rest with filter := rest.filter.orElse fun _ => some value }
      else .error .noSuchOption
    | _ => do
      let rest ← parse args
      return { rest with positional := arg :: rest.positional }

/-- A command: `describe` prints the details and tables of an extension, `call` calls one of its
bindings with wire values in JSON. The extension is found in a module, as the live registry or under
a name after a colon. -/
inductive Command where
  | describe (target : String)
  | call (target name args : String)

def Command.ofPositional (command : String) (positional : List String) :
    Except UsageFault Command :=
  match command, positional with
  | "describe", [target] => .ok (.describe target)
  | "describe", [] => .error .missingParameter
  | "call", [target, name] => .ok (.call target name "[]")
  | "call", [target, name, args] => .ok (.call target name args)
  | "call", [] | "call", [_] => .error .missingParameter
  | _, _ => .error .usage

/-- Whether a word is written like an option. -/
def isOption (word : String) : Bool :=
  match word.toList with
  | ['-', '-'] => false
  | '-' :: _ :: _ => true
  | _ => false

def commandOf (name : String) (args : List String) :
    Except UsageFault (Command × Option String) :=
  if name = "describe" ∨ name = "call" then do
    let parsed ← parse args
    return (← Command.ofPositional name parsed.positional, parsed.filter)
  else .error (if isOption name then .noSuchOption else .usage)

/-- The command and its log filter. Before the command's name there may be two dashes and no
options. -/
def parseCommand : List String → Except UsageFault (Command × Option String)
  | [] | ["--"] => .error .usage
  | "--" :: name :: args => commandOf name args
  | name :: args => commandOf name args

/-- The modules that can be loaded: the registries of each by name. -/
abbrev Modules := List (String × Ordered String Nat)

/-- The text before the first colon, and the text after it. -/
def splitTarget (target : String) : String × String :=
  let cs := target.toList
  (String.ofList (cs.takeWhile (· != ':')), String.ofList ((cs.dropWhile (· != ':')).drop 1))

def load (g : Bridge) (modules : Modules) (target : String) : Except Ending Nat :=
  let (module, member) := splitTarget target
  match modules.find? fun m => m.1 == module with
  | none => .error (.failed (
    if module.isEmpty then .emptyModuleName
    else if module.startsWith "." then .badCall
    else .unknownModule))
  | some (_, registries) =>
    if member.isEmpty then
      match g.live with
      | some r => .ok r
      | none => .error (.refused (.badParameter s!"{module} did not create an extension"))
    else match registries.get? member with
      | some r => .ok r
      | none => .error (.refused (.badParameter s!"{target} is not an extension registry"))

def readArguments (text : String) : Except Ending (List Native) :=
  match Json.read text with
  | .error .syntaxError => .error (.refused (.badParameter "arguments are not valid JSON"))
  | .error .tooManyDigits => .error (.failed .tooManyDigits)
  | .ok (.list args) => .ok args
  | .ok _ => .error (.refused (.badParameter "arguments must be a JSON list of tagged values"))

def metadata (r : Registry) : Native :=
  let table := fun (entries : Ordered String String) =>
    Native.table (entries.map fun e => (.text e.1, .text e.2))
  .table [(.text "name", .text r.name), (.text "author", .text r.author),
    (.text "version", .text r.version), (.text "functions", table r.functions),
    (.text "decorators", table r.decorators)]

def errorLines (lines : List Log.Line) : List String :=
  lines.filterMap fun
    | .console text => some (Text.escapeUnits text)
    | .bare message => some (Text.escapeUnits message)
    | .record .. => none

def finish (g : Bridge) (code : Nat) (output : String) (errors : List String) : Ending × Bridge :=
  (.exit code output (errorLines g.lines ++ errors), g)

def describe (g : Bridge) (modules : Modules) (target : String) : Ending × Bridge :=
  match load g modules target with
  | .error e => (e, g)
  | .ok id => match g.registry id with
    | .error e => (.failed e, g)
    | .ok r =>
      let g := g.report "lavendeux.cli" s!"describe.load target={target} name={r.name}"
      match Json.write Json.indented (metadata r) with
      | .ok text => finish g 0 (text ++ "\n") []
      | .error e => (.failed e, g)

/-- Ends a call. A failure of the bridge itself is reported, and so is a result that JSON cannot
express; other failures stop the command. -/
def report (g : Bridge) (name : String) : Attempt Native → Ending × Bridge
  | .error e => match e.hostMessage? with
    | some message => finish g 1 "" [echoed message]
    | none => (.failed e, g)
  | .ok result => match Json.write Json.spaced result, result.display? with
    | .ok text, _ => finish g 0 (text ++ "\n") []
    | .error _, some shown =>
      finish g 1 "" [echoed s!"{name} returned {shown}, which has no JSON form"]
    | .error _, none => (.failed .tooManyDigits, g)

def call (g : Bridge) (modules : Modules) (target name args : String) : Ending × Bridge :=
  match do return (← load g modules target, ← readArguments args) with
  | .error e => (e, g)
  | .ok (registry, args) =>
    let (result, g) := g.callWire registry (.text name) (args.map .wire)
    report g name result

/-- Runs the command line, of which the words are texts as `Native.text` says. A log filter in the
environment counts where the option is absent, if it is not empty. -/
def run (g : Bridge) (modules : Modules) (environment : Option String) (argv : List String) :
    Ending × Bridge :=
  match parseCommand argv with
  | .error fault => (.refused fault, g)
  | .ok (command, option) =>
    let filter := option.orElse fun _ => environment.filter (!·.isEmpty)
    match g.configure .console filter environment with
    | (.error e, g) => (.failed e, g)
    | (.ok (), g) => match command with
      | .describe target => describe g modules target
      | .call target name args => call g modules target name args

end HostBridge.CommandLine
