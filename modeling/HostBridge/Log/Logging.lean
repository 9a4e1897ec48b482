import HostBridge.Failure
import HostBridge.Log.Filter

namespace HostBridge.Log

namespace Console

def column : Nat := 8

/-- Whether a console acts on a character and shows nothing: bell, backspace, vertical tab, form
feed and carriage return. -/
def isSilent (c : Char) : Bool :=
  c == '\x07' || c == '\x08' || c == '\x0b' || c == '\x0c' || c == '\r'

/-- A line with blanks in place of its tabs, each up to the next multiple of eight. -/
def expandTabs (start : Nat) : List Char → List Char
  | [] => []
  | c :: cs =>
    if c = '\t' then
      let gap := 8 - start % 8
      List.replicate gap ' ' ++ expandTabs (start + gap) cs
    else c :: expandTabs (start + 1) cs

/-- A word that fits into the column, cut where it is too long. -/
def fitted (word : List Char) : List Char :=
  if word.length ≤ column then word else word.take (column - 1) ++ ['…']

/-- The rows of a level: its name, or the words of a name that is too long. -/
def levelRows (level : String) : List (List Char) :=
  let cs := level.toList
  if cs.length ≤ column then [cs] else (cs.splitOn ' ').map fitted

def messageRows (message : String) : List (List Char) :=
  ((message.toList.filter (!isSilent ·)).splitOn '\n').map (expandTabs 0)

def row (level message : List Char) : String :=
  String.ofList (Text.trimEnd
    (level ++ List.replicate (column - level.length) ' ' ++ ' ' :: message))

/-- A record on a console: the name of the level in a column of its own, and beside it the lines of
the message. -/
def rows (level message : String) : List String :=
  let levels := levelRows level
  let lines := messageRows message
  (List.range (max levels.length lines.length)).map fun i =>
    row (levels[i]?.getD []) (lines[i]?.getD [])

end Console

/-- How records are laid out: in full, or in short for a console. Profiles of other names are laid
out in full. -/
inductive Profile where
  | full | console
  | other (name : String)
  deriving DecidableEq

/-- Where records go: a layout and a filter. -/
structure Sink where
  profile : Profile
  filter : Filter

/-- The state of logging. Records of the library are written only after a configuration; records of
the rest of the program are written bare until one has succeeded and are forwarded from then on. -/
structure Logging where
  /-- Whether the records of the library are let through. -/
  enabled : Bool
  sink : Option Sink
  /-- Whether the records of the rest of the program are forwarded. -/
  forwarding : Bool
  /-- The profile of the last configuration that succeeded. -/
  profile : Option Profile

/-- What is written to the log: a record in full, a row of one on a console, or a bare message. -/
inductive Line where
  | record (level module message : String)
  | console (text : String)
  | bare (message : String)

structure Record where
  level : Nat
  module : String
  message : String

def Sink.write (s : Sink) (r : Record) : List Line :=
  if 5 ≤ r.level && s.filter.passes r.module r.level then
    let level := levelName r.level
    match s.profile with
    | .full | .other _ => [.record level r.module r.message]
    | .console => (Console.rows level r.message).map .console
  else []

namespace Logging

def initial : Logging :=
  { enabled := false, sink := none, forwarding := false, profile := none }

def write (l : Logging) (r : Record) : List Line :=
  match l.sink with
  | none => []
  | some s => s.write r

/-- What a record of the library itself writes. All of them are for debugging. -/
def report (l : Logging) (module message : String) : List Line :=
  if l.enabled then l.write ⟨10, module, message⟩ else []

/-- What a record of the rest of the program writes. Its logger drops it below a level of its own;
where it is not forwarded, it is written bare from the level of warnings on. -/
def forward (l : Logging) (least : Nat) (r : Record) : List Line :=
  if r.level < least then []
  else if l.forwarding then l.write r
  else if r.level < 30 then []
  else [.bare r.message]

/-- Configures logging for a profile. Without a filter text nothing happens where the profile is
the present one, and the default text is read otherwise. The old sink is gone even where the new
filter names a level that does not exist. -/
def configure (l : Logging) (profile : Profile) (text? default? : Option String) :
    Attempt Unit × Logging :=
  if text?.isNone && l.profile == some profile then (.ok (), l)
  else
    let text := (text?.orElse fun _ => default?).getD "info"
    let l := { l with enabled := true, sink := none }
    match Filter.ofText? (FilterText.ofText text) with
    | none => (.error .unknownLevel, l)
    | some filter =>
      (.ok (), { l with
        sink := some ⟨profile, filter⟩, forwarding := true, profile := some profile })

end Logging

end HostBridge.Log
