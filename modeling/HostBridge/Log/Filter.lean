import HostBridge.Ordered
import HostBridge.Text.Blank
import HostBridge.Text.Case

namespace HostBridge.Log

/-- A filter as it was written. A module's level is missing where the module is silenced. -/
structure FilterText where
  level : String
  modules : Ordered String (Option String)

namespace FilterText

def segments (cs : List Char) : List (List Char) :=
  cs.splitOn ','

def entry? (cs : List Char) : Option (List Char × List Char) :=
  match cs.dropWhile (· != '=') with
  | [] => none
  | _ :: level => some (Text.trim (cs.takeWhile (· != '=')), Text.trim level)

def levelOf (cs : List Char) : Option String :=
  let level := String.ofList cs
  if level = "false" then none else some (String.ofList (Text.upper cs))

/-- What one segment adds: an entry replaces an earlier one for its module, a level the earlier
level, and a blank segment nothing. -/
def addSegment (f : FilterText) (segment : List Char) : FilterText :=
  let cs := Text.trim segment
  if cs.isEmpty then f
  else match entry? cs with
    | some (module, level) =>
      { f with modules := f.modules.insert (String.ofList module) (levelOf level) }
    | none => { f with level := String.ofList cs }

/-- Reads a filter text, in any case of letters. -/
def ofText (s : String) : FilterText :=
  (segments (Text.lower s.toList)).foldl addSegment { level := "info", modules := [] }

end FilterText

def levels : List (String × Nat) :=
  [("TRACE", 5), ("DEBUG", 10), ("INFO", 20), ("SUCCESS", 25), ("WARNING", 30), ("ERROR", 40),
   ("CRITICAL", 50)]

def levelNumber? (name : String) : Option Nat :=
  (levels.find? fun e => e.1 == name).map (·.2)

/-- The name of a level; a number that has none is named after itself. -/
def levelName (number : Nat) : String :=
  match levels.find? fun e => e.2 == number with
  | some (name, _) => name
  | none => s!"Level {number}"

/-- For each module the least level that is written, or none at all. The empty module stands for
all others. -/
abbrev Filter := Ordered String (Option Nat)

namespace Filter

def ofEntries : List (String × Option String) → Option Filter
  | [] => some []
  | (module, none) :: es => do return (module, none) :: (← ofEntries es)
  | (module, some level) :: es => do
    let number ← levelNumber? level
    return (module, some number) :: (← ofEntries es)

/-- The filter that a text describes, if it names only levels there are. An entry for the empty
module takes the place of the level for all. -/
def ofText? (t : FilterText) : Option Filter :=
  let level := String.ofList (Text.upper t.level.toList)
  ofEntries (t.modules.foldl (fun m e => Ordered.insert m e.1 e.2) [("", some level)])

/-- The module that a module is part of: the text before its last dot. -/
def parent (module : List Char) : List Char :=
  ((module.reverse.dropWhile (· != '.')).drop 1).reverse

theorem parent_length_lt {module : List Char} (h : module ≠ []) :
    (parent module).length < module.length := by
  have hd : (module.reverse.dropWhile (· != '.')).length ≤ module.length := by
    simpa using (List.dropWhile_sublist (l := module.reverse) (· != '.')).length_le
  have hp : 0 < module.length := List.length_pos_iff.mpr h
  simp only [parent, List.length_reverse, List.length_drop]
  omega

/-- The entry that decides for a module: its own, or that of the nearest module it is part of. -/
def deciding? (f : Filter) (module : List Char) : Option (Option Nat) :=
  match f.get? (String.ofList module) with
  | some entry => some entry
  | none => if h : module = [] then none else
    have := parent_length_lt h
    deciding? f (parent module)
termination_by module.length

def passes (f : Filter) (module : String) (level : Nat) : Bool :=
  match f.deciding? module.toList with
  | some (some least) => least ≤ level
  | some none => false
  | none => true

end Filter

end HostBridge.Log
