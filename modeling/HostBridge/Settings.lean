import HostBridge.Failure
import HostBridge.Text.Blank
import HostBridge.Text.Case

namespace HostBridge

namespace EnvFile

/-- Blank, but no line break. -/
def isSpace (c : Char) : Bool :=
  Text.isBlank c && c != '\n'

def skipSpaces (cs : List Char) : List Char :=
  cs.dropWhile isSpace

def afterLine (cs : List Char) : List Char :=
  (cs.dropWhile (· != '\n')).drop 1

/-- The text up to a closing quote, and the rest after it. A backslash protects the character that
follows it. -/
def takeQuoted? (quote : Char) : List Char → Option (List Char × List Char)
  | [] => none
  | '\\' :: c :: cs => do
    let (text, rest) ← takeQuoted? quote cs
    return ('\\' :: c :: text, rest)
  | c :: cs =>
    if c = quote then some ([], cs)
    else do
      let (text, rest) ← takeQuoted? quote cs
      return (c :: text, rest)

/-- What a backslash and a letter stand for between double quotes. -/
def escape? : Char → Option Char
  | '\\' => some '\\'
  | '\'' => some '\''
  | '"' => some '"'
  | 'a' => some '\x07'
  | 'b' => some '\x08'
  | 'f' => some '\x0c'
  | 'n' => some '\n'
  | 'r' => some '\r'
  | 't' => some '\t'
  | 'v' => some '\x0b'
  | _ => none

/-- What a backslash and a letter stand for between single quotes. -/
def singleEscape? : Char → Option Char
  | '\\' => some '\\'
  | '\'' => some '\''
  | _ => none

def unescape (known? : Char → Option Char) : List Char → List Char
  | '\\' :: c :: cs => match known? c with
    | some d => d :: unescape known? cs
    | none => '\\' :: unescape known? (c :: cs)
  | c :: cs => c :: unescape known? cs
  | [] => []
termination_by cs => cs.length

/-- A value without quotes, up to a comment that follows a blank. -/
def beforeComment : List Char → List Char
  | [] => []
  | c :: cs =>
    if Text.isBlank c && (cs.dropWhile Text.isBlank).head? == some '#' then []
    else c :: beforeComment cs

/-- The name of a variable, and the rest after it. -/
def takeName? : List Char → Option (List Char × List Char)
  | '\'' :: cs =>
    let name := cs.takeWhile (· != '\'')
    if name.isEmpty then none
    else match cs.dropWhile (· != '\'') with
      | [] => none
      | _ :: rest => some (name, rest)
  | cs =>
    let inName := fun c => !(c == '=' || c == '#' || Text.isBlank c)
    if (cs.takeWhile inName).isEmpty then none
    else some (cs.takeWhile inName, cs.dropWhile inName)

/-- The value after an equals sign, and the rest after it. -/
def takeValue? (cs : List Char) : Option (List Char × List Char) :=
  match skipSpaces cs with
  | '\'' :: cs => do
    let (text, rest) ← takeQuoted? '\'' cs
    return (unescape singleEscape? text, rest)
  | '"' :: cs => do
    let (text, rest) ← takeQuoted? '"' cs
    return (unescape escape? text, rest)
  | _ => some (Text.trim (beforeComment (cs.takeWhile (· != '\n'))), cs.dropWhile (· != '\n'))

def skipExport (cs : List Char) : List Char :=
  match cs with
  | 'e' :: 'x' :: 'p' :: 'o' :: 'r' :: 't' :: c :: rest =>
    if isSpace c then skipSpaces rest else cs
  | _ => cs

/-- An entry of a file: a name and, after an equals sign, a value. -/
structure Entry where
  name : List Char
  value : Option (List Char)

/-- Reads an entry, of which the line may hold only a comment more. Where the line cannot be read,
gives what is left from there on. -/
def takeEntry (cs : List Char) : Except (List Char) (Entry × List Char) := do
  let (name, rest) ← orElse (skipExport cs) (takeName? (skipExport cs))
  let (value, rest) ← match skipSpaces rest with
    | '=' :: rest => do
      let (v, rest) ← orElse rest (takeValue? rest)
      pure (some v, rest)
    | rest => pure (none, rest)
  match skipSpaces rest with
  | [] => return (⟨name, value⟩, [])
  | '\n' :: rest => return (⟨name, value⟩, rest)
  | '#' :: rest => return (⟨name, value⟩, afterLine rest)
  | rest => .error rest
where
  orElse {α : Type} (rest : List Char) : Option α → Except (List Char) α
    | some a => .ok a
    | none => .error rest

/-- A place in a value: plain text, or a variable with its default. -/
inductive Atom where
  | text (c : Char)
  | variable (name default : List Char)

/-- A reference to a variable after its opening brace, and the rest after the closing one. -/
def takeReference? (cs : List Char) : Option (Atom × List Char) :=
  let name := cs.takeWhile fun c => !(c == '\x7d' || c == ':')
  match cs.dropWhile fun c => !(c == '\x7d' || c == ':') with
  | '\x7d' :: rest => some (.variable name [], rest)
  | ':' :: '-' :: rest => match rest.dropWhile (· != '\x7d') with
    | _ :: after => some (.variable name (rest.takeWhile (· != '\x7d')), after)
    | [] => none
  | _ => none

/-- The parts of a value, read with fuel of its length. -/
def atoms : Nat → List Char → List Atom
  | 0, _ | _, [] => []
  | n + 1, '$' :: '\x7b' :: cs => match takeReference? cs with
    | some (a, rest) => a :: atoms n rest
    | none => .text '$' :: atoms n ('\x7b' :: cs)
  | n + 1, c :: cs => .text c :: atoms n cs

/-- What the variables of a file stand for; one without a value is known to have none. -/
abbrev Found := Ordered String (Option String)

/-- A value with its references replaced; a variable that is not known has its default. -/
def expand (known : Found) (value : List Char) : String :=
  String.ofList ((atoms value.length value).flatMap fun
    | .text c => [c]
    | .variable name default => match known.get? (String.ofList name) with
      | some found => (found.getD "").toList
      | none => default)

/-- The entries of a file in order, read with fuel of its length. A line that cannot be read is
skipped. -/
def entries : Nat → List Char → List Entry
  | 0, _ => []
  | n + 1, cs => match cs.dropWhile Text.isBlank with
    | [] => []
    | c :: cs =>
      if c = '#' then entries n (afterLine cs)
      else match takeEntry (c :: cs) with
        | .ok (entry, rest) => entry :: entries n rest
        | .error rest => entries n (afterLine rest)

/-- The text of a file without the mark that may stand at its start, and with one kind of line
break. -/
def content (file : String) : List Char :=
  Text.unifyBreaks (match file.toList with
    | '\ufeff' :: cs => cs
    | cs => cs)

/-- The variables of a file. Values may refer to the environment and to earlier variables of the
file, which count more. -/
def parse (environment : List (String × String)) (file : String) : Found :=
  let outer : Found := environment.map fun e => (e.1, some e.2)
  let cs := content file
  (entries cs.length cs).foldl (fun found entry =>
    let known := found.foldl (fun m e => Ordered.insert m e.1 e.2) outer
    found.insert (String.ofList entry.name) (entry.value.map (expand known))) []

end EnvFile

/-- The details of an extension that are not given when it is made. -/
structure Settings where
  name : String
  author : String
  version : String
  deriving DecidableEq

namespace Settings

structure Source where
  environment : List (String × String)
  file : Option String
  overrides : List (String × Native)

def lowerName (s : String) : String :=
  String.ofList (Text.lower s.toList)

/-- The value of the last variable with a name in any case of letters. -/
def valueOf? (name : String) (vars : EnvFile.Found) : Option String :=
  (vars.reverse.find? fun e => lowerName e.1 == name).bind (·.2)

/-- The text found for one setting, or its default. An explicit value must be a text. -/
def find (s : Source) (field default : String) : Attempt String :=
  match Ordered.get? s.overrides field with
  | some (.text text) => .ok text
  | some _ => .error .invalidSetting
  | none =>
    let name := "lavendeux_" ++ field
    let environment := s.environment.map fun e => (e.1, some e.2)
    let file := EnvFile.parse s.environment (s.file.getD "")
    .ok (((valueOf? name environment).orElse fun _ => valueOf? name file).getD default)

/-- Each setting from the first source that has it: what is given, the environment, the file, and
its default. -/
def load (s : Source) : Attempt Settings := do
  let name ← find s "name" "extension"
  let author ← find s "author" ""
  let version ← find s "version" "1.0.0"
  return { name, author, version }

end Settings

end HostBridge
