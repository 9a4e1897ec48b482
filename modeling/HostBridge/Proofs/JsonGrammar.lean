import HostBridge.Json.Reader
import HostBridge.Proofs.NumberText

namespace HostBridge.Json

/-- Digits, with no needless zero in front. -/
structure IsWhole (ds : List Char) : Prop where
  digits : ∀ c ∈ ds, c.isDigit
  leading : ds = ['0'] ∨ ∃ c cs, ds = c :: cs ∧ c ≠ '0'

/-- A point and digits, or nothing. -/
inductive IsFraction : List Char → Prop
  | none : IsFraction []
  | some {ds : List Char} (digits : ∀ c ∈ ds, c.isDigit) (some_left : ds ≠ []) :
      IsFraction ('.' :: ds)

/-- The mark of a power of ten, a sign where there is one, and digits; or nothing. -/
inductive IsPower : List Char → Prop
  | none : IsPower []
  | some {e : Char} {sign ds : List Char} (mark : e = 'e' ∨ e = 'E')
      (signs : sign = [] ∨ sign = ['+'] ∨ sign = ['-']) (digits : ∀ c ∈ ds, c.isDigit)
      (some_left : ds ≠ []) : IsPower (e :: (sign ++ ds))

/-- What digits spell behind a sign: a whole number, or the nearest double where there is a point
or a power. -/
inductive SpellsNumber (negative : Bool) : List Char → Native → Prop
  | whole {ds : List Char} (whole : IsWhole ds) :
      SpellsNumber negative ds
        (.int (if negative then -(Nat.ofDigitChars 10 ds 0 : Int) else Nat.ofDigitChars 10 ds 0))
  | decimal {ds fraction power : List Char} {n : Numeral} (whole : IsWhole ds)
      (pointed : IsFraction fraction) (powered : IsPower power)
      (marked : fraction ≠ [] ∨ power ≠ [])
      (numeral : Numeral.ofChars? (ds ++ fraction ++ power) = some n) :
      SpellsNumber negative (ds ++ fraction ++ power) (.float { n with negative }.toFloat)

/-- Four hexadecimal digits, in either case, that are the number of a code unit. -/
def SpellsUnit (cs : List Char) (n : Nat) : Prop :=
  cs.length = 4 ∧ ∃ vs, cs.mapM Number.letterValue? = some vs ∧ (∀ v ∈ vs, v < 16) ∧
    Text.ofDigitValues 16 vs = n

/-- What the characters between two quotes spell. A character stands for itself or is escaped: by a
letter, by its unit, or by the two units of its pair. -/
inductive SpellsChars : List Char → List Char → Prop
  | nil : SpellsChars [] []
  | plain {c : Char} {cs ds : List Char} (visible : 0x20 ≤ c.toNat) (unquoted : c ≠ '"')
      (unescaped : c ≠ '\\') (rest : SpellsChars cs ds) : SpellsChars (c :: cs) (c :: ds)
  | letter {e c : Char} {cs ds : List Char} (meaning : escape? e = some c)
      (rest : SpellsChars cs ds) : SpellsChars ('\\' :: e :: cs) (c :: ds)
  | unit {n : Nat} {hex cs ds : List Char} (unit : SpellsUnit hex n)
      (high : Text.isHighUnit n = false) (low : Text.isLowUnit n = false)
      (rest : SpellsChars cs ds) : SpellsChars ('\\' :: 'u' :: (hex ++ cs)) (Char.ofNat n :: ds)
  | pair {m n : Nat} {hex more cs ds : List Char} (first : SpellsUnit hex m)
      (second : SpellsUnit more n) (high : Text.isHighUnit m = true)
      (low : Text.isLowUnit n = true) (rest : SpellsChars cs ds) :
      SpellsChars ('\\' :: 'u' :: (hex ++ '\\' :: 'u' :: (more ++ cs)))
        (Text.pairChar m n :: ds)

/-- An item of a list: a text and the value that it is there for, with what stands around it. -/
structure Item where
  before : List Char
  text : List Char
  after : List Char
  value : Native

/-- A member of a table: a written name and the name that it is there for, and a value. -/
structure Member where
  before : List Char
  written : List Char
  name : List Char
  after : List Char
  item : Item

namespace Item

def chars (i : Item) : List Char :=
  i.before ++ (i.text ++ i.after)

/-- Around the text there are only characters that may be in gaps. -/
def Spaced (gap : Char → Prop) (i : Item) : Prop :=
  (∀ c ∈ i.before, gap c) ∧ ∀ c ∈ i.after, gap c

end Item

namespace Member

def chars (m : Member) : List Char :=
  m.before ++ '"' :: (m.written ++ '"' :: (m.after ++ ':' :: m.item.chars))

def entry (m : Member) : Native × Native :=
  (.text (String.ofList m.name), m.item.value)

def Spaced (gap : Char → Prop) (m : Member) : Prop :=
  (∀ c ∈ m.before, gap c) ∧ (∀ c ∈ m.after, gap c) ∧ m.item.Spaced gap

end Member

/-- Texts with commas between them. -/
def separated (texts : List (List Char)) : List Char :=
  [','].intercalate texts

/-- A text and the value that it spells. Lists and tables keep the order of their parts, and no two
members of a table have one name. What may be in the gaps between the parts of a text is left
open. -/
inductive Spells (gap : Char → Prop) : List Char → Native → Prop
  | null : Spells gap "null".toList .null
  | bool (b : Bool) : Spells gap (if b then "true" else "false").toList (.bool b)
  | number (negative : Bool) {cs : List Char} {v : Native} (number : SpellsNumber negative cs v) :
      Spells gap (signChars negative ++ cs) v
  | text {cs ds : List Char} (chars : SpellsChars cs ds) :
      Spells gap ('"' :: (cs ++ ['"'])) (.text (String.ofList ds))
  | noItems {cs : List Char} (blank : ∀ c ∈ cs, gap c) :
      Spells gap ('[' :: (cs ++ [']'])) (.list [])
  | list {items : List Item} (some_left : items ≠ []) (spaced : ∀ i ∈ items, i.Spaced gap)
      (values : ∀ i ∈ items, Spells gap i.text i.value) :
      Spells gap ('[' :: (separated (items.map Item.chars) ++ [']'])) (.list (items.map Item.value))
  | noMembers {cs : List Char} (blank : ∀ c ∈ cs, gap c) :
      Spells gap ('\x7b' :: (cs ++ ['\x7d'])) (.table [])
  | table {members : List Member} (some_left : members ≠ [])
      (spaced : ∀ m ∈ members, m.Spaced gap) (names : ∀ m ∈ members, SpellsChars m.written m.name)
      (values : ∀ m ∈ members, Spells gap m.item.text m.item.value)
      (distinct : Ordered.Distinct (members.map Member.entry)) :
      Spells gap ('\x7b' :: (separated (members.map Member.chars) ++ ['\x7d']))
        (.table (members.map Member.entry))

/-- A text with no blanks but those that belong to its strings, and the value that it spells. -/
def Compact (text : String) (v : Native) : Prop :=
  Spells (fun _ => False) text.toList v

/-- A JSON text, where blanks may be around every part, and the value that it spells. -/
def Means (text : String) (v : Native) : Prop :=
  ∃ i : Item, i.chars = text.toList ∧ i.value = v ∧ i.Spaced (isSpace · = true) ∧
    Spells (isSpace · = true) i.text i.value

theorem IsWhole.begins {ds : List Char} (h : IsWhole ds) : ∃ c cs, ds = c :: cs ∧ c.isDigit := by
  rcases h.leading with rfl | ⟨c, cs, rfl, _⟩
  · exact ⟨'0', [], rfl, by decide⟩
  · exact ⟨c, cs, rfl, h.digits c List.mem_cons_self⟩

/-- What is spelled is meant, with nothing around it. -/
theorem Means.ofSpells {text : String} {v : Native}
    (h : Spells (isSpace · = true) text.toList v) : Means text v :=
  ⟨⟨[], text.toList, [], v⟩, List.append_nil _, rfl, ⟨nofun, nofun⟩, h⟩

theorem separated_single (text : List Char) : separated [text] = text :=
  List.intercalate_singleton

theorem separated_cons (text next : List Char) (texts : List (List Char)) :
    separated (text :: next :: texts) = text ++ ',' :: separated (next :: texts) := by
  rw [separated, List.intercalate_cons_cons, List.append_assoc]
  rfl

end HostBridge.Json
