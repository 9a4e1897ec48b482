import HostBridge.Json.Writer
import HostBridge.Proofs.JsonGrammar
import Mathlib.Data.List.Chain

namespace HostBridge.Json

theorem hexPadded_succ {k : Nat} (positive : 0 < k) (n : Nat) :
    Text.hexPadded (k + 1) n = Text.hexPadded k (n / 16) ++ [(n % 16).digitChar] := by
  unfold Text.hexPadded
  rcases Nat.lt_or_ge n 16 with small | large
  · obtain ⟨j, rfl⟩ := Nat.exists_eq_succ_of_ne_zero (Nat.ne_of_gt positive)
    rw [Nat.div_eq_of_lt small, Nat.mod_eq_of_lt small, Nat.toDigits_of_lt_base small]
    simp [List.replicate_succ', Nat.toDigits_of_lt_base]
  · have step := Nat.toDigits_append_toDigits (b := 16) (n := n / 16) (d := n % 16) (by decide)
      (by omega) (Nat.mod_lt n (by decide))
    rw [Nat.div_add_mod, Nat.toDigits_of_lt_base (Nat.mod_lt n (by decide))] at step
    have length : (Nat.toDigits 16 n).length = (Nat.toDigits 16 (n / 16)).length + 1 := by
      rw [← step, List.length_append, List.length_singleton]
    simp only [length, Nat.add_sub_add_right]
    rw [← step, List.append_assoc]

theorem hexPadded_four {n : Nat} (small : n < 0x10000) :
    Text.hexPadded 4 n = [(n / 16 / 16 / 16).digitChar, (n / 16 / 16 % 16).digitChar,
      (n / 16 % 16).digitChar, (n % 16).digitChar] := by
  have single : ∀ d, d < 16 → Text.hexPadded 1 d = [d.digitChar] := by decide
  rw [hexPadded_succ (by decide), hexPadded_succ (by decide), hexPadded_succ (by decide),
    single _ (by omega)]
  rfl

theorem hexPadded_spells {n : Nat} (small : n < 0x10000) : SpellsUnit (Text.hexPadded 4 n) n := by
  have value : ∀ d, d < 16 → Number.letterValue? d.digitChar = some d := by decide
  have digits : ∀ m, m % 16 < 16 := fun m => Nat.mod_lt m (by decide)
  have first : n / 16 / 16 / 16 < 16 := by omega
  rw [hexPadded_four small]
  refine ⟨rfl, [n / 16 / 16 / 16, n / 16 / 16 % 16, n / 16 % 16, n % 16], ?_, ?_, ?_⟩
  · simp [value, digits, first]
  · simp [digits, first]
  · simp only [Text.ofDigitValues, List.foldl_cons, List.foldl_nil]
    omega

theorem takeUnit_append {hex : List Char} {n : Nat} (h : SpellsUnit hex n) (rest : List Char) :
    takeUnit? (hex ++ rest) = some (n, rest) := by
  obtain ⟨four, vs, values, small, rfl⟩ := h
  match hex, four with
  | [a, b, c, d], _ =>
    have bounded : vs.all (· < 16) = true :=
      List.all_eq_true.mpr fun v hv => decide_eq_true (small v hv)
    simp only [List.cons_append, List.nil_append, takeUnit?, values, Option.bind_eq_bind,
      Option.bind_some, bounded, ↓reduceIte]

/-- What stands in place of a unit without its partner. -/
theorem loneUnit_eq_some {c : Char} {n : Nat} :
    Text.loneUnit? c = some n ↔
      (Text.isHighUnit n = true ∨ Text.isLowUnit n = true) ∧ c.toNat = 0x100000 + n := by
  simp only [Text.loneUnit?, Option.ite_none_right_eq_some, Option.some.injEq, Bool.or_eq_true]
  constructor
  · rintro ⟨unit, place⟩
    rw [place] at unit
    refine ⟨unit, ?_⟩
    simp only [Text.isHighUnit, Text.isLowUnit, Bool.and_eq_true, decide_eq_true_eq] at unit
    omega
  · rintro ⟨unit, place⟩
    have back : c.toNat - 0x100000 = n := by omega
    rw [back]
    exact ⟨unit, rfl⟩

theorem unit_bounds {n : Nat} (unit : Text.isHighUnit n = true ∨ Text.isLowUnit n = true) :
    0xd800 ≤ n ∧ n < 0xe000 := by
  simp only [Text.isHighUnit, Text.isLowUnit, Bool.and_eq_true, decide_eq_true_eq] at unit
  omega

theorem standIn_loneUnit {c : Char} {n : Nat} (h : Text.loneUnit? c = some n) :
    Text.standIn n = c := by
  rw [Text.standIn, ← (loneUnit_eq_some.mp h).2, Char.ofNat_toNat]

/-- A character is no unit of a pair. -/
theorem toNat_not_unit (c : Char) :
    Text.isHighUnit c.toNat = false ∧ Text.isLowUnit c.toNat = false := by
  have valid : c.toNat < 0xd800 ∨ 0xdfff < c.toNat ∧ c.toNat < 0x110000 := c.valid
  simp only [Text.isHighUnit, Text.isLowUnit, Bool.and_eq_false_iff, decide_eq_false_iff_not]
  omega

/-- A text in which neighbours that form a pair are merged, from the left. -/
def mergePairs (pair : Char → Char → Option Char) : List Char → List Char
  | c :: d :: cs =>
    match pair c d with
    | some p => p :: mergePairs pair cs
    | none => c :: mergePairs pair (d :: cs)
  | cs => cs

theorem mergePairs_pair {pair : Char → Char → Option Char} {c d p : Char}
    (paired : pair c d = some p) (cs : List Char) :
    mergePairs pair (c :: d :: cs) = p :: mergePairs pair cs := by
  rw [mergePairs, paired]

theorem mergePairs_single {pair : Char → Char → Option Char} {c d : Char}
    (single : pair c d = none) (cs : List Char) :
    mergePairs pair (c :: d :: cs) = c :: mergePairs pair (d :: cs) := by
  rw [mergePairs, single]

theorem mergePairs_apart {pair : Char → Char → Option Char} {cs : List Char}
    (h : cs.IsChain fun c d => pair c d = none) : mergePairs pair cs = cs := by
  fun_induction mergePairs pair cs with
  | case1 c d cs p paired ih =>
    have apart := (List.isChain_cons_cons.mp h).1
    rw [paired] at apart
    cases apart
  | case2 c d cs single ih => rw [ih (List.isChain_cons_cons.mp h).2]
  | case3 cs short => rfl

/-- The character of a high and a low stand-in. -/
def pair? (c d : Char) : Option Char := do
  let high ← Text.loneUnit? c
  let low ← Text.loneUnit? d
  if Text.isHighUnit high && Text.isLowUnit low then some (Text.pairChar high low) else none

/-- No unit stands right before its partner. -/
def Apart (cs : List Char) : Prop :=
  cs.IsChain fun c d => pair? c d = none

instance (cs : List Char) : Decidable (Apart cs) :=
  inferInstanceAs (Decidable (cs.IsChain _))

/-- The characters that are read where units may be escaped: a high and a low stand-in side by side
become one. -/
def reread (ascii : Bool) (cs : List Char) : List Char :=
  if ascii then mergePairs pair? cs else cs

theorem reread_apart {ascii : Bool} {cs : List Char} (h : ascii = true → Apart cs) :
    reread ascii cs = cs := by
  cases ascii with
  | false => rfl
  | true => exact mergePairs_apart (h rfl)

/-- No escaped low unit stands at the start of a text, nor a broken one. -/
def NoPartner (rest : List Char) : Prop :=
  ∀ cs, rest = '\\' :: 'u' :: cs →
    ∃ unit after, takeUnit? cs = some (unit, after) ∧ Text.isLowUnit unit = false

theorem takeEscapedUnit_plain {hex : List Char} {n : Nat} (unit : SpellsUnit hex n)
    (high : Text.isHighUnit n = false) (low : Text.isLowUnit n = false) (rest : List Char) :
    takeEscapedUnit? (hex ++ rest) = some (Char.ofNat n, rest) := by
  simp only [takeEscapedUnit?, takeUnit_append unit, high, low, Option.bind_eq_bind,
    Option.bind_some, Bool.false_eq_true, ↓reduceIte]

theorem takeEscapedUnit_lone {c : Char} {n : Nat} (lone : Text.loneUnit? c = some n)
    {rest : List Char} (apart : Text.isHighUnit n = true → NoPartner rest) :
    takeEscapedUnit? (Text.hexPadded 4 n ++ rest) = some (c, rest) := by
  have unit := (loneUnit_eq_some.mp lone).1
  have small : n < 0x10000 := Nat.lt_trans (unit_bounds unit).2 (by decide)
  simp only [takeEscapedUnit?, takeUnit_append (hexPadded_spells small), Option.bind_eq_bind,
    Option.bind_some, standIn_loneUnit lone]
  cases high : Text.isHighUnit n with
  | false =>
    have low : Text.isLowUnit n = true := unit.resolve_left (by simp [high])
    simp only [low, Bool.false_eq_true, ↓reduceIte]
  | true =>
    simp only [↓reduceIte]
    split
    · rename_i cs
      obtain ⟨unit, after, read, low⟩ := apart high cs rfl
      simp only [read, Option.bind_some, low, Bool.false_eq_true, ↓reduceIte]
    · rfl

theorem takeEscapedUnit_pair {hex more : List Char} {high low : Nat}
    (first : SpellsUnit hex high) (second : SpellsUnit more low)
    (hh : Text.isHighUnit high = true) (hl : Text.isLowUnit low = true) (rest : List Char) :
    takeEscapedUnit? (hex ++ '\\' :: 'u' :: (more ++ rest)) =
      some (Text.pairChar high low, rest) := by
  simp only [takeEscapedUnit?, takeUnit_append first, takeUnit_append second, Option.bind_eq_bind,
    Option.bind_some, hh, hl, ↓reduceIte]

/-- The units of a pair have four digits each. -/
theorem spellsUnit_pair {high low : Nat} (hh : Text.isHighUnit high = true)
    (hl : Text.isLowUnit low = true) :
    SpellsUnit (Text.hexPadded 4 high) high ∧ SpellsUnit (Text.hexPadded 4 low) low :=
  ⟨hexPadded_spells (Nat.lt_trans (unit_bounds (.inl hh)).2 (by decide)),
    hexPadded_spells (Nat.lt_trans (unit_bounds (.inr hl)).2 (by decide))⟩

/-- A text is read as one character of a string before the given rest. -/
def Reads (text : List Char) (c : Char) (rest : List Char) : Prop :=
  ∀ n read after, readString n rest = .ok (read, after) →
    readString (n + 1) (text ++ rest) = .ok (c :: read, after)

theorem reads_escapedUnit {cs rest : List Char} {c : Char}
    (taken : takeEscapedUnit? (cs ++ rest) = some (c, rest)) :
    Reads ('\\' :: 'u' :: cs) c rest := by
  intro n read after h
  simp only [List.cons_append, readString, taken, h]
  rfl

theorem reads_escape {d c : Char} (meaning : escape? d = some c) (other : d ≠ 'u')
    (rest : List Char) : Reads ['\\', d] c rest := by
  intro n read after h
  simp [readString, meaning, h]

theorem reads_plain {c : Char} (visible : 0x20 ≤ c.toNat) (unquoted : c ≠ '"')
    (unescaped : c ≠ '\\') (rest : List Char) : Reads [c] c rest := by
  intro n read after h
  simp [readString, unescaped, Nat.not_lt.mpr visible, h]

/-- The units of a character that is no stand-in: itself, or a high and a low one. -/
theorem units_cases (c : Char) :
    Text.units c = [c.toNat] ∧ c.toNat < 0x10000 ∨
    ∃ high low, Text.units c = [high, low] ∧ Text.isHighUnit high = true ∧
      Text.isLowUnit low = true ∧ Text.pairChar high low = c := by
  unfold Text.units
  dsimp only
  split
  · rename_i small
    exact .inl ⟨rfl, small⟩
  · rename_i large
    have bound : c.toNat < 0x110000 := by
      have valid : c.toNat < 0xd800 ∨ 0xdfff < c.toNat ∧ c.toNat < 0x110000 := c.valid
      omega
    refine .inr ⟨_, _, rfl, ?_, ?_, ?_⟩
    · simp only [Text.isHighUnit, Bool.and_eq_true, decide_eq_true_eq]
      omega
    · simp only [Text.isLowUnit, Bool.and_eq_true, decide_eq_true_eq]
      omega
    · have value : 0x10000 + (0xd800 + (c.toNat - 0x10000) / 0x400 - 0xd800) * 0x400 +
          (0xdc00 + (c.toNat - 0x10000) % 0x400 - 0xdc00) = c.toNat := by omega
      rw [Text.pairChar, value, Char.ofNat_toNat]

theorem charEscape_lone {c : Char} {n : Nat} (lone : Text.loneUnit? c = some n) :
    charEscape c = unitEscape n := by
  rw [charEscape, lone, Option.elim_some, List.flatMap_cons, List.flatMap_nil, List.append_nil]

theorem charEscape_whole {c : Char} (whole : Text.loneUnit? c = none) :
    charEscape c = (Text.units c).flatMap unitEscape := by
  rw [charEscape, whole, Option.elim_none]

theorem reads_charEscape {c : Char} {rest : List Char}
    (apart : ∀ n, Text.loneUnit? c = some n → Text.isHighUnit n = true → NoPartner rest) :
    Reads (charEscape c) c rest := by
  cases lone : Text.loneUnit? c with
  | some n =>
    rw [charEscape_lone lone]
    exact reads_escapedUnit (takeEscapedUnit_lone lone (apart n lone))
  | none =>
    rw [charEscape_whole lone]
    rcases units_cases c with ⟨single, small⟩ | ⟨high, low, pair, hh, hl, back⟩
    · obtain ⟨not_high, not_low⟩ := toNat_not_unit c
      have taken := takeEscapedUnit_plain (hexPadded_spells small) not_high not_low rest
      rw [Char.ofNat_toNat] at taken
      simp only [single, List.flatMap_cons, List.flatMap_nil, List.append_nil]
      exact reads_escapedUnit taken
    · obtain ⟨first, second⟩ := spellsUnit_pair hh hl
      have taken := takeEscapedUnit_pair first second hh hl rest
      rw [back, ← List.cons_append, ← List.cons_append, ← List.append_assoc] at taken
      simp only [pair, List.flatMap_cons, List.flatMap_nil, List.append_nil]
      exact reads_escapedUnit taken

/-- A character stands in a string as a short escape, by its units, or as it is. -/
theorem stringChar_cases (ascii : Bool) (c : Char) :
    (∃ d, stringChar ascii c = ['\\', d] ∧ escape? d = some c ∧ c.toNat < 0x7f) ∨
    (stringChar ascii c = charEscape c ∧ (c.toNat < 0x20 ∨ ascii = true)) ∨
    (stringChar ascii c = [c] ∧ 0x20 ≤ c.toNat ∧ c ≠ '"' ∧ c ≠ '\\' ∧
      (ascii = true → c.toNat < 0x7f)) := by
  unfold stringChar
  by_cases quoted : c = '"' ∨ c = '\\'
  · rw [if_pos quoted]
    rcases quoted with rfl | rfl <;> exact .inl ⟨_, rfl, rfl, by decide⟩
  · obtain ⟨unquoted, unescaped⟩ := not_or.mp quoted
    rw [if_neg quoted]
    repeat
      split
      · subst c
        exact .inl ⟨_, rfl, rfl, by decide⟩
    split
    · rename_i escaped
      exact .inr (.inl ⟨rfl, escaped.imp_right And.left⟩)
    · rename_i plain
      obtain ⟨visible, plain⟩ := not_or.mp plain
      exact .inr (.inr ⟨rfl, Nat.not_lt.mp visible, unquoted, unescaped,
        fun ascii => Nat.not_le.mp fun high => plain ⟨ascii, high⟩⟩)

theorem stringChar_lone {c : Char} {n : Nat} (lone : Text.loneUnit? c = some n) :
    stringChar true c = unitEscape n := by
  have place := (loneUnit_eq_some.mp lone).2
  rcases stringChar_cases true c with ⟨d, _, _, low⟩ | ⟨text, _⟩ | ⟨_, _, _, _, low⟩
  · omega
  · rw [text, charEscape_lone lone]
  · have := low rfl
    omega

theorem reads_stringChar {ascii : Bool} {c : Char} {rest : List Char}
    (apart : ascii = true → ∀ n, Text.loneUnit? c = some n → Text.isHighUnit n = true →
      NoPartner rest) : Reads (stringChar ascii c) c rest := by
  rcases stringChar_cases ascii c with ⟨d, text, meaning, _⟩ | ⟨text, escaped⟩ |
    ⟨text, visible, unquoted, unescaped, _⟩
  · have other : d ≠ 'u' := by
      rintro rfl
      cases meaning
    rw [text]
    exact reads_escape meaning other rest
  · rw [text]
    refine reads_charEscape fun n lone high => ?_
    rcases escaped with control | ascii
    · have place := (loneUnit_eq_some.mp lone).2
      omega
    · exact apart ascii n lone high
  · rw [text]
    exact reads_plain visible unquoted unescaped rest

/-- The units that a character is escaped with; only a low stand-in begins with a low one. -/
theorem charEscape_units (c : Char) :
    ∃ first others, charEscape c = (first :: others).flatMap unitEscape ∧
      (∀ n ∈ first :: others, n < 0x10000) ∧
      ((∀ n, Text.loneUnit? c = some n → Text.isLowUnit n = false) →
        Text.isLowUnit first = false) := by
  cases lone : Text.loneUnit? c with
  | some n =>
    have bounds := unit_bounds (loneUnit_eq_some.mp lone).1
    refine ⟨n, [], by rw [charEscape, lone]; rfl, ?_, fun apart => apart n rfl⟩
    exact List.forall_mem_singleton.mpr (Nat.lt_trans bounds.2 (by decide))
  | none =>
    rw [charEscape_whole lone]
    rcases units_cases c with ⟨single, small⟩ | ⟨high, low, pair, hh, hl, _⟩
    · exact ⟨_, _, by rw [single], List.forall_mem_singleton.mpr small,
        fun _ => (toNat_not_unit c).2⟩
    · have high_bounds := unit_bounds (.inl hh)
      have low_bounds := unit_bounds (.inr hl)
      refine ⟨_, _, by rw [pair], ?_, fun _ => ?_⟩
      · simp only [List.mem_cons, List.not_mem_nil, or_false]
        rintro n (rfl | rfl) <;> omega
      · simp only [Text.isHighUnit, Bool.and_eq_true, decide_eq_true_eq] at hh
        simp only [Text.isLowUnit, Bool.and_eq_false_iff, decide_eq_false_iff_not]
        omega

theorem noPartner_stringChar {ascii : Bool} {c : Char}
    (apart : ∀ n, Text.loneUnit? c = some n → Text.isLowUnit n = false) (rest : List Char) :
    NoPartner (stringChar ascii c ++ rest) := by
  intro cs same
  rcases stringChar_cases ascii c with
    ⟨d, text, meaning, _⟩ | ⟨text, _⟩ | ⟨text, _, _, unescaped, _⟩
  · rw [text] at same
    cases same
    cases meaning
  · obtain ⟨first, others, units, small, low⟩ := charEscape_units c
    rw [text, units, List.flatMap_cons] at same
    simp only [unitEscape, List.cons_append, List.append_assoc, List.cons.injEq, true_and] at same
    rw [← same]
    have unit := hexPadded_spells (small first List.mem_cons_self)
    exact ⟨first, _, takeUnit_append unit _, low apart⟩
  · rw [text] at same
    cases same
    exact absurd rfl unescaped

theorem noPartner_quote (rest : List Char) : NoPartner ('"' :: rest) := by
  intro cs same
  cases same

theorem stringChar_length (ascii : Bool) (c : Char) : 0 < (stringChar ascii c).length := by
  rcases stringChar_cases ascii c with ⟨d, text, _⟩ | ⟨text, _⟩ | ⟨text, _⟩
  · rw [text]
    exact Nat.succ_pos _
  · obtain ⟨first, others, units, _⟩ := charEscape_units c
    rw [text, units]
    exact Nat.succ_pos _
  · rw [text]
    exact Nat.succ_pos _

/-- Reading one character before a string that is read. -/
theorem Reads.readString {text : List Char} {c : Char} {rest read after : List Char} {n : Nat}
    (h : Reads text c rest) (text_length : 0 < text.length) (fuel : (text ++ rest).length ≤ n)
    (next : ∀ m, rest.length ≤ m → readString m rest = .ok (read, after)) :
    readString n (text ++ rest) = .ok (c :: read, after) := by
  rw [List.length_append] at fuel
  obtain ⟨m, rfl⟩ := Nat.exists_eq_succ_of_ne_zero (by omega : n ≠ 0)
  exact h m read after (next m (by omega))

theorem readString_quote (rest : List Char) {n : Nat} (fuel : ('"' :: rest).length ≤ n) :
    readString n ('"' :: rest) = .ok ([], rest) := by
  obtain ⟨m, rfl⟩ := Nat.exists_eq_succ_of_ne_zero (Nat.ne_zero_of_lt fuel)
  rfl

/-- Every string of the grammar is read as what it spells. -/
theorem readString_append {cs ds : List Char} (h : SpellsChars cs ds) (rest : List Char) {n : Nat}
    (fuel : (cs ++ '"' :: rest).length ≤ n) :
    readString n (cs ++ '"' :: rest) = .ok (ds, rest) := by
  induction h generalizing n with
  | nil => exact readString_quote rest fuel
  | plain visible unquoted unescaped _ ih =>
    exact (reads_plain visible unquoted unescaped _).readString (Nat.succ_pos _) fuel fun m => ih
  | @letter e c cs ds meaning _ ih =>
    have other : e ≠ 'u' := by
      rintro rfl
      cases meaning
    exact (reads_escape meaning other _).readString (Nat.succ_pos _) fuel fun m => ih
  | @unit n hex cs ds unit high low _ ih =>
    have text : '\\' :: 'u' :: (hex ++ cs) ++ '"' :: rest =
        '\\' :: 'u' :: hex ++ (cs ++ '"' :: rest) := by simp
    have taken := takeEscapedUnit_plain unit high low (cs ++ '"' :: rest)
    rw [text] at fuel ⊢
    exact (reads_escapedUnit taken).readString (Nat.succ_pos _) fuel fun m => ih
  | @pair m n hex more cs ds first second high low _ ih =>
    have text : '\\' :: 'u' :: (hex ++ '\\' :: 'u' :: (more ++ cs)) ++ '"' :: rest =
        '\\' :: 'u' :: (hex ++ '\\' :: 'u' :: more) ++ (cs ++ '"' :: rest) := by simp
    have taken := takeEscapedUnit_pair first second high low (cs ++ '"' :: rest)
    rw [← List.cons_append, ← List.cons_append, ← List.append_assoc] at taken
    rw [text] at fuel ⊢
    exact (reads_escapedUnit taken).readString (Nat.succ_pos _) fuel fun m => ih

theorem charEscape_spells {c : Char} (whole : Text.loneUnit? c = none) {cs ds : List Char}
    (rest : SpellsChars cs ds) : SpellsChars (charEscape c ++ cs) (c :: ds) := by
  rw [charEscape_whole whole]
  rcases units_cases c with ⟨single, small⟩ | ⟨high, low, pair, hh, hl, back⟩
  · obtain ⟨not_high, not_low⟩ := toNat_not_unit c
    have spelled := SpellsChars.unit (hexPadded_spells small) not_high not_low rest
    rw [Char.ofNat_toNat] at spelled
    simpa [single, unitEscape] using spelled
  · obtain ⟨first, second⟩ := spellsUnit_pair hh hl
    have spelled := SpellsChars.pair first second hh hl rest
    rw [back] at spelled
    simpa [pair, unitEscape] using spelled

/-- Characters that are not forced into ASCII are written as a string of the grammar. -/
theorem stringChars_spells (cs : List Char) : SpellsChars (stringChars false cs) cs := by
  induction cs with
  | nil => exact .nil
  | cons c cs ih =>
    rw [stringChars, List.flatMap_cons]
    rcases stringChar_cases false c with ⟨d, text, meaning, _⟩ | ⟨text, escaped⟩ |
      ⟨text, visible, unquoted, unescaped, _⟩
    · rw [text]
      exact .letter meaning ih
    · have control : c.toNat < 0x20 := escaped.resolve_right Bool.false_ne_true
      have whole : Text.loneUnit? c = none := by
        refine Option.eq_none_iff_forall_ne_some.mpr fun n lone => ?_
        have place := (loneUnit_eq_some.mp lone).2
        omega
      rw [text]
      exact charEscape_spells whole ih
    · rw [text]
      exact .plain visible unquoted unescaped ih

theorem readString_plain (cs rest : List Char) {n : Nat}
    (fuel : (stringChars false cs ++ '"' :: rest).length ≤ n) :
    readString n (stringChars false cs ++ '"' :: rest) = .ok (cs, rest) :=
  readString_append (stringChars_spells cs) rest fuel

theorem pair_eq_some {c d p : Char} (h : pair? c d = some p) :
    ∃ high low, Text.loneUnit? c = some high ∧ Text.loneUnit? d = some low ∧
      Text.isHighUnit high = true ∧ Text.isLowUnit low = true ∧ Text.pairChar high low = p := by
  simp only [pair?, Option.bind_eq_bind, Option.bind_eq_some_iff, Option.ite_none_right_eq_some,
    Bool.and_eq_true, Option.some.injEq] at h
  obtain ⟨high, hc, low, hd, ⟨hh, hl⟩, same⟩ := h
  exact ⟨high, low, hc, hd, hh, hl, same⟩

theorem pair_of_units {c d : Char} {high low : Nat} (hc : Text.loneUnit? c = some high)
    (hd : Text.loneUnit? d = some low) (hh : Text.isHighUnit high = true)
    (hl : Text.isLowUnit low = true) : pair? c d = some (Text.pairChar high low) := by
  simp only [pair?, hc, hd, hh, hl, Option.bind_eq_bind, Option.bind_some, Bool.and_self,
    ↓reduceIte]

theorem readString_escaped (cs rest : List Char) {n : Nat}
    (fuel : (stringChars true cs ++ '"' :: rest).length ≤ n) :
    readString n (stringChars true cs ++ '"' :: rest) = .ok (mergePairs pair? cs, rest) := by
  induction cs using mergePairs.induct pair? generalizing n with
  | case1 c d cs p paired ih =>
    rw [mergePairs_pair paired]
    obtain ⟨high, low, hc, hd, hh, hl, rfl⟩ := pair_eq_some paired
    have text : stringChars true (c :: d :: cs) ++ '"' :: rest =
        (unitEscape high ++ unitEscape low) ++ (stringChars true cs ++ '"' :: rest) := by
      simp only [stringChars, List.flatMap_cons, stringChar_lone hc, stringChar_lone hd,
        List.append_assoc]
    rw [text] at fuel ⊢
    refine Reads.readString (reads_escapedUnit ?_) (Nat.succ_pos _) fuel fun m => ih
    obtain ⟨first, second⟩ := spellsUnit_pair hh hl
    rw [List.append_eq, List.append_assoc]
    exact takeEscapedUnit_pair first second hh hl _
  | case2 c d cs single ih =>
    rw [mergePairs_single single]
    rw [stringChars, List.flatMap_cons, List.append_assoc] at fuel ⊢
    refine Reads.readString (reads_stringChar fun _ high hc hh => ?_) (stringChar_length true c)
      fuel fun m => ih
    rw [List.flatMap_cons, List.append_assoc]
    refine noPartner_stringChar (fun low hd => ?_) _
    cases hl : Text.isLowUnit low with
    | false => rfl
    | true =>
      rw [pair_of_units hc hd hh hl] at single
      cases single
  | case3 cs short =>
    match cs with
    | [] => exact readString_quote rest fuel
    | [c] =>
      rw [stringChars, List.flatMap_cons, List.append_assoc] at fuel ⊢
      refine Reads.readString (reads_stringChar fun _ _ _ _ => noPartner_quote rest)
        (stringChar_length true c) fuel fun m hm => readString_quote rest hm
    | c :: d :: cs => exact (short c d cs rfl).elim

/-- A string is read as its characters, but for units that join where all are escaped. -/
theorem readString_written (ascii : Bool) (cs rest : List Char) {n : Nat}
    (fuel : (stringChars ascii cs ++ '"' :: rest).length ≤ n) :
    readString n (stringChars ascii cs ++ '"' :: rest) = .ok (reread ascii cs, rest) := by
  cases ascii with
  | false => exact readString_plain cs rest fuel
  | true => exact readString_escaped cs rest fuel

theorem unitEscape_line {n : Nat} (small : n < 0x10000) : '\n' ∉ unitEscape n := by
  have digit : ∀ d, d < 16 → '\n' ≠ d.digitChar := by decide
  have digits : ∀ m, '\n' ≠ (m % 16).digitChar := fun m => digit _ (Nat.mod_lt m (by decide))
  have first : '\n' ≠ (n / 16 / 16 / 16).digitChar := digit _ (by omega)
  rw [unitEscape, hexPadded_four small]
  simp [digits, first]

theorem stringChar_line (ascii : Bool) (c : Char) : '\n' ∉ stringChar ascii c := by
  rcases stringChar_cases ascii c with ⟨d, text, meaning, _⟩ | ⟨text, _⟩ | ⟨text, visible, _⟩
  · have other : d ≠ '\n' := by
      rintro rfl
      cases meaning
    simp [text, other.symm]
  · obtain ⟨first, others, units, small, _⟩ := charEscape_units c
    rw [text, units]
    intro broken
    obtain ⟨n, hn, inside⟩ := List.mem_flatMap.mp broken
    exact unitEscape_line (small n hn) inside
  · rw [text, List.mem_singleton]
    rintro rfl
    exact absurd visible (by decide)

theorem stringChars_line (ascii : Bool) (cs : List Char) : '\n' ∉ stringChars ascii cs := by
  intro broken
  obtain ⟨c, _, inside⟩ := List.mem_flatMap.mp broken
  exact stringChar_line ascii c inside

end HostBridge.Json
