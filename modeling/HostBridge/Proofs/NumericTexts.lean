import HostBridge.Coercion
import HostBridge.Proofs.AsciiCase
import HostBridge.Proofs.NumeralGrammar
import HostBridge.Proofs.Rounding
import Mathlib.Tactic.IntervalCases

namespace HostBridge

open Text (DigitOf Digits)

namespace Numeral

/-- The exact value of a numeral, without its sign. -/
def value (n : Numeral) : ℚ :=
  (Nat.ofDigits 10 (n.whole ++ n.fraction.getD []).reverse : Nat) *
    10 ^ (n.power - (n.fraction.getD []).length)

theorem toFloat_rounded (n : Numeral) :
    Binary64.Rounded n.negative (n.value * Binary64.unitsPerOne) n.toFloat := by
  have exact : n.toDecimal.value = n.value := by
    rw [Decimal.value, value, toDecimal, Text.ofDigitValues_eq]
  rw [← exact]
  exact Decimal.nearest_rounded n.negative n.toDecimal

end Numeral

namespace Number

/-- The letter that announces a base, in either case. -/
inductive Base : Char → Nat → Prop
  | hexadecimal {c : Char} (mark : c = 'x' ∨ c = 'X') : Base c 16
  | octal {c : Char} (mark : c = 'o' ∨ c = 'O') : Base c 8
  | binary {c : Char} (mark : c = 'b' ∨ c = 'B') : Base c 2

/-- A digit of a base, in either case, and its value. -/
def BaseDigit (base : Nat) (c : Char) (v : Nat) : Prop :=
  v < base ∧ (c = v.digitChar ∨ c = v.digitChar.toUpper)

/-- The text of a whole number of a base, without a sign. -/
inductive Radix : List Char → Nat → Prop
  | mk {c : Char} {base : Nat} {ds : List Char} {vs : List Nat} (mark : Base c base)
      (digits : List.Forall₂ (BaseDigit base) ds vs) (some_left : ds ≠ []) :
      Radix ('0' :: c :: ds) (Nat.ofDigits base vs.reverse)

/-- The names of the infinities. -/
inductive Infinity : List Char → Bool → Prop
  | bare : Infinity "Infinity".toList false
  | plus : Infinity "+Infinity".toList false
  | minus : Infinity "-Infinity".toList true

theorem baseOf_iff {c : Char} {base : Nat} : baseOf? c = some base ↔ Base c base := by
  unfold baseOf?
  constructor
  · intro h
    split at h
    · cases h
      exact .hexadecimal ‹_›
    · split at h
      · cases h
        exact .octal ‹_›
      · split at h
        · cases h
          exact .binary ‹_›
        · cases h
  · rintro (mark | mark | mark) <;> rcases mark with rfl | rfl <;> rfl

theorem letterValue_iff {c : Char} {v : Nat} (small : v < 16) :
    letterValue? c = some v ↔ c = v.digitChar ∨ c = v.digitChar.toUpper := by
  constructor
  · intro h
    have place : c.toNat = 0x30 + v ∧ v < 10 ∨ c.toNat = 0x37 + v ∧ 10 ≤ v ∨
        c.toNat = 0x57 + v ∧ 10 ≤ v := by
      simp only [letterValue?] at h
      split at h
      · cases h
        omega
      · split at h
        · cases h
          omega
        · split at h
          · cases h
            omega
          · cases h
    have same := Char.ofNat_toNat c
    rcases place with ⟨place, _⟩ | ⟨place, _⟩ | ⟨place, _⟩
    all_goals
      rw [place] at same
      subst same
      interval_cases v <;> decide
  · rintro (rfl | rfl) <;> interval_cases v <;> rfl

theorem mapM_letterValue {cs : List Char} {vs : List Nat} :
    cs.mapM letterValue? = some vs ↔
      List.Forall₂ (fun c v => letterValue? c = some v) cs vs := by
  induction cs generalizing vs with
  | nil =>
    rw [List.mapM_nil, List.forall₂_nil_left_iff]
    exact ⟨fun h => (Option.some.inj h).symm, fun h => congrArg some h.symm⟩
  | cons c cs ih =>
    rw [List.mapM_cons, List.forall₂_cons_left_iff]
    simp only [Option.bind_eq_bind, Option.bind_eq_some_iff, Option.pure_def, Option.some.injEq,
      ih]
    constructor
    · rintro ⟨v, hv, vs, rest, rfl⟩
      exact ⟨v, vs, hv, rest, rfl⟩
    · rintro ⟨v, vs, hv, rest, rfl⟩
      exact ⟨v, hv, vs, rest, rfl⟩

theorem Base.le {c : Char} {base : Nat} (h : Base c base) : base ≤ 16 := by
  cases h <;> decide

theorem baseDigits_iff {base : Nat} (small : base ≤ 16) {cs : List Char} {vs : List Nat} :
    cs.mapM letterValue? = some vs ∧ (∀ v ∈ vs, v < base) ↔
      List.Forall₂ (BaseDigit base) cs vs := by
  rw [mapM_letterValue]
  constructor
  · rintro ⟨values, within⟩
    induction values with
    | nil => exact .nil
    | cons value _ ih =>
      obtain ⟨first, rest⟩ := List.forall_mem_cons.mp within
      exact .cons ⟨first, (letterValue_iff (by omega)).mp value⟩ (ih rest)
  · intro h
    induction h with
    | nil => exact ⟨.nil, List.forall_mem_nil _⟩
    | cons digit _ ih =>
      obtain ⟨first, figure⟩ := digit
      exact ⟨.cons ((letterValue_iff (by omega)).mpr figure) ih.1,
        List.forall_mem_cons.mpr ⟨first, ih.2⟩⟩

theorem readBase_iff {base : Nat} (small : base ≤ 16) {cs : List Char} {n : Nat} :
    readBase? base cs = some n ↔
      ∃ vs, List.Forall₂ (BaseDigit base) cs vs ∧ cs ≠ [] ∧ n = Nat.ofDigits base vs.reverse := by
  have filled {vs : List Nat} (digits : List.Forall₂ (BaseDigit base) cs vs) :
      vs.isEmpty = false ↔ cs ≠ [] := by
    cases digits <;> simp
  simp only [readBase?, Option.bind_eq_bind, Option.bind_eq_some_iff, Text.ofDigitValues_eq]
  refine exists_congr fun vs => ?_
  constructor
  · rintro ⟨values, h⟩
    split at h
    · rename_i fit
      cases h
      simp only [Bool.and_eq_true, Bool.not_eq_true', List.all_eq_true, decide_eq_true_eq] at fit
      have digits := (baseDigits_iff small).mp ⟨values, fit.2⟩
      exact ⟨digits, (filled digits).mp fit.1, rfl⟩
    · cases h
  · rintro ⟨digits, some_left, rfl⟩
    obtain ⟨values, within⟩ := (baseDigits_iff small).mpr digits
    refine ⟨values, if_pos ?_⟩
    simp only [Bool.and_eq_true, Bool.not_eq_true', List.all_eq_true, decide_eq_true_eq]
    exact ⟨(filled digits).mpr some_left, within⟩

theorem readRadix_iff {cs : List Char} {n : Nat} : readRadix? cs = some n ↔ Radix cs n := by
  constructor
  · intro h
    unfold readRadix? at h
    split at h
    · obtain ⟨base, mark, h⟩ := Option.bind_eq_some_iff.mp h
      have mark := baseOf_iff.mp mark
      obtain ⟨vs, digits, some_left, rfl⟩ := (readBase_iff mark.le).mp h
      exact .mk mark digits some_left
    · cases h
  · intro h
    cases h with
    | mk mark digits some_left =>
      rw [readRadix?, baseOf_iff.mpr mark]
      exact (readBase_iff mark.le).mpr ⟨_, digits, some_left, rfl⟩

theorem readInfinity_iff {cs : List Char} {x : Binary64} :
    readInfinity? cs = some x ↔ ∃ negative, Infinity cs negative ∧ x = .infinite negative := by
  unfold readInfinity?
  constructor
  · intro h
    split at h
    · rename_i named
      cases h
      rcases named with rfl | rfl
      · exact ⟨_, .bare, rfl⟩
      · exact ⟨_, .plus, rfl⟩
    · split at h
      · rename_i named
        cases h
        subst named
        exact ⟨_, .minus, rfl⟩
      · cases h
  · rintro ⟨negative, named, rfl⟩
    cases named <;> rfl

/-- The text spells no number in any of the ways there are. -/
structure Unreadable (cs : List Char) : Prop where
  filled : cs ≠ []
  infinity : ∀ negative, ¬ Infinity cs negative
  radix : ∀ n, ¬ Radix cs n
  numeral : ∀ n, ¬ Numeral.Spelled cs n

/-- The number that a text without blanks around it is read as. Of the decimal numerals, those of a
sign and not too many digits are whole numbers and all others are rounded to doubles. -/
inductive Reads : List Char → Number → Prop
  | blank : Reads [] (.int 0)
  | infinity {cs : List Char} {negative : Bool} (named : Infinity cs negative) :
      Reads cs (.float (.infinite negative))
  | radix {cs : List Char} {n : Nat} (spelled : Radix cs n) : Reads cs (.int n)
  | whole {cs : List Char} {negative : Bool} {vs : List Nat}
      (spelled : Numeral.Spelled cs ⟨negative, vs, none, none⟩) (short : vs.length ≤ digitLimit) :
      Reads cs (.int (if negative then -(Nat.ofDigits 10 vs.reverse : Nat)
        else (Nat.ofDigits 10 vs.reverse : Nat)))
  | decimal {cs : List Char} {n : Numeral} {x : Binary64} (spelled : Numeral.Spelled cs n)
      (unwhole : n.fraction = none → n.exponent = none → digitLimit < n.whole.length)
      (rounded : Binary64.Rounded n.negative (n.value * Binary64.unitsPerOne) x) :
      Reads cs (.float x)
  | other {cs : List Char} (unreadable : Unreadable cs) : Reads cs nan

/-- The text of a base is no decimal numeral: its letter is no digit and no mark of a power. -/
theorem Radix.not_numeral {cs : List Char} {n : Nat} (h : Radix cs n) (m : Numeral) :
    ¬ Numeral.Spelled cs m := by
  rw [← Numeral.ofChars_iff]
  cases h with
  | @mk c base ds vs mark digits some_left =>
    have zero : Text.digitValue? '0' = some 0 := by rfl
    have letter : Text.digitValue? c = none ∧ c ≠ '.' ∧ ¬ (c = 'e' ∨ c = 'E') := by
      cases mark with
      | hexadecimal mark | octal mark | binary mark => rcases mark with rfl | rfl <;> decide
    have taken : Text.takeDigits ('0' :: c :: ds) = ([0], c :: ds) := by
      simp only [Text.takeDigits, zero, letter.1]
    have fraction : Numeral.takeFraction (c :: ds) = (none, c :: ds) := by
      unfold Numeral.takeFraction
      split
      · rename_i same
        cases same
        exact absurd rfl letter.2.1
      · rfl
    have unsigned : Numeral.takeSign ('0' :: c :: ds) = (false, '0' :: c :: ds) := rfl
    simp [Numeral.ofChars?, unsigned, taken, fraction, Numeral.readExponent?, letter.2.2]

theorem Infinity.alone {cs : List Char} {negative : Bool} (h : Infinity cs negative) :
    readRadix? cs = none ∧ Numeral.ofChars? cs = none := by
  cases h <;> exact ⟨by rfl, by rfl⟩

theorem toNumber_whole {negative : Bool} {vs : List Nat} (short : vs.length ≤ digitLimit) :
    Numeral.toNumber ⟨negative, vs, none, none⟩ =
      .int (if negative then -(Nat.ofDigits 10 vs.reverse : Nat)
        else (Nat.ofDigits 10 vs.reverse : Nat)) := by
  simp only [Numeral.toNumber, Numeral.isWhole, Numeral.toInt, Option.isNone_none, Bool.true_and,
    short, decide_true, ↓reduceIte, Text.ofDigitValues_eq]

theorem toNumber_decimal {n : Numeral}
    (unwhole : n.fraction = none → n.exponent = none → digitLimit < n.whole.length) :
    n.toNumber = .float n.toFloat := by
  have decimal : n.isWhole = false := by
    rw [Bool.eq_false_iff]
    intro whole
    simp only [Numeral.isWhole, Bool.and_eq_true, Option.isNone_iff_eq_none,
      decide_eq_true_eq] at whole
    exact Nat.not_le.mpr (unwhole whole.1.1 whole.1.2) whole.2
  rw [Numeral.toNumber, decimal]
  rfl

theorem readInfinity_none {cs : List Char} (h : ∀ negative, ¬ Infinity cs negative) :
    readInfinity? cs = none := by
  refine Option.eq_none_iff_forall_ne_some.mpr fun x named => ?_
  obtain ⟨negative, named, _⟩ := readInfinity_iff.mp named
  exact h negative named

theorem readRadix_none {cs : List Char} (h : ∀ n, ¬ Radix cs n) : readRadix? cs = none :=
  Option.eq_none_iff_forall_ne_some.mpr fun n spelled => h n (readRadix_iff.mp spelled)

theorem ofChars_filled {cs : List Char} (filled : cs ≠ []) :
    ofChars cs = match readInfinity? cs with
      | some x => .float x
      | none => match readRadix? cs with
        | some n => .int n
        | none => match Numeral.ofChars? cs with
          | some n => n.toNumber
          | none => nan := by
  rw [ofChars, List.isEmpty_eq_false_iff.mpr filled]
  rfl

theorem ofChars_numeral {cs : List Char} {n : Numeral} (h : Numeral.Spelled cs n) :
    ofChars cs = n.toNumber := by
  have read := h.read
  have filled : cs ≠ [] := by
    rintro rfl
    cases read
  have unnamed : readInfinity? cs = none := readInfinity_none fun negative named => by
    rw [named.alone.2] at read
    cases read
  have unbased : readRadix? cs = none := readRadix_none fun m based => based.not_numeral n h
  rw [ofChars_filled filled, unnamed, unbased, read]

theorem Reads.ofChars {cs : List Char} {n : Number} (h : Reads cs n) : ofChars cs = n := by
  cases h with
  | blank => rfl
  | infinity named =>
    have filled : cs ≠ [] := by
      rintro rfl
      cases named
    rw [ofChars_filled filled, readInfinity_iff.mpr ⟨_, named, rfl⟩]
  | radix spelled =>
    have filled : cs ≠ [] := by
      rintro rfl
      cases spelled
    have read := readRadix_iff.mpr spelled
    have unnamed : readInfinity? cs = none := readInfinity_none fun negative named => by
      rw [named.alone.1] at read
      cases read
    rw [ofChars_filled filled, unnamed, read]
  | whole spelled short => rw [ofChars_numeral spelled, toNumber_whole short]
  | decimal spelled unwhole rounded =>
    rw [ofChars_numeral spelled, toNumber_decimal unwhole]
    exact congrArg Number.float ((Numeral.toFloat_rounded _).unique rounded)
  | other unreadable =>
    have unspelled : Numeral.ofChars? cs = none :=
      Option.eq_none_iff_forall_ne_some.mpr fun n read =>
        unreadable.numeral n (Numeral.spelled_read read)
    rw [ofChars_filled unreadable.filled, readInfinity_none unreadable.infinity,
      readRadix_none unreadable.radix, unspelled]

theorem reads_numeral {cs : List Char} {n : Numeral} (h : Numeral.Spelled cs n) :
    Reads cs n.toNumber := by
  by_cases unwhole : n.fraction = none → n.exponent = none → digitLimit < n.whole.length
  · rw [toNumber_decimal unwhole]
    exact .decimal h unwhole n.toFloat_rounded
  · obtain ⟨negative, vs, fraction, exponent⟩ := n
    simp only [Classical.not_imp, Nat.not_lt] at unwhole
    obtain ⟨rfl, rfl, short⟩ := unwhole
    rw [toNumber_whole short]
    exact .whole h short

/-- Every text is read in one of the ways. -/
theorem reads_ofChars (cs : List Char) : Reads cs (ofChars cs) := by
  by_cases filled : cs = []
  · subst filled
    exact .blank
  by_cases infinity : ∃ negative, Infinity cs negative
  · obtain ⟨negative, named⟩ := infinity
    have read := Reads.infinity named
    rwa [read.ofChars]
  by_cases radix : ∃ n, Radix cs n
  · obtain ⟨n, spelled⟩ := radix
    have read := Reads.radix spelled
    rwa [read.ofChars]
  by_cases numeral : ∃ n, Numeral.Spelled cs n
  · obtain ⟨n, spelled⟩ := numeral
    rw [ofChars_numeral spelled]
    exact reads_numeral spelled
  · have read := Reads.other ⟨filled, not_exists.mp infinity, not_exists.mp radix,
      not_exists.mp numeral⟩
    rwa [read.ofChars]

theorem ofChars_iff {cs : List Char} {n : Number} : ofChars cs = n ↔ Reads cs n :=
  ⟨fun h => h ▸ reads_ofChars cs, Reads.ofChars⟩

end Number

namespace Binary64

theorem ungroup_self {cs : List Char} (ungrouped : ∀ c ∈ cs, c ≠ '_') : ungroup cs = cs := by
  fun_induction ungroup cs with
  | case1 c d cs _ ih => simp at ungrouped
  | case2 c d cs _ ih => simp at ungrouped
  | case3 c cs _ ih => rw [ih fun d hd => ungrouped d (List.mem_cons_of_mem c hd)]
  | case4 => rfl

/-- The name of a special value begins with a letter. -/
theorem ofName_none {cs : List Char} {n : Numeral} (h : Numeral.Spelled cs n) :
    ofName? cs = none := by
  cases h with
  | @mk ss ms ps _ _ _ _ sign mantissa power =>
    obtain ⟨c, rest, begins, figure⟩ :
        ∃ c rest, ms ++ ps = c :: rest ∧ ((∃ v, DigitOf c v) ∨ c = '.') := by
      have first {ds : List Char} {vs : List Nat} (digits : Digits ds vs) (some_left : ds ≠ []) :
          ∃ c rest, ds = c :: rest ∧ ((∃ v, DigitOf c v) ∨ c = '.') := by
        cases digits with
        | nil => exact absurd rfl some_left
        | cons digit => exact ⟨_, _, rfl, .inl ⟨_, digit⟩⟩
      cases mantissa with
      | whole digits some_left =>
        obtain ⟨c, rest, rfl, figure⟩ := first digits some_left
        exact ⟨c, _, rfl, figure⟩
      | pointed before _ some_left =>
        obtain ⟨c, rest, rfl, figure⟩ := first before some_left
        exact ⟨c, _, rfl, figure⟩
      | bare => exact ⟨'.', _, rfl, .inr rfl⟩
    have other (d : Char) (letter : d = 'i' ∨ d = 'n') : c.toLower ≠ d := by
      intro same
      have unvalued : ∀ v, ¬ DigitOf c v := by
        intro v digit
        rw [← Text.digitValue_iff] at digit
        rcases Text.toLower_cases c with ⟨_, small⟩ | ⟨_, kept⟩
        · rw [same] at small
          have place := Char.ofNat_toNat c
          rcases letter with rfl | rfl
          · rw [show c.toNat = 73 from Nat.add_right_cancel small.symm] at place
            subst place
            cases digit
          · rw [show c.toNat = 78 from Nat.add_right_cancel small.symm] at place
            subst place
            cases digit
        · obtain rfl : c = d := kept.symm.trans same
          rcases letter with rfl | rfl <;> cases digit
      rcases figure with ⟨v, digit⟩ | rfl
      · exact unvalued v digit
      · rcases letter with rfl | rfl <;> cases same
    have unnamed {name : String} (d : Char) (tail : List Char) (letter : d = 'i' ∨ d = 'n')
        (spelled : name.toList = d :: tail) :
        String.ofList ((c :: rest).map Char.toLower) ≠ name := by
      intro same
      have chars := congrArg String.toList same
      rw [String.toList_ofList, spelled, List.map_cons, List.cons.injEq] at chars
      exact other d letter chars.1
    unfold ofName?
    rw [Numeral.takeSign_append sign (mantissa.unsigned ps), begins]
    dsimp only
    split
    · rename_i same
      exact absurd same (unnamed 'i' ['n', 'f'] (.inl rfl) rfl)
    · rename_i same
      exact absurd same (unnamed 'i' _ (.inl rfl) rfl)
    · rename_i same
      exact absurd same (unnamed 'n' _ (.inr rfl) rfl)
    · rfl

/-- The texts of numerals mean the same where more is allowed. -/
theorem ofText_spelled {s : String} {n : Numeral} (h : Numeral.Spelled (Text.trim s.toList) n) :
    ofText? s = some n.toFloat := by
  have ungrouped : ∀ c ∈ Text.trim s.toList, c ≠ '_' := by
    rintro c hc rfl
    rcases h.chars '_' hc with ⟨v, digit⟩ | mark
    · rw [← Text.digitValue_iff] at digit
      cases digit
    · simp at mark
  simp only [ofText?, ofName_none h, ungroup_self ungrouped, h.read, Option.map_some]

end Binary64

theorem Number.reads_nan {cs : List Char} (h : Reads cs nan) : Unreadable cs := by
  generalize hn : nan = n at h
  cases h with
  | other unreadable => exact unreadable
  | decimal _ _ rounded =>
    cases hn
    cases rounded
  | _ => cases hn

/-- Every text is read just as the grammar of numeric texts says of what stands between the blanks
around it, and as no number only when it spells none. A numeral that is read as a double is the same
double where more spellings are allowed. -/
theorem numeric_text_read (s : String) :
    ∃ t, (∀ u, Text.Stripped s.toList u ↔ u = t) ∧
      (∀ n, (Native.text s).toNumber = n ↔ Number.Reads t n) ∧
      ((Native.text s).toNumber = Number.nan ↔ Number.Unreadable t) ∧
      (∀ n x, Numeral.Spelled t n → (Native.text s).toNumber = .float x →
        Binary64.ofText? s = some x) ∧
      (Native.text s).coerce .numeric = .ok (Native.text s).toNumber.toNative := by
  have read (n : Number) : (Native.text s).toNumber = n ↔ Number.Reads (Text.trim s.toList) n := by
    rw [Native.toNumber, Number.ofText, Number.ofChars_iff]
  refine ⟨Text.trim s.toList, fun u => ⟨fun h => h.trim.symm, ?_⟩, read, ?_, ?_, rfl⟩
  · rintro rfl
    exact Text.trim_stripped _
  · rw [read]
    exact ⟨Number.reads_nan, .other⟩
  · intro n x spelled number
    rw [Native.toNumber, Number.ofText, Number.ofChars_numeral spelled] at number
    rw [Binary64.ofText_spelled spelled]
    unfold Numeral.toNumber at number
    split at number
    · cases number
    · cases number
      rfl

example : (Native.text " 0x1F ").toNumber = .int 31 ∧ (Native.text "-0x1F").toNumber = .nan ∧
    (Native.text "1_0").toNumber = .nan ∧ (Native.text "+.5e1").toNumber = (Native.float
      (.finite false (5 * Nat.pow 2 50) 1024 (by decide))).toNumber := by
  decide +kernel

end HostBridge
