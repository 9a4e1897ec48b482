import HostBridge.Proofs.NumeralGrammar
import HostBridge.Proofs.ShortestNumeral

namespace HostBridge

theorem ofDigitChars_zeros (k n : Nat) : Nat.ofDigitChars 10 (zeros k) n = n * 10 ^ k := by
  induction k generalizing n with
  | zero => simp [zeros]
  | succ k ih =>
    rw [zeros, List.replicate_succ, Nat.ofDigitChars_cons, ← zeros, ih, Nat.pow_succ]
    simp only [Nat.sub_self, Nat.add_zero]
    ring

theorem zeros_digits (k : Nat) : ∀ c ∈ zeros k, c.isDigit := by
  intro c hc
  rw [List.eq_of_mem_replicate hc]
  decide

theorem digitsOf_digits (n : Nat) : ∀ c ∈ digitsOf n, c.isDigit := fun _ hc =>
  Nat.isDigit_of_mem_toDigits (by decide) (by decide) hc

/-- Only zero is written with a leading zero. -/
theorem digitsOf_leading {n : Nat} (positive : 0 < n) :
    ∃ c cs, digitsOf n = c :: cs ∧ c ≠ '0' := by
  induction n using Nat.strongRecOn with
  | ind n ih =>
    rcases Nat.lt_or_ge n 10 with small | large
    · refine ⟨n.digitChar, [], Nat.toDigits_of_lt_base small, ?_⟩
      match n with
      | 1 | 2 | 3 | 4 | 5 | 6 | 7 | 8 | 9 => decide
    · obtain ⟨c, cs, hd, hc⟩ := ih (n / 10) (by omega) (by omega)
      have split := digitsOf_ten_mul (n := n / 10) (by omega) (Nat.mod_lt n (by decide : 0 < 10))
      rw [Nat.div_add_mod, hd] at split
      exact ⟨c, cs ++ [(n % 10).digitChar], split, hc⟩

theorem dropEndZeros_append (ds : List Char) : ∃ k, ds = dropEndZeros ds ++ zeros k := by
  refine ⟨(ds.reverse.takeWhile (· == '0')).length, ?_⟩
  have ending : ds.reverse.takeWhile (· == '0') =
      zeros (ds.reverse.takeWhile (· == '0')).length := by
    refine List.eq_replicate_of_mem fun c hc => ?_
    exact beq_iff_eq.mp (List.all_eq_true.mp List.all_takeWhile c hc)
  rw [← List.reverse_inj, List.reverse_append, dropEndZeros, List.reverse_reverse, zeros,
    List.reverse_replicate, ← zeros, ← ending, List.takeWhile_append_dropWhile]

namespace Decimal

/-- The figures of a numeral, and the zeros that were dropped behind them. -/
theorem figures_append {d : Decimal} (positive : 0 < d.digits) :
    ∃ k, digitsOf d.digits = d.figures ++ zeros k ∧ ∃ c cs, d.figures = c :: cs ∧ c ≠ '0' := by
  obtain ⟨k, hk⟩ := dropEndZeros_append (digitsOf d.digits)
  obtain ⟨c, cs, hd, hc⟩ := digitsOf_leading positive
  refine ⟨k, hk, ?_⟩
  rw [hd] at hk
  unfold figures
  cases hf : dropEndZeros (digitsOf d.digits) with
  | nil =>
    rw [hd] at hf
    rw [hf, List.nil_append] at hk
    have zero : c ∈ zeros k := hk ▸ List.mem_cons_self
    exact absurd (List.eq_of_mem_replicate zero) hc
  | cons b bs =>
    rw [hd] at hf
    rw [hf, List.cons_append, List.cons.injEq] at hk
    exact ⟨b, bs, rfl, hk.1 ▸ hc⟩

theorem figures_digits (d : Decimal) : ∀ c ∈ d.figures, c.isDigit := by
  intro c hc
  obtain ⟨k, hk⟩ := dropEndZeros_append (digitsOf d.digits)
  refine digitsOf_digits d.digits c ?_
  rw [hk]
  exact List.mem_append_left _ hc

/-- The value that is read from figures with a point after the given place. -/
def ofFigures (figures : List Char) (point : Int) : Decimal :=
  ⟨Nat.ofDigitChars 10 figures 0, point - figures.length⟩

theorem ofFigures_nearest {d : Decimal} (positive : 0 < d.digits) (negative : Bool) :
    (ofFigures d.figures d.point).nearest negative = d.nearest negative := by
  obtain ⟨k, hk, _⟩ := figures_append positive
  have value := congrArg (Nat.ofDigitChars 10 · 0) hk
  simp only [digitsOf, Nat.ofDigitChars_ten_toDigits, Nat.ofDigitChars_append,
    ofDigitChars_zeros] at value
  have places : d.point - d.figures.length = d.exponent + k := by
    rw [point, hk, List.length_append, zeros, List.length_replicate]
    omega
  have scaled := nearest_scale negative (Nat.ofDigitChars 10 d.figures 0) k (d.exponent + k)
  rw [← value, Int.add_sub_cancel] at scaled
  rw [ofFigures, places, ← scaled]

end Decimal

/-- How a numeral is spelled: digits before and after a point, and a power of ten. There is a point
or a power, and no needless zero in front. -/
structure Spelling where
  whole : List Char
  fraction : List Char
  exponent : Option Int
  wholeDigits : ∀ c ∈ whole, c.isDigit
  fractionDigits : ∀ c ∈ fraction, c.isDigit
  leading : whole = ['0'] ∨ ∃ c cs, whole = c :: cs ∧ c ≠ '0'
  marked : fraction ≠ [] ∨ exponent ≠ none

namespace Spelling

def pointed (n : Spelling) : List Char :=
  if n.fraction.isEmpty then [] else '.' :: n.fraction

def power (n : Spelling) : List Char :=
  match n.exponent with
  | none => []
  | some e => exponentText e

def text (n : Spelling) : List Char :=
  n.whole ++ n.pointed ++ n.power

def decimal (n : Spelling) : Decimal :=
  ⟨Nat.ofDigitChars 10 (n.whole ++ n.fraction) 0, n.exponent.getD 0 - n.fraction.length⟩

/-- Figures behind the point, with zeros between. -/
theorem before_spelled {figures : List Char} (digits : ∀ c ∈ figures, c.isDigit)
    (some_left : figures ≠ []) {point : Int} (before : point ≤ 0) :
    ∃ n : Spelling, n.text = positional figures point ∧
      n.decimal = Decimal.ofFigures figures point := by
  have first : point.toNat = 0 := Int.toNat_of_nonpos before
  refine ⟨⟨['0'], zeros (-point).toNat ++ figures, none, ?_, ?_, .inl rfl, .inl ?_⟩, ?_, ?_⟩
  · exact List.forall_mem_singleton.mpr (by decide)
  · exact List.forall_mem_append.mpr ⟨zeros_digits _, digits⟩
  · exact fun none => some_left (List.append_eq_nil_iff.mp none).2
  · simp [text, pointed, power, positional, first, zeros, some_left]
  · have lengths : (zeros (-point).toNat ++ figures).length = (-point).toNat + figures.length := by
      simp [zeros]
    simp only [decimal, Decimal.ofFigures, lengths, Option.getD_none, Nat.ofDigitChars_append,
      ofDigitChars_zeros, Nat.ofDigitChars_cons, Nat.ofDigitChars_nil, Decimal.mk.injEq]
    exact ⟨by simp, by omega⟩

/-- Figures on both sides of the point. -/
theorem inside_spelled {figures : List Char} (digits : ∀ c ∈ figures, c.isDigit)
    (leading : ∃ c cs, figures = c :: cs ∧ c ≠ '0') {point : Int} (after : 0 < point)
    (inside : point < figures.length) :
    ∃ n : Spelling, n.text = positional figures point ∧
      n.decimal = Decimal.ofFigures figures point := by
  obtain ⟨k, rfl⟩ := Int.eq_succ_of_zero_lt after
  obtain ⟨c, cs, rfl, hc⟩ := leading
  have some_left : (c :: cs).drop (k + 1) ≠ [] := by
    intro none
    have length := congrArg List.length none
    simp only [List.length_drop, List.length_nil, List.length_cons] at length inside
    omega
  refine ⟨⟨(c :: cs).take (k + 1), (c :: cs).drop (k + 1), none, ?_, ?_,
    .inr ⟨c, cs.take k, rfl, hc⟩, .inl some_left⟩, ?_, ?_⟩
  · exact fun d hd => digits d (List.mem_of_mem_take hd)
  · exact fun d hd => digits d (List.mem_of_mem_drop hd)
  · have within : k + 1 - (c :: cs).length = 0 := by omega
    have signless : (-((k : Int) + 1)).toNat = 0 := by omega
    have unfinished := List.isEmpty_eq_false_iff.mpr some_left
    simp only [text, pointed, power, positional, Int.toNat_natCast_add_one, within, signless, zeros,
      List.replicate_zero, List.append_nil, List.nil_append, unfinished, List.take_succ_cons,
      List.isEmpty_cons, Bool.false_eq_true, ↓reduceIte]
  · simp only [decimal, Decimal.ofFigures, List.take_append_drop, Option.getD_none,
      List.length_drop, Decimal.mk.injEq, true_and]
    omega

/-- Figures before the point, with zeros between and one behind it. -/
theorem behind_spelled {figures : List Char} (digits : ∀ c ∈ figures, c.isDigit)
    (leading : ∃ c cs, figures = c :: cs ∧ c ≠ '0') {point : Int}
    (behind : figures.length ≤ point) :
    ∃ n : Spelling, n.text = positional figures point ∧ ∀ negative,
      n.decimal.nearest negative = (Decimal.ofFigures figures point).nearest negative := by
  obtain ⟨k, hk⟩ := Int.le.dest behind
  obtain ⟨c, cs, rfl, hc⟩ := leading
  have place : point.toNat = (c :: cs).length + k := by omega
  refine ⟨⟨c :: cs ++ zeros k, ['0'], none, ?_, ?_, .inr ⟨c, cs ++ zeros k, rfl, hc⟩,
    .inl (List.cons_ne_nil _ _)⟩, ?_, fun negative => ?_⟩
  · exact List.forall_mem_append.mpr ⟨digits, zeros_digits k⟩
  · exact List.forall_mem_singleton.mpr (by decide)
  · have signless : (-point).toNat = 0 := by omega
    have spare : (c :: cs).length + k - (c :: cs).length = k := by omega
    simp only [text, pointed, power, positional, place, signless, spare, zeros,
      List.take_of_length_le (Nat.le_add_right _ k), List.drop_of_length_le (Nat.le_add_right _ k),
      List.replicate_zero, List.append_nil, List.isEmpty_nil, List.isEmpty_cons, List.cons_append,
      Bool.false_eq_true, ↓reduceIte]
  · have value : Nat.ofDigitChars 10 (c :: cs ++ zeros k ++ zeros 1) 0 =
        Nat.ofDigitChars 10 (c :: cs) 0 * 10 ^ (k + 1) := by
      simp only [Nat.ofDigitChars_append, ofDigitChars_zeros, Nat.pow_succ, Nat.mul_assoc,
        Nat.pow_zero, Nat.one_mul]
    have places : (0 : Int) - (1 : Nat) = point - (c :: cs).length - (k + 1 : Nat) := by omega
    have scaled := Decimal.nearest_scale negative (Nat.ofDigitChars 10 (c :: cs) 0) (k + 1)
      (point - (c :: cs).length)
    rw [← value, ← places] at scaled
    exact scaled

/-- Figures with a point are spelled as their value. -/
theorem positional_spelled {figures : List Char} (digits : ∀ c ∈ figures, c.isDigit)
    (leading : ∃ c cs, figures = c :: cs ∧ c ≠ '0') (point : Int) :
    ∃ n : Spelling, n.text = positional figures point ∧ ∀ negative,
      n.decimal.nearest negative = (Decimal.ofFigures figures point).nearest negative := by
  rcases Int.lt_or_le 0 point with after | before
  · rcases Int.lt_or_le point figures.length with inside | behind
    · obtain ⟨n, text, value⟩ := inside_spelled digits leading after inside
      exact ⟨n, text, fun _ => by rw [value]⟩
    · exact behind_spelled digits leading behind
  · have some_left : figures ≠ [] := by
      obtain ⟨c, cs, rfl, _⟩ := leading
      exact List.cons_ne_nil c cs
    obtain ⟨n, text, value⟩ := before_spelled digits some_left before
    exact ⟨n, text, fun _ => by rw [value]⟩

theorem scientific_spelled {figures : List Char} (digits : ∀ c ∈ figures, c.isDigit)
    (leading : ∃ c cs, figures = c :: cs ∧ c ≠ '0') (point : Int) :
    ∃ n : Spelling, n.text = scientific figures point ∧
      n.decimal = Decimal.ofFigures figures point := by
  obtain ⟨c, cs, rfl, hc⟩ := leading
  refine ⟨⟨[c], cs, some (point - 1), ?_, ?_, .inr ⟨c, [], rfl, hc⟩, .inr (by simp)⟩, ?_, ?_⟩
  · exact List.forall_mem_singleton.mpr (digits c List.mem_cons_self)
  · exact fun d hd => digits d (List.mem_cons_of_mem c hd)
  · rfl
  · simp only [decimal, Decimal.ofFigures, List.singleton_append, Option.getD_some,
      List.length_cons, Decimal.mk.injEq, true_and]
    omega

/-- The text of a positive number of units. -/
theorem unitsText_spelled {m p : Nat} (h : Binary64.Canonical m p) (positive : 0 < m) :
    ∃ n : Spelling, n.text = unitsText (m * Nat.pow 2 p) ∧
      ∀ negative, n.decimal.nearest negative = .finite negative m p h := by
  have nearest := Decimal.shortest_nearest h positive
  unfold unitsText
  simp only [Nat.pow_eq]
  generalize Decimal.shortest (m * 2 ^ p) = d at nearest ⊢
  have nonzero : 0 < d.digits := by
    refine Nat.pos_of_ne_zero fun none => ?_
    have zero := nearest false
    simp only [Decimal.nearest, none, true_or, ↓reduceIte, Binary64.zero,
      Binary64.finite.injEq, true_and] at zero
    omega
  obtain ⟨_, _, leading⟩ := Decimal.figures_append nonzero
  split
  · obtain ⟨n, text, value⟩ := positional_spelled d.figures_digits leading d.point
    exact ⟨n, text, fun s => by rw [value, Decimal.ofFigures_nearest nonzero, nearest]⟩
  · obtain ⟨n, text, value⟩ := scientific_spelled d.figures_digits leading d.point
    exact ⟨n, text, fun s => by rw [value, Decimal.ofFigures_nearest nonzero, nearest]⟩

end Spelling

/-- A sign in front of a number. -/
def signChars (negative : Bool) : List Char :=
  if negative then ['-'] else []

theorem signChars_sign (negative : Bool) : Numeral.Sign (signChars negative) negative := by
  cases negative
  · exact .absent
  · exact .minus

theorem signed_toList (negative : Bool) (s : String) :
    (signed negative s).toList = signChars negative ++ s.toList := by
  cases negative <;> simp [signed, signChars]

/-- The text of a finite double is a sign and the spelling of a numeral nearest to the double. -/
theorem Binary64.text_spelled (negative : Bool) {m p : Nat} (h : Canonical m p) :
    ∃ n : Spelling, (finite negative m p h).text.toList = signChars negative ++ n.text ∧
      n.decimal.nearest negative = .finite negative m p h := by
  unfold Binary64.text
  rcases Nat.eq_zero_or_pos m with rfl | positive
  · obtain ⟨_, _, large | rfl⟩ := h
    · exact absurd large (by decide)
    · refine ⟨⟨['0'], ['0'], none, ?_, ?_, .inl rfl, .inl (List.cons_ne_nil _ _)⟩, ?_, ?_⟩
      · exact List.forall_mem_singleton.mpr (by decide)
      · exact List.forall_mem_singleton.mpr (by decide)
      · rw [signed_toList]
        rfl
      · rfl
  · obtain ⟨n, text, nearest⟩ := Spelling.unitsText_spelled h positive
    refine ⟨n, ?_, nearest negative⟩
    simp only [Nat.ne_of_gt positive, ↓reduceIte]
    rw [signed_toList, String.toList_ofList, text]

def digitValues (ds : List Char) : List Nat :=
  ds.map fun c => c.toNat - '0'.toNat

theorem ofDigitValues_digitValues (ds : List Char) :
    Text.ofDigitValues 10 (digitValues ds) = Nat.ofDigitChars 10 ds 0 := by
  rw [Text.ofDigitValues, digitValues, List.foldl_map, Nat.ofDigitChars_eq_foldl]
  simp only [Nat.mul_comm]

theorem isDigit_bounds {c : Char} (h : c.isDigit) : 48 ≤ c.toNat ∧ c.toNat ≤ 57 := by
  simpa [Char.isDigit, UInt32.le_iff_toNat_le] using h

theorem digitValue_digit {c : Char} (h : c.isDigit) :
    Text.digitValue? c = some (c.toNat - '0'.toNat) := by
  obtain ⟨low, high⟩ := isDigit_bounds h
  have first : (48 ≤ c.toNat && c.toNat < 48 + 10) = true := by
    simp only [Bool.and_eq_true, decide_eq_true_eq]
    omega
  simp only [Text.digitValue?, Text.digitZeros, List.find?_cons, first, Option.map_some]
  rfl

theorem digitValues_digits {ds : List Char} (h : ∀ c ∈ ds, c.isDigit) :
    Text.Digits ds (digitValues ds) := by
  rw [Text.Digits, digitValues, List.forall₂_map_right_iff, List.forall₂_same]
  exact fun c hc => Text.digitValue_iff.mp (digitValue_digit (h c hc))

namespace Numeral

theorem padded_digits (width n : Nat) : ∀ c ∈ padded width n, c.isDigit :=
  List.forall_mem_append.mpr ⟨zeros_digits _, digitsOf_digits n⟩

theorem padded_value (width n : Nat) : Nat.ofDigitChars 10 (padded width n) 0 = n := by
  rw [padded, Nat.ofDigitChars_append, ofDigitChars_zeros, Nat.zero_mul]
  exact Nat.ofDigitChars_ten_toDigits

theorem padded_ne_nil (width n : Nat) : padded width n ≠ [] := fun none =>
  Nat.toDigits_ne_nil (List.append_eq_nil_iff.mp none).2

theorem exponentText_power (e : Int) :
    Power (exponentText e) (some (decide (e < 0), digitValues (padded 2 e.natAbs))) := by
  have sign : Sign [if e < 0 then '-' else '+'] (decide (e < 0)) := by
    by_cases negative : e < 0
    · simp only [negative, ↓reduceIte, decide_true]
      exact .minus
    · simp only [negative, ↓reduceIte, decide_false]
      exact .plus
  exact .marked (.inl rfl) sign (digitValues_digits (padded_digits 2 e.natAbs))
    (padded_ne_nil 2 e.natAbs)

end Numeral

namespace Spelling

/-- The power of ten as it is read. -/
def readPower (n : Spelling) : Option (Bool × List Nat) :=
  n.exponent.map fun e => (decide (e < 0), digitValues (padded 2 e.natAbs))

def numeral (n : Spelling) : Numeral :=
  { negative := false
    whole := digitValues n.whole
    fraction := if n.fraction.isEmpty then none else some (digitValues n.fraction)
    exponent := n.readPower }

theorem mantissa (n : Spelling) :
    Numeral.Mantissa (n.whole ++ n.pointed) n.numeral.whole n.numeral.fraction := by
  have whole := digitValues_digits n.wholeDigits
  have some_left : n.whole ≠ [] := by
    rcases n.leading with zero | ⟨c, cs, hw, _⟩
    · rw [zero]
      exact List.cons_ne_nil _ _
    · rw [hw]
      exact List.cons_ne_nil _ _
  unfold pointed numeral
  split
  · rw [List.append_nil]
    exact .whole whole some_left
  · exact .pointed whole (digitValues_digits n.fractionDigits) some_left

theorem power_read (n : Spelling) : Numeral.Power n.power n.readPower := by
  unfold power readPower
  cases n.exponent with
  | none => exact .absent
  | some e => exact Numeral.exponentText_power e

/-- A sign and the text of a spelling are a numeral of its parts. -/
theorem spelled (n : Spelling) (negative : Bool) :
    Numeral.Spelled (signChars negative ++ n.text) { n.numeral with negative } := by
  rw [text]
  exact .mk (signChars_sign negative) n.mantissa n.power_read

/-- The text of a spelling is read as its parts. -/
theorem ofChars_text (n : Spelling) : Numeral.ofChars? n.text = some n.numeral :=
  (n.spelled false).read

theorem numeral_power (n : Spelling) : n.numeral.power = n.exponent.getD 0 := by
  unfold numeral readPower Numeral.power
  cases n.exponent with
  | none => rfl
  | some e =>
    have size := ofDigitValues_digitValues (padded 2 e.natAbs)
    rw [Numeral.padded_value] at size
    simp only [Option.map_some, Option.getD_some]
    split
    · contradiction
    · rename_i read
      simp only [Option.some.injEq, Prod.mk.injEq, decide_eq_true_eq] at read
      rw [← read.2, size]
      omega
    · rename_i read
      simp only [Option.some.injEq, Prod.mk.injEq, decide_eq_false_iff_not] at read
      rw [← read.2, size]
      omega

theorem numeral_decimal (n : Spelling) : n.numeral.toDecimal = n.decimal := by
  have fraction : n.numeral.fraction.getD [] = digitValues n.fraction := by
    unfold numeral
    cases n.fraction <;> rfl
  have whole : n.numeral.whole ++ digitValues n.fraction = digitValues (n.whole ++ n.fraction) :=
    List.map_append.symm
  have places : (digitValues n.fraction).length = n.fraction.length := List.length_map _
  simp only [Numeral.toDecimal, fraction, whole, ofDigitValues_digitValues, n.numeral_power, places,
    decimal]

end Spelling

end HostBridge
