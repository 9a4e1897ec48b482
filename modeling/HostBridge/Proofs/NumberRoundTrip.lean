import HostBridge.Proofs.CanonicalImage
import HostBridge.Proofs.NumericTexts

namespace HostBridge

namespace Text

theorem digits_unblank :
    ∀ z ∈ digitZeros, ∀ v < 10, isBlank (Char.ofNat (z + v)) = false := by
  decide +kernel

theorem DigitOf.unblank {c : Char} {v : Nat} (h : DigitOf c v) : isBlank c = false := by
  obtain ⟨z, hz, place, small⟩ := h
  rw [← Char.ofNat_toNat c, place]
  exact digits_unblank z hz v small

theorem trim_unblank {cs : List Char} (unblank : ∀ c ∈ cs, isBlank c = false) : trim cs = cs := by
  have stripped : Stripped cs cs := by
    refine ⟨[], [], by simp, List.forall_mem_nil _, List.forall_mem_nil _, ?_, ?_⟩
    · exact fun c hc => unblank c (List.mem_of_mem_head? hc)
    · exact fun c hc => unblank c (List.mem_of_mem_getLast? hc)
  exact stripped.trim

end Text

namespace Numeral

theorem Spelled.unblank {cs : List Char} {n : Numeral} (h : Spelled cs n) :
    ∀ c ∈ cs, Text.isBlank c = false := by
  have marks : ∀ c ∈ ['+', '-', '.', 'e', 'E'], Text.isBlank c = false := by
    simp only [List.forall_mem_cons]
    exact ⟨rfl, rfl, rfl, rfl, rfl, List.forall_mem_nil _⟩
  intro c hc
  rcases h.chars c hc with ⟨v, digit⟩ | mark
  · exact digit.unblank
  · exact marks c mark

end Numeral

theorem Number.ofText_spelled {s : String} {n : Numeral} (h : Numeral.Spelled s.toList n) :
    Number.ofText s = n.toNumber := by
  rw [Number.ofText, Text.trim_unblank h.unblank, Number.ofChars_numeral h]

theorem decimalText_spelled (n : Int) : Numeral.Spelled (decimalText n).toList
    ⟨decide (n < 0), digitValues (digitsOf n.natAbs), none, none⟩ := by
  have digits := digitValues_digits (digitsOf_digits n.natAbs)
  have spelled := Numeral.Spelled.mk (signChars_sign (decide (n < 0)))
    (.whole digits Nat.toDigits_ne_nil) .absent
  rw [decimalText, signed_toList, String.toList_ofList]
  rwa [List.append_nil] at spelled

/-- The text of a whole number within the digit limit is that number. -/
theorem ofText_decimalText {n : Int} (short : n.natAbs < tooLarge) :
    Number.ofText (decimalText n) = .int n := by
  have limit : (digitValues (digitsOf n.natAbs)).length ≤ digitLimit := by
    rw [digitValues, List.length_map]
    exact Json.length_digitsOf_le short
  have size : Nat.ofDigits 10 (digitValues (digitsOf n.natAbs)).reverse = n.natAbs := by
    rw [← Text.ofDigitValues_eq, ofDigitValues_digitValues]
    exact Nat.ofDigitChars_ten_toDigits
  rw [Number.ofText_spelled (decimalText_spelled n), Number.toNumber_whole limit, size]
  congr 1
  split <;> rename_i sign <;> simp only [decide_eq_true_eq] at sign <;> omega

namespace Spelling

/-- The point or the power makes a double of it. -/
theorem toNumber_numeral (n : Spelling) (negative : Bool) :
    { n.numeral with negative }.toNumber = .float (n.decimal.nearest negative) := by
  have decimal : { n.numeral with negative }.isWhole = false := by
    unfold numeral readPower Numeral.isWhole
    rcases n.marked with pointed | powered
    · simp [pointed]
    · simp [powered]
  rw [Numeral.toNumber, decimal, Json.spelling_nearest]
  rfl

end Spelling

theorem ofText_finite (negative : Bool) {m p : Nat} (h : Binary64.Canonical m p) :
    Number.ofText (Binary64.finite negative m p h).text = .float (.finite negative m p h) := by
  obtain ⟨n, text, nearest⟩ := Binary64.text_spelled negative h
  have spelled := n.spelled negative
  rw [← text] at spelled
  rw [Number.ofText_spelled spelled, n.toNumber_numeral, nearest]

theorem Binary64.toInt_of_units {x : Binary64} {n : Int}
    (h : x.units? = some (n * unitsPerOne)) : x.toInt? = some n := by
  have positive : 0 < unitsPerOne := by decide +kernel
  simp only [toInt?, h, Option.bind_eq_bind, Option.bind_some, Int.mul_emod_left, ↓reduceIte,
    Int.mul_ediv_cancel n (show (unitsPerOne : Int) ≠ 0 by omega)]

theorem ofText_nan : Number.ofText "NaN" = .nan := by
  rfl

/-- The text of a double is the whole number that it is, or else the double; that of a NaN is what
all texts are that are no numbers. -/
theorem ofText_numberText (x : Binary64) :
    Number.ofText (numberText x) = match x.toInt? with
      | some n => .int n
      | none => if x.isNaN then .nan else .float x := by
  cases whole : x.toInt? with
  | some n =>
    simp only [numberText, whole]
    exact ofText_decimalText (Binary64.toInt_short whole)
  | none =>
    simp only [numberText, whole]
    cases x with
    | nan => exact ofText_nan
    | infinite negative => cases negative <;> rfl
    | finite negative m p canonical => exact ofText_finite negative canonical

namespace Native

/-- The text of a number is coerced to that number: to the same whole number within the digit limit,
for a double to the whole number of as many units if there is one, and else to the same double. The
text of a NaN is coerced to the NaN that stands for all that is no number. -/
theorem number_text_exact :
    (∀ n : Int, n.natAbs < tooLarge → ∃ s, (int n).coerce .string = .ok (.text s) ∧
      (text s).coerce .integer = .ok (.int n) ∧ (text s).coerce .numeric = .ok (.int n)) ∧
    ∀ x : Binary64, ∃ s, (float x).coerce .string = .ok (.text s) ∧
      (∀ n : Int, x.units? = some (n * Binary64.unitsPerOne) →
        (text s).coerce .numeric = .ok (.int n)) ∧
      (x.isNaN = true → (text s).coerce .numeric = .ok Number.nan.toNative) ∧
      (x.isNaN = false → (∀ n : Int, x.units? ≠ some (n * Binary64.unitsPerOne)) →
        (text s).coerce .numeric = .ok (.float x)) := by
  constructor
  · intro n short
    refine ⟨decimalText n, ?_, ?_, ?_⟩
    · rw [coerce, toText, intText_short short]
      rfl
    · rw [coerce, toNumber, ofText_decimalText short]
      rfl
    · rw [coerce, toNumber, ofText_decimalText short]
      rfl
  · intro x
    refine ⟨numberText x, rfl, ?_, ?_, ?_⟩
    · intro n units
      rw [coerce, toNumber, ofText_numberText, Binary64.toInt_of_units units]
      rfl
    · intro undefined
      cases x with
      | nan => exact congrArg (fun n : Number => Except.ok n.toNative) ofText_nan
      | infinite | finite => cases undefined
    · intro defined unwhole
      have fraction : x.toInt? = none :=
        Option.eq_none_iff_forall_ne_some.mpr fun n whole =>
          unwhole n (Binary64.units_of_toInt whole)
      rw [coerce, toNumber, ofText_numberText, fraction]
      simp only [defined, Bool.false_eq_true, ↓reduceIte]
      rfl

/-- The largest power of two among the doubles, a whole number of over three hundred digits. -/
def large : Binary64 :=
  .finite false (Nat.pow 2 52) 2045 (by decide)

/-- A negative whole number, negative zero, a large whole number, one half and a NaN by their
texts. -/
theorem numbers_read_back :
    (∃ s, (int (-305)).coerce .string = .ok (.text s) ∧
      (text s).coerce .integer = .ok (.int (-305)) ∧
      (text s).coerce .numeric = .ok (.int (-305))) ∧
    (∃ s, (float (.zero true)).coerce .string = .ok (.text s) ∧
      (text s).coerce .numeric = .ok (.int 0)) ∧
    (∃ s, (float large).coerce .string = .ok (.text s) ∧
      (text s).coerce .numeric = .ok (.int (Nat.pow 2 1023))) ∧
    (∃ s, (float half).coerce .string = .ok (.text s) ∧
      (text s).coerce .numeric = .ok (.float half)) ∧
    ∃ s, (float (.nan .fresh)).coerce .string = .ok (.text s) ∧
      (text s).coerce .numeric = .ok Number.nan.toNative := by
  have short : (-305 : Int).natAbs < tooLarge :=
    Nat.lt_trans (by decide) digitLimit_lt_tooLarge
  have zeroUnits : (Binary64.zero true).units? = some ((0 : Int) * Binary64.unitsPerOne) := by
    decide +kernel
  have largeUnits : large.units? = some ((Nat.pow 2 1023 : Nat) * Binary64.unitsPerOne) := by
    decide +kernel
  have halfUnits : ∀ n : Int, half.units? ≠ some (n * Binary64.unitsPerOne) := by
    intro n units
    have fraction : half.toInt? = none := by decide +kernel
    rw [Binary64.toInt_of_units units] at fraction
    cases fraction
  obtain ⟨wholes, doubles⟩ := number_text_exact
  obtain ⟨s, written, zero, _⟩ := doubles (.zero true)
  obtain ⟨t, writtenLarge, largest, _⟩ := doubles large
  obtain ⟨u, writtenHalf, _, _, half⟩ := doubles half
  obtain ⟨undefined, writtenNaN, _, coerced, _⟩ := doubles (.nan .fresh)
  exact ⟨wholes (-305) short, ⟨s, written, zero 0 zeroUnits⟩,
    ⟨t, writtenLarge, largest _ largeUnits⟩, ⟨u, writtenHalf, half rfl halfUnits⟩,
    undefined, writtenNaN, coerced rfl⟩

end Native

end HostBridge
