import HostBridge.Number.Literal
import Mathlib.Data.List.Forall2
import Mathlib.Data.Nat.Digits.Defs

namespace HostBridge

namespace Text

/-- A decimal digit of some script, and its value. -/
def DigitOf (c : Char) (v : Nat) : Prop :=
  ∃ z ∈ digitZeros, c.toNat = z + v ∧ v < 10

/-- Digits of all scripts one after the other, and their values. -/
def Digits (ds : List Char) (vs : List Nat) : Prop :=
  List.Forall₂ DigitOf ds vs

theorem digitZeros_apart : ∀ z ∈ digitZeros, ∀ w ∈ digitZeros, z < w → z + 10 ≤ w := by
  decide +kernel

theorem digitValue_iff {c : Char} {v : Nat} : digitValue? c = some v ↔ DigitOf c v := by
  unfold digitValue?
  constructor
  · intro h
    obtain ⟨z, found, rfl⟩ := Option.map_eq_some_iff.mp h
    have within := List.find?_some found
    simp only [Bool.and_eq_true, decide_eq_true_eq] at within
    exact ⟨z, List.mem_of_find?_eq_some found, by omega, by omega⟩
  · rintro ⟨z, hz, place, small⟩
    cases found : digitZeros.find? fun z => z ≤ c.toNat && c.toNat < z + 10 with
    | none =>
      have beyond := List.find?_eq_none.mp found z hz
      simp only [Bool.and_eq_true, decide_eq_true_eq] at beyond
      omega
    | some w =>
      have within := List.find?_some found
      simp only [Bool.and_eq_true, decide_eq_true_eq] at within
      -- The digits of two scripts do not overlap.
      have below := digitZeros_apart z hz w (List.mem_of_find?_eq_some found)
      have above := digitZeros_apart w (List.mem_of_find?_eq_some found) z hz
      rw [Option.map_some, Option.some.injEq]
      omega

theorem takeDigits_digits {ds rest : List Char} {vs : List Nat} (digits : Digits ds vs)
    (stop : ∀ c ∈ rest.head?, digitValue? c = none) : takeDigits (ds ++ rest) = (vs, rest) := by
  induction digits with
  | nil =>
    cases rest with
    | nil => rfl
    | cons c rest => rw [List.nil_append, takeDigits, stop c rfl]
  | cons digit _ ih => rw [List.cons_append, takeDigits, digitValue_iff.mpr digit, ih]

theorem takeDigits_split (cs : List Char) :
    ∃ ds vs rest, takeDigits cs = (vs, rest) ∧ cs = ds ++ rest ∧ Digits ds vs := by
  induction cs with
  | nil => exact ⟨[], [], [], rfl, rfl, .nil⟩
  | cons c cs ih =>
    unfold takeDigits
    cases hv : digitValue? c with
    | none => exact ⟨[], [], c :: cs, rfl, rfl, .nil⟩
    | some v =>
      obtain ⟨ds, vs, rest, taken, rfl, digits⟩ := ih
      exact ⟨c :: ds, v :: vs, rest, by simp only [taken], rfl, .cons (digitValue_iff.mp hv) digits⟩

theorem Digits.head {ds : List Char} {vs : List Nat} (h : Digits ds vs) :
    ∀ c ∈ ds.head?, ∃ v, digitValue? c = some v := by
  intro c hc
  cases h with
  | nil => cases hc
  | cons digit _ =>
    cases hc
    exact ⟨_, digitValue_iff.mpr digit⟩

theorem Digits.isEmpty {ds : List Char} {vs : List Nat} (h : Digits ds vs) :
    vs.isEmpty = ds.isEmpty := by
  cases h <;> rfl

theorem ofDigitValues_eq (base : Nat) (vs : List Nat) :
    ofDigitValues base vs = Nat.ofDigits base vs.reverse := by
  rw [ofDigitValues, Nat.ofDigits_eq_foldr, List.foldr_reverse]
  congr 1
  funext n v
  simp [Nat.mul_comm, Nat.add_comm]

end Text

open Text (DigitOf Digits)

namespace Numeral

/-- An optional sign, and whether it is a minus. -/
inductive Sign : List Char → Bool → Prop
  | absent : Sign [] false
  | plus : Sign ['+'] false
  | minus : Sign ['-'] true

/-- Digits with a point behind, among or before them, or without one: the values of those before it
and of those after it. -/
inductive Mantissa : List Char → List Nat → Option (List Nat) → Prop
  | whole {ds : List Char} {vs : List Nat} (digits : Digits ds vs) (some_left : ds ≠ []) :
      Mantissa ds vs none
  | pointed {ds fs : List Char} {vs ws : List Nat} (before : Digits ds vs) (after : Digits fs ws)
      (some_left : ds ≠ []) : Mantissa (ds ++ '.' :: fs) vs (some ws)
  | bare {fs : List Char} {ws : List Nat} (after : Digits fs ws) (some_left : fs ≠ []) :
      Mantissa ('.' :: fs) [] (some ws)

/-- The mark of a power of ten, an optional sign and digits; or nothing. -/
inductive Power : List Char → Option (Bool × List Nat) → Prop
  | absent : Power [] none
  | marked {e : Char} {ss ds : List Char} {negative : Bool} {vs : List Nat}
      (mark : e = 'e' ∨ e = 'E') (sign : Sign ss negative) (digits : Digits ds vs)
      (some_left : ds ≠ []) : Power (e :: (ss ++ ds)) (some (negative, vs))

/-- The text of a decimal numeral, and its parts. -/
inductive Spelled : List Char → Numeral → Prop
  | mk {ss ms ps : List Char} {negative : Bool} {whole : List Nat}
      {fraction : Option (List Nat)} {exponent : Option (Bool × List Nat)}
      (sign : Sign ss negative) (mantissa : Mantissa ms whole fraction)
      (power : Power ps exponent) : Spelled (ss ++ (ms ++ ps)) ⟨negative, whole, fraction, exponent⟩

theorem takeSign_append {ss rest : List Char} {negative : Bool} (sign : Sign ss negative)
    (unsigned : ∀ c ∈ rest.head?, c ≠ '-' ∧ c ≠ '+') :
    takeSign (ss ++ rest) = (negative, rest) := by
  cases sign with
  | plus | minus => rfl
  | absent =>
    cases rest with
    | nil => rfl
    | cons c rest =>
      obtain ⟨noMinus, noPlus⟩ := unsigned c rfl
      unfold takeSign
      split
      · simp_all
      · simp_all
      · rfl

theorem takeSign_split (cs : List Char) :
    ∃ ss negative rest, takeSign cs = (negative, rest) ∧ cs = ss ++ rest ∧ Sign ss negative := by
  unfold takeSign
  split
  · exact ⟨_, _, _, rfl, rfl, .minus⟩
  · exact ⟨_, _, _, rfl, rfl, .plus⟩
  · exact ⟨[], _, _, rfl, rfl, .absent⟩

theorem digits_unsigned {ds : List Char} {vs : List Nat} (h : Digits ds vs) :
    ∀ c ∈ ds.head?, c ≠ '-' ∧ c ≠ '+' := by
  intro c hc
  obtain ⟨v, hv⟩ := h.head c hc
  constructor <;> rintro rfl <;> cases hv

theorem readExponent_power {ps : List Char} {exponent : Option (Bool × List Nat)}
    (h : Power ps exponent) : readExponent? ps = some exponent := by
  cases h with
  | absent => rfl
  | @marked e ss ds negative vs mark sign digits some_left =>
    have signed := takeSign_append sign (digits_unsigned digits)
    have stop : ∀ c ∈ ([] : List Char).head?, Text.digitValue? c = none := by simp
    have taken := Text.takeDigits_digits digits stop
    rw [List.append_nil] at taken
    cases digits with
    | nil => exact absurd rfl some_left
    | cons => simp only [readExponent?, mark, ↓reduceIte, signed, taken]

theorem power_readExponent {cs : List Char} {exponent : Option (Bool × List Nat)}
    (h : readExponent? cs = some exponent) : Power cs exponent := by
  cases cs with
  | nil =>
    cases h
    exact .absent
  | cons c cs =>
    simp only [readExponent?] at h
    split at h
    · rename_i mark
      obtain ⟨ss, negative, after, signed, rfl, sign⟩ := takeSign_split cs
      obtain ⟨ds, vs, rest, taken, rfl, digits⟩ := Text.takeDigits_split after
      simp only [signed, taken] at h
      split at h
      · rename_i all
        cases all
        cases h
        rw [List.append_nil]
        refine .marked mark sign digits ?_
        rintro rfl
        cases digits
      · cases h
    · cases h

theorem Power.stop {ps : List Char} {exponent : Option (Bool × List Nat)}
    (h : Power ps exponent) : ∀ c ∈ ps.head?, Text.digitValue? c = none ∧ c ≠ '.' := by
  intro c hc
  cases h with
  | absent => cases hc
  | marked mark =>
    cases hc
    rcases mark with rfl | rfl <;> decide

/-- The parts of a numeral behind its sign are read one after the other. -/
theorem Mantissa.read {ms ps : List Char} {whole : List Nat} {fraction : Option (List Nat)}
    (h : Mantissa ms whole fraction)
    (stop : ∀ c ∈ ps.head?, Text.digitValue? c = none ∧ c ≠ '.') :
    ∃ rest, Text.takeDigits (ms ++ ps) = (whole, rest) ∧ takeFraction rest = (fraction, ps) ∧
      (whole.isEmpty && (fraction.getD []).isEmpty) = false := by
  have digitless : ∀ c ∈ ps.head?, Text.digitValue? c = none := fun c hc => (stop c hc).1
  have pointless : takeFraction ps = (none, ps) := by
    cases ps with
    | nil => rfl
    | cons c ps =>
      unfold takeFraction
      split
      · rename_i same
        cases same
        exact absurd rfl (stop '.' rfl).2
      · rfl
  have unpointed {fs : List Char} {ws : List Nat} (after : Digits fs ws) :
      takeFraction ('.' :: (fs ++ ps)) = (some ws, ps) := by
    rw [takeFraction, Text.takeDigits_digits after digitless]
  have pointed (rest : List Char) : ∀ c ∈ ('.' :: rest).head?, Text.digitValue? c = none := by
    rintro c ⟨⟩
    decide
  cases h with
  | whole digits some_left =>
    refine ⟨ps, Text.takeDigits_digits digits digitless, pointless, ?_⟩
    simp [digits.isEmpty, some_left]
  | @pointed ds fs _ ws before after some_left =>
    refine ⟨'.' :: (fs ++ ps), ?_, unpointed after, ?_⟩
    · rw [List.append_assoc]
      exact Text.takeDigits_digits before (pointed _)
    · simp [before.isEmpty, some_left]
  | @bare fs ws after some_left =>
    refine ⟨'.' :: (fs ++ ps), Text.takeDigits_digits .nil (pointed _), unpointed after, ?_⟩
    simp [after.isEmpty, some_left]

theorem Mantissa.unsigned {ms : List Char} {whole : List Nat} {fraction : Option (List Nat)}
    (h : Mantissa ms whole fraction) (ps : List Char) :
    ∀ c ∈ (ms ++ ps).head?, c ≠ '-' ∧ c ≠ '+' := by
  have digits {ds rest : List Char} {vs : List Nat} (digits : Digits ds vs) (some_left : ds ≠ []) :
      ∀ c ∈ (ds ++ rest).head?, c ≠ '-' ∧ c ≠ '+' := by
    obtain ⟨d, ds, rfl⟩ := List.exists_cons_of_ne_nil some_left
    exact fun c hc => digits_unsigned digits c hc
  cases h with
  | whole whole some_left => exact digits whole some_left
  | pointed before _ some_left =>
    rw [List.append_assoc]
    exact digits before some_left
  | bare =>
    rintro c ⟨⟩
    decide

/-- A numeral is read as its parts. -/
theorem Spelled.read {cs : List Char} {n : Numeral} (h : Spelled cs n) : ofChars? cs = some n := by
  cases h with
  | mk sign mantissa power =>
    obtain ⟨rest, whole, fraction, some_left⟩ := mantissa.read power.stop
    simp only [ofChars?, takeSign_append sign (mantissa.unsigned _), whole, fraction, some_left,
      Bool.false_eq_true, ↓reduceIte, readExponent_power power]
    rfl

theorem takeFraction_split (cs : List Char) :
    takeFraction cs = (none, cs) ∨ ∃ fs ws ps, takeFraction cs = (some ws, ps) ∧
      cs = '.' :: (fs ++ ps) ∧ Digits fs ws := by
  unfold takeFraction
  split
  · rename_i cs
    obtain ⟨fs, ws, ps, taken, rfl, digits⟩ := Text.takeDigits_split cs
    exact .inr ⟨fs, ws, ps, by simp only [taken], rfl, digits⟩
  · exact .inl rfl

/-- What is read as a numeral spells it. -/
theorem spelled_read {cs : List Char} {n : Numeral} (h : ofChars? cs = some n) : Spelled cs n := by
  obtain ⟨ss, negative, after, signed, rfl, sign⟩ := takeSign_split cs
  obtain ⟨ds, whole, rest, taken, rfl, digits⟩ := Text.takeDigits_split after
  simp only [ofChars?, signed, taken] at h
  split at h
  · cases h
  · rename_i some_left
    obtain ⟨exponent, power, parts⟩ := Option.bind_eq_some_iff.mp h
    cases parts
    have power := power_readExponent power
    rcases takeFraction_split rest with same | ⟨fs, ws, ps, fraction, rfl, after⟩
    · rw [same] at some_left power ⊢
      refine .mk sign (.whole digits ?_) power
      rintro rfl
      cases digits
      exact some_left rfl
    · rw [fraction] at some_left power ⊢
      cases digits with
      | nil =>
        have mantissa : Mantissa ('.' :: fs) [] (some ws) := by
          refine .bare after ?_
          rintro rfl
          cases after
          exact some_left rfl
        have spelled := Spelled.mk sign mantissa power
        exact spelled
      | cons digit digits =>
        have mantissa := Mantissa.pointed (.cons digit digits) after (List.cons_ne_nil _ _)
        have spelled := Spelled.mk sign mantissa power
        rwa [List.append_assoc] at spelled

theorem ofChars_iff {cs : List Char} {n : Numeral} : ofChars? cs = some n ↔ Spelled cs n :=
  ⟨spelled_read, Spelled.read⟩

theorem Spelled.chars {cs : List Char} {n : Numeral} (h : Spelled cs n) :
    ∀ c ∈ cs, (∃ v, DigitOf c v) ∨ c ∈ ['+', '-', '.', 'e', 'E'] := by
  have signs {ss : List Char} {negative : Bool} (sign : Sign ss negative) :
      ∀ c ∈ ss, c ∈ ['+', '-', '.', 'e', 'E'] := by
    cases sign <;> simp
  have digits {ds : List Char} {vs : List Nat} (digits : Digits ds vs) :
      ∀ c ∈ ds, ∃ v, DigitOf c v := by
    induction digits with
    | nil => exact List.forall_mem_nil _
    | cons digit _ ih => exact List.forall_mem_cons.mpr ⟨⟨_, digit⟩, ih⟩
  cases h with
  | mk sign mantissa power =>
    refine List.forall_mem_append.mpr ⟨fun c hc => .inr (signs sign c hc), ?_⟩
    refine List.forall_mem_append.mpr ⟨?_, ?_⟩
    · cases mantissa with
      | whole whole => exact fun c hc => .inl (digits whole c hc)
      | pointed before after =>
        refine List.forall_mem_append.mpr ⟨fun c hc => .inl (digits before c hc), ?_⟩
        exact List.forall_mem_cons.mpr ⟨.inr (by simp), fun c hc => .inl (digits after c hc)⟩
      | bare after =>
        exact List.forall_mem_cons.mpr ⟨.inr (by simp), fun c hc => .inl (digits after c hc)⟩
    · cases power with
      | absent => exact List.forall_mem_nil _
      | marked mark sign powers =>
        refine List.forall_mem_cons.mpr ⟨.inr (by rcases mark with rfl | rfl <;> simp), ?_⟩
        exact List.forall_mem_append.mpr
          ⟨fun c hc => .inr (signs sign c hc), fun c hc => .inl (digits powers c hc)⟩

end Numeral

end HostBridge
