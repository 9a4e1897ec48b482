import HostBridge.Number.Text
import Mathlib.Tactic.Ring

namespace HostBridge

namespace Binary64

theorem roundQuotient_scale {c : Nat} (hc : 0 < c) (n d : Nat) :
    roundQuotient (n * c) (d * c) = roundQuotient n d := by
  unfold roundQuotient
  simp only [Nat.mul_div_mul_right n d hc, Nat.mul_mod_mul_right, ← Nat.mul_assoc,
    Nat.mul_lt_mul_right hc]

theorem ofUnits_scale {c : Nat} (hc : 0 < c) (negative : Bool) (n d : Nat) :
    ofUnits negative (n * c) (d * c) = ofUnits negative n d := by
  simp only [ofUnits, Nat.mul_div_mul_right n d hc, Nat.mul_right_comm d c, roundQuotient_scale hc]

/-- Equal quotients are rounded to the same number. -/
theorem ofUnits_congr {n d n' d' : Nat} (hd : 0 < d) (hd' : 0 < d') (h : n * d' = n' * d)
    (negative : Bool) : ofUnits negative n d = ofUnits negative n' d' := by
  rw [← ofUnits_scale hd' negative n d, h, Nat.mul_comm d d', ofUnits_scale hd]

theorem roundQuotient_exact (m : Nat) {d : Nat} (hd : 0 < d) : roundQuotient (m * d) d = m := by
  simp only [roundQuotient, Nat.mul_mod_left, Nat.mul_div_cancel m hd, Nat.mul_zero, hd, ↓reduceIte]

theorem log2_canonical {m p : Nat} (h : Canonical m p) : (m * 2 ^ p).log2 - 52 = p := by
  obtain ⟨small, _, large | rfl⟩ := h
  · have positive : 0 < m := Nat.lt_of_lt_of_le (by decide) large
    have nonzero : m * 2 ^ p ≠ 0 := Nat.ne_of_gt (Nat.mul_pos positive (Nat.two_pow_pos p))
    have exact : (m * 2 ^ p).log2 = 52 + p := by
      refine (Nat.log2_eq_iff nonzero).mpr ⟨?_, ?_⟩
      · rw [Nat.pow_add]
        exact Nat.mul_le_mul_right _ large
      · rw [Nat.add_right_comm, Nat.pow_add]
        exact Nat.mul_lt_mul_of_pos_right small (Nat.two_pow_pos p)
    omega
  · rcases Nat.eq_zero_or_pos m with rfl | positive
    · decide
    · have below := (Nat.log2_lt (Nat.ne_of_gt positive)).mpr small
      rw [Nat.pow_zero, Nat.mul_one]
      omega

/-- A finite number is the one nearest its own number of units. -/
theorem ofUnits_canonical {m p : Nat} (h : Canonical m p) (negative : Bool) :
    ofUnits negative (m * 2 ^ p) 1 = .finite negative m p h := by
  have exact := roundQuotient_exact m (Nat.two_pow_pos p)
  simp only [ofUnits, Nat.div_one, Nat.one_mul, log2_canonical h, Nat.pow_eq, exact, pack, h,
    ↓reduceDIte]

theorem pack_sign {k q m p : Nat} {h : Canonical m p}
    (packed : pack false k q = .finite false m p h) (negative : Bool) :
    pack negative k q = .finite negative m p h := by
  unfold pack at packed ⊢
  split at packed
  · cases packed
    exact dif_pos h
  · rename_i not_canonical
    rw [dif_neg not_canonical]
    split at packed
    · cases packed
      exact dif_pos h
    · cases packed

end Binary64

theorem digitsOf_ten_mul {n d : Nat} (hn : 0 < n) (hd : d < 10) :
    digitsOf (10 * n + d) = digitsOf n ++ [d.digitChar] := by
  rw [digitsOf, ← Nat.toDigits_append_toDigits (by decide) hn hd, Nat.toDigits_of_lt_base hd]
  rfl

theorem digitsOf_scale {n : Nat} (hn : 0 < n) (k : Nat) :
    digitsOf (n * 10 ^ k) = digitsOf n ++ zeros k := by
  induction k with
  | zero => simp [zeros]
  | succ k ih =>
    have positive : 0 < n * 10 ^ k := Nat.mul_pos hn (Nat.pow_pos (by decide))
    have more : n * 10 ^ (k + 1) = 10 * (n * 10 ^ k) + 0 := by ring
    rw [more, digitsOf_ten_mul positive (by decide), ih, zeros, zeros, List.replicate_succ',
      List.append_assoc]
    rfl

namespace Decimal

open Binary64

/-- Zeros at the end of the digits of a numeral can be taken into its exponent. -/
theorem nearest_scale (negative : Bool) (n k : Nat) (e : Int) :
    nearest negative ⟨n * 10 ^ k, e - k⟩ = nearest negative ⟨n, e⟩ := by
  rcases Nat.eq_zero_or_pos n with rfl | positive
  · simp [nearest]
  · have ten : ∀ j : Nat, 0 < 10 ^ j := fun j => Nat.pow_pos (by decide)
    have scaled : n * 10 ^ k ≠ 0 := Nat.ne_of_gt (Nat.mul_pos positive (ten k))
    have top : e - k + (digitsOf (n * 10 ^ k)).length = e + (digitsOf n).length := by
      rw [digitsOf_scale positive, List.length_append, zeros, List.length_replicate]
      omega
    have ratio : ofRatio negative (n * 10 ^ k * 10 ^ (e - k).toNat) (10 ^ (-(e - k)).toNat) =
        ofRatio negative (n * 10 ^ e.toNat) (10 ^ (-e).toNat) := by
      refine ofUnits_congr (ten _) (ten _) ?_ negative
      generalize unitsPerOne = u
      have places : 10 ^ k * 10 ^ (e - k).toNat * 10 ^ (-e).toNat =
          10 ^ e.toNat * 10 ^ (-(e - k)).toNat := by
        rw [← Nat.pow_add, ← Nat.pow_add, ← Nat.pow_add]
        congr 1
        omega
      calc n * 10 ^ k * 10 ^ (e - k).toNat * u * 10 ^ (-e).toNat
          = n * u * (10 ^ k * 10 ^ (e - k).toNat * 10 ^ (-e).toNat) := by ring
        _ = n * 10 ^ e.toNat * u * 10 ^ (-(e - k)).toNat := by rw [places]; ring
    simp only [nearest, Nat.pow_eq, top, ratio, scaled, Nat.ne_of_gt positive]

theorem nearest_sign {d : Decimal} {m p : Nat} {h : Canonical m p}
    (read : d.nearest false = .finite false m p h) (negative : Bool) :
    d.nearest negative = .finite negative m p h := by
  unfold nearest at read ⊢
  dsimp only at read ⊢
  split at read
  · rename_i small
    cases read
    exact if_pos small
  · rename_i not_small
    rw [if_neg not_small]
    split at read
    · cases read
    · rename_i not_large
      rw [if_neg not_large]
      exact pack_sign read negative

theorem firstNearest_nearest {x : Binary64} {pair : Decimal × Decimal} {d : Decimal}
    (h : firstNearest x pair = some d) : d.nearest false = x := by
  unfold firstNearest at h
  split at h
  · rename_i near
    cases h
    exact near
  · split at h
    · rename_i far
      cases h
      exact far
    · cases h

/-- The exact decimal expansion of a number of units reads back where it is within the powers of ten
that are formed. -/
theorem expansion_nearest {units k : Nat} (one : unitsPerOne = Nat.pow 2 k) (far : 400 < k)
    (least : 10 ^ (k - 400) ≤ units * Nat.pow 5 k) (most : units * Nat.pow 5 k < 10 ^ (k + 400)) :
    nearest false ⟨units * Nat.pow 5 k, -k⟩ = ofUnits false units 1 := by
  have long : ¬ (digitsOf (units * Nat.pow 5 k)).length ≤ k - 400 := fun short =>
    Nat.not_lt.mpr least ((Nat.length_toDigits_le_iff (by decide) (by omega)).mp short)
  have short : (digitsOf (units * Nat.pow 5 k)).length ≤ k + 400 :=
    (Nat.length_toDigits_le_iff (by decide) (by omega)).mpr most
  have positive : units * Nat.pow 5 k ≠ 0 := by
    intro none
    rw [none] at least
    exact Nat.not_succ_le_zero _ (Nat.le_trans (Nat.pow_pos (by decide)) least)
  have within : ¬ (units * Nat.pow 5 k = 0 ∨
      -(k : Int) + (digitsOf (units * Nat.pow 5 k)).length < -400) := by
    omega
  have finite : ¬ 400 < -(k : Int) + (digitsOf (units * Nat.pow 5 k)).length := by omega
  simp only [nearest, within, finite, ↓reduceIte, ofRatio]
  refine ofUnits_congr (Nat.pow_pos (by decide)) Nat.one_pos ?_ false
  simp only [one, Nat.pow_eq, Int.toNat_neg_natCast, Int.neg_neg, Int.toNat_natCast, Nat.pow_zero,
    Nat.mul_one, Nat.mul_assoc, ← Nat.mul_pow]

theorem shortest_units {units : Nat} (positive : 0 < units)
    (bound : units * Nat.pow 5 1074 < 10 ^ (1074 + 400)) :
    (shortest units).nearest false = ofUnits false units 1 := by
  unfold shortest
  cases found : (List.range 17).findSome? fun count => ofCount? units (count + 1) with
  | some d =>
    obtain ⟨count, _, hd⟩ := List.exists_of_findSome?_eq_some found
    exact firstNearest_nearest hd
  | none =>
    rw [Option.getD_none]
    exact expansion_nearest (k := 1074) rfl (by decide)
      (Nat.le_trans (by decide +kernel) (Nat.le_mul_of_pos_left _ positive)) bound

/-- The shortest numeral of a finite number but zero reads back. -/
theorem shortest_nearest {m p : Nat} (h : Canonical m p) (positive : 0 < m) (negative : Bool) :
    (shortest (m * 2 ^ p)).nearest negative = .finite negative m p h := by
  refine nearest_sign ?_ negative
  rw [← ofUnits_canonical h false]
  refine shortest_units (Nat.mul_pos positive (Nat.two_pow_pos p)) ?_
  have bound : m * 2 ^ p < Nat.pow 2 53 * Nat.pow 2 2045 :=
    Nat.mul_lt_mul_of_lt_of_le h.1 (Nat.pow_le_pow_right (by decide) h.2.1)
      (Nat.pow_pos (by decide))
  exact Nat.lt_of_lt_of_le (Nat.mul_lt_mul_of_pos_right bound (Nat.pow_pos (by decide)))
    (by decide +kernel)

end Decimal

end HostBridge
