import HostBridge.Proofs.ShortestNumeral
import Mathlib.Data.Rat.Floor
import Mathlib.Tactic.Linarith
import Mathlib.Tactic.Positivity

namespace HostBridge

namespace Binary64

/-- The number of units from which on a number is infinite: half a step past the largest finite
one. -/
def overflow : ℚ :=
  (2 ^ 53 - 1 / 2) * 2 ^ 2045

/-- What a number of units, without its sign, is rounded to: infinite from the overflow on, and
before it the closest of the finite numbers. Where another one is as close, the significand is
even. -/
inductive Rounded (negative : Bool) (u : ℚ) : Binary64 → Prop
  | finite {m p : Nat} (canonical : Canonical m p)
      (closest : ∀ n q : Nat, Canonical n q → |(m : ℚ) * 2 ^ p - u| ≤ |(n : ℚ) * 2 ^ q - u|)
      (even : ∀ n q : Nat, Canonical n q → |(m : ℚ) * 2 ^ p - u| = |(n : ℚ) * 2 ^ q - u| →
        (n : ℚ) * 2 ^ q = m * 2 ^ p ∨ m % 2 = 0)
      (before : u < overflow) : Rounded negative u (.finite negative m p canonical)
  | infinite (beyond : overflow ≤ u) : Rounded negative u (.infinite negative)

/-- A whole number at most half a step away, and even if it is as far as that. -/
structure Halfway (r : Nat) (t : ℚ) : Prop where
  within : |(r : ℚ) - t| ≤ 1 / 2
  even : |(r : ℚ) - t| = 1 / 2 → r % 2 = 0

theorem roundQuotient_halfway (n : Nat) {d : Nat} (hd : 0 < d) :
    Halfway (roundQuotient n d) ((n : ℚ) / d) := by
  have positive : (0 : ℚ) < d := by exact_mod_cast hd
  have split : (n : ℚ) / d = (n / d : Nat) + ((n % d : Nat) : ℚ) / d := by
    rw [div_eq_iff positive.ne', add_mul, div_mul_cancel₀ _ positive.ne', mul_comm]
    exact_mod_cast (Nat.div_add_mod n d).symm
  have low : (0 : ℚ) ≤ ((n % d : Nat) : ℚ) / d := by positivity
  have less : 2 * (n % d) < d ↔ ((n % d : Nat) : ℚ) / d < 1 / 2 := by
    rw [div_lt_div_iff₀ positive two_pos, one_mul, mul_comm]
    exact_mod_cast Iff.rfl
  have more : d < 2 * (n % d) ↔ 1 / 2 < ((n % d : Nat) : ℚ) / d := by
    rw [div_lt_div_iff₀ two_pos positive, one_mul, mul_comm _ (2 : ℚ)]
    exact_mod_cast Iff.rfl
  have high : ((n % d : Nat) : ℚ) / d < 1 := by
    rw [div_lt_one positive]
    exact_mod_cast Nat.mod_lt n hd
  rw [split]
  generalize ((n % d : Nat) : ℚ) / d = f at low high less more
  unfold roundQuotient
  dsimp only
  generalize n / d = q
  have below : |(q : ℚ) - (q + f)| = f := by
    rw [sub_add_cancel_left, abs_neg, abs_of_nonneg low]
  have above : |((q + 1 : Nat) : ℚ) - (q + f)| = 1 - f := by
    rw [Nat.cast_add, Nat.cast_one, add_sub_add_left_eq_sub, abs_of_nonneg (by linarith)]
  split
  · rename_i down
    rw [less] at down
    constructor
    · rw [below]
      exact down.le
    · rw [below]
      intro half
      exact absurd half down.ne
  · rename_i not_down
    rw [less, not_lt] at not_down
    split
    · rename_i up
      rw [more] at up
      constructor
      · rw [above]
        linarith
      · rw [above]
        intro half
        linarith
    · rename_i not_up
      rw [more, not_lt] at not_up
      split
      · rename_i even
        constructor
        · rw [below]
          exact not_up
        · exact fun _ => even
      · rename_i odd
        constructor
        · rw [above]
          linarith
        · intro _
          omega

/-- No other whole number is closer, and one that is as close is half a step away. -/
theorem Halfway.closest {r : Nat} {t : ℚ} (h : Halfway r t) {k : Nat} (other : k ≠ r) :
    |(r : ℚ) - t| ≤ |(k : ℚ) - t| ∧ (|(r : ℚ) - t| = |(k : ℚ) - t| → r % 2 = 0) := by
  have apart : (1 : ℚ) ≤ |(k : ℚ) - r| := by
    have whole : (1 : Int) ≤ |(k : Int) - r| := by
      apply Int.one_le_abs
      omega
    exact_mod_cast whole
  have triangle : |(k : ℚ) - r| ≤ |(k : ℚ) - t| + |(r : ℚ) - t| := by
    rw [abs_sub_comm (r : ℚ) t]
    exact abs_sub_le _ _ _
  have within := h.within
  constructor
  · linarith
  · intro tie
    apply h.even
    linarith

/-- The exponent at which a number of units has a significand. -/
structure Placed (p : Nat) (u : ℚ) : Prop where
  below : u < 2 ^ 53 * 2 ^ p
  above : p = 0 ∨ 2 ^ 52 * 2 ^ p ≤ u

theorem log2_placed (n : Nat) {d : Nat} (hd : 0 < d) :
    Placed ((n / d).log2 - 52) ((n : ℚ) / d) := by
  have positive : (0 : ℚ) < d := by exact_mod_cast hd
  constructor
  · rw [div_lt_iff₀ positive, ← pow_add]
    have small : n / d < 2 ^ (53 + ((n / d).log2 - 52)) := by
      apply Nat.lt_of_lt_of_le Nat.lt_log2_self
      apply Nat.pow_le_pow_right two_pos
      omega
    exact_mod_cast (Nat.div_lt_iff_lt_mul hd).mp small
  · rcases Nat.lt_or_ge 52 (n / d).log2 with large | small
    · right
      rw [le_div_iff₀ positive, ← pow_add]
      have nonzero : n / d ≠ 0 := by
        intro none
        rw [none] at large
        exact absurd large (by decide)
      have least : 2 ^ (52 + ((n / d).log2 - 52)) ≤ n / d := by
        rw [Nat.add_sub_cancel' large.le]
        exact Nat.log2_self_le nonzero
      exact_mod_cast (Nat.le_div_iff_mul_le hd).mp least
    · left
      omega

/-- A finite number is a whole number of steps, or less than all that have a significand. -/
theorem canonical_steps {n q : Nat} (h : Canonical n q) (p : Nat) :
    (∃ k : Nat, (n : ℚ) * 2 ^ q = k * 2 ^ p) ∨
      0 < p ∧ (n : ℚ) * 2 ^ q < 2 ^ 52 * 2 ^ p := by
  rcases Nat.lt_or_ge q p with finer | coarser
  · right
    have small : (n : ℚ) < 2 ^ 53 := by exact_mod_cast h.1
    have steps : (2 : ℚ) ^ 53 * 2 ^ q ≤ 2 ^ 52 * 2 ^ p := by
      rw [← pow_add, ← pow_add]
      apply pow_le_pow_right₀ one_le_two
      omega
    refine ⟨by omega, lt_of_lt_of_le ?_ steps⟩
    gcongr
  · left
    refine ⟨n * 2 ^ (q - p), ?_⟩
    rw [Nat.cast_mul, Nat.cast_pow, Nat.cast_ofNat, mul_assoc, ← pow_add,
      Nat.sub_add_cancel coarser]

theorem scaled_distance (a t : ℚ) (p : Nat) :
    |a * 2 ^ p - t * 2 ^ p| = |a - t| * 2 ^ p := by
  have step : (0 : ℚ) < 2 ^ p := pow_pos two_pos p
  rw [← sub_mul, abs_mul, abs_of_pos step]

/-- The significand that is nearest at the exponent of a number of units is nearest to it among all
finite numbers. -/
theorem Halfway.finite_closest {r p : Nat} {t : ℚ} (h : Halfway r t) (placed : Placed p (t * 2 ^ p))
    {n q : Nat} (canonical : Canonical n q) :
    |(r : ℚ) * 2 ^ p - t * 2 ^ p| ≤ |(n : ℚ) * 2 ^ q - t * 2 ^ p| ∧
      (|(r : ℚ) * 2 ^ p - t * 2 ^ p| = |(n : ℚ) * 2 ^ q - t * 2 ^ p| →
        (n : ℚ) * 2 ^ q = r * 2 ^ p ∨ r % 2 = 0) := by
  have step : (0 : ℚ) < 2 ^ p := pow_pos two_pos p
  rcases canonical_steps canonical p with ⟨k, whole⟩ | ⟨some_step, less⟩
  · rw [whole, scaled_distance, scaled_distance]
    by_cases same : k = r
    · subst same
      exact ⟨le_refl _, fun _ => .inl rfl⟩
    · obtain ⟨closer, even⟩ := h.closest same
      refine ⟨by gcongr, fun tie => .inr (even ?_)⟩
      exact mul_right_cancel₀ step.ne' tie
  · -- The least number with a significand lies between.
    have least : (2 : ℚ) ^ 52 * 2 ^ p ≤ t * 2 ^ p := placed.above.resolve_left (by omega)
    have closer : |(r : ℚ) * 2 ^ p - t * 2 ^ p| ≤ |(2 : ℚ) ^ 52 * 2 ^ p - t * 2 ^ p| := by
      rw [scaled_distance, scaled_distance]
      by_cases same : 2 ^ 52 = r
      · subst same
        rw [Nat.cast_pow, Nat.cast_ofNat]
      · have far := (h.closest same).1
        rw [Nat.cast_pow, Nat.cast_ofNat] at far
        exact mul_le_mul_of_nonneg_right far step.le
    rw [abs_of_nonpos (by linarith : (2 : ℚ) ^ 52 * 2 ^ p - t * 2 ^ p ≤ 0)] at closer
    rw [abs_of_nonpos (by linarith : (n : ℚ) * 2 ^ q - t * 2 ^ p ≤ 0)]
    exact ⟨by linarith, fun tie => by linarith⟩

/-- What packing makes of a significand that may have been carried up. -/
theorem pack_cases (negative : Bool) {r p : Nat} (most : r ≤ Nat.pow 2 53)
    (least : p = 0 ∨ Nat.pow 2 52 ≤ r) :
    (∃ (m q : Nat) (canonical : Canonical m q), pack negative r p = .finite negative m q canonical ∧
      (m : ℚ) * 2 ^ q = r * 2 ^ p ∧ (r % 2 = 0 → m % 2 = 0) ∧
        (p < 2045 ∨ p = 2045 ∧ r < Nat.pow 2 53)) ∨
    pack negative r p = .infinite negative ∧ (2045 < p ∨ p = 2045 ∧ r = Nat.pow 2 53) := by
  unfold pack
  split
  · rename_i canonical
    refine .inl ⟨r, p, canonical, rfl, rfl, id, ?_⟩
    rcases Nat.lt_or_eq_of_le canonical.2.1 with small | top
    · exact .inl small
    · exact .inr ⟨top, canonical.1⟩
  · rename_i carried
    have canonical_iff : Canonical r p ↔ r < Nat.pow 2 53 ∧ p ≤ 2045 := by
      unfold Canonical
      exact ⟨fun h => ⟨h.1, h.2.1⟩, fun h => ⟨h.1, h.2, least.symm⟩⟩
    rw [canonical_iff] at carried
    split
    · rename_i canonical
      have full : r = Nat.pow 2 53 := by
        have small := canonical.2.1
        omega
      subst full
      refine .inl ⟨_, _, canonical, rfl, ?_, fun _ => by decide, .inl ?_⟩
      · rw [pow_succ]
        norm_num
        ring
      · have small := canonical.2.1
        omega
    · rename_i beyond
      refine .inr ⟨rfl, ?_⟩
      rcases Nat.lt_or_ge 2045 p with above | within
      · exact .inl above
      · have full : r = Nat.pow 2 53 := by omega
        subst full
        right
        refine ⟨?_, rfl⟩
        by_contra lower
        exact beyond ⟨by decide, by omega, .inl (by decide)⟩

theorem Placed.bounded {r p : Nat} {t : ℚ} (h : Halfway r t) (placed : Placed p (t * 2 ^ p)) :
    r ≤ Nat.pow 2 53 ∧ (p = 0 ∨ Nat.pow 2 52 ≤ r) := by
  have step : (0 : ℚ) < 2 ^ p := pow_pos two_pos p
  obtain ⟨low, high⟩ := abs_le.mp h.within
  constructor
  · have small : t < 2 ^ 53 := lt_of_mul_lt_mul_right placed.below step.le
    have near : (r : ℚ) < (Nat.pow 2 53 + 1 : Nat) := by
      rw [Nat.cast_add, Nat.cast_one, Nat.pow_eq, Nat.cast_pow, Nat.cast_ofNat]
      linarith
    exact Nat.lt_succ_iff.mp (by exact_mod_cast near)
  · rcases placed.above with zero | large
    · exact .inl zero
    · have least : (2 : ℚ) ^ 52 ≤ t := le_of_mul_le_mul_right large step
      have near : ((Nat.pow 2 52 : Nat) : ℚ) < (r + 1 : Nat) := by
        rw [Nat.cast_add, Nat.cast_one, Nat.pow_eq, Nat.cast_pow, Nat.cast_ofNat]
        linarith
      exact .inr (Nat.lt_succ_iff.mp (by exact_mod_cast near))

theorem steps_le_overflow {p : Nat} (small : p < 2045) : (2 : ℚ) ^ 53 * 2 ^ p ≤ overflow := by
  have steps : (2 : ℚ) ^ p * 2 ≤ 2 ^ 2045 := by
    rw [← pow_succ]
    exact pow_le_pow_right₀ one_le_two small
  have positive : (0 : ℚ) < 2 ^ p := pow_pos two_pos p
  unfold overflow
  generalize (2 : ℚ) ^ 2045 = top at steps
  generalize (2 : ℚ) ^ p = step at steps positive
  linarith

theorem overflow_le_steps {p : Nat} (large : 2045 < p) : overflow ≤ (2 : ℚ) ^ 52 * 2 ^ p := by
  have steps : (2 : ℚ) ^ 2045 * 2 ≤ 2 ^ p := by
    rw [← pow_succ]
    exact pow_le_pow_right₀ one_le_two large
  have positive : (0 : ℚ) < 2 ^ 2045 := pow_pos two_pos 2045
  unfold overflow
  generalize (2 : ℚ) ^ 2045 = top at steps positive
  generalize (2 : ℚ) ^ p = step at steps
  linarith

/-- At the last exponent, a significand that is not carried up stands for less than the overflow. -/
theorem Halfway.before_overflow {r : Nat} {t : ℚ} (h : Halfway r t) (kept : r < Nat.pow 2 53) :
    t * 2 ^ 2045 < overflow := by
  have step : (0 : ℚ) < 2 ^ 2045 := pow_pos two_pos 2045
  obtain ⟨low, high⟩ := abs_le.mp h.within
  have most : (r : ℚ) + 1 ≤ 2 ^ 53 := by exact_mod_cast kept
  apply mul_lt_mul_of_pos_right _ step
  -- The last significand is odd, so it is closer than half a step.
  by_contra beyond
  have half : |(r : ℚ) - t| = 1 / 2 := by
    rw [abs_sub_comm, abs_of_nonneg (by linarith)]
    linarith
  have last : r + 1 = 2 ^ 53 := by
    have equal : (r : ℚ) + 1 = 2 ^ 53 := by linarith
    exact_mod_cast equal
  have even := h.even half
  omega

/-- What packing makes of the nearest significand is what the number of units is rounded to. -/
theorem pack_rounded (negative : Bool) {r p : Nat} {t : ℚ} (h : Halfway r t)
    (placed : Placed p (t * 2 ^ p)) : Rounded negative (t * 2 ^ p) (pack negative r p) := by
  obtain ⟨most, least⟩ := Placed.bounded h placed
  have step : (0 : ℚ) < 2 ^ p := pow_pos two_pos p
  rcases pack_cases negative most least with
    ⟨m, q, canonical, packed, size, even, within⟩ | ⟨packed, beyond⟩
  · rw [packed]
    refine .finite canonical ?_ ?_ ?_
    · intro n k other
      rw [size]
      exact (h.finite_closest placed other).1
    · intro n k other tie
      rw [size] at tie ⊢
      exact ((h.finite_closest placed other).2 tie).imp_right even
    · rcases within with small | ⟨rfl, kept⟩
      · exact lt_of_lt_of_le placed.below (steps_le_overflow small)
      · exact h.before_overflow kept
  · rw [packed]
    refine .infinite ?_
    rcases beyond with large | ⟨rfl, carried⟩
    · have above := placed.above.resolve_left (by omega)
      exact le_trans (overflow_le_steps large) above
    · obtain ⟨low, high⟩ := abs_le.mp h.within
      subst carried
      rw [Nat.pow_eq, Nat.cast_pow, Nat.cast_ofNat] at high
      apply mul_le_mul_of_nonneg_right _ step.le
      linarith

/-- A quotient of units is rounded to the number that is made of it. -/
theorem ofUnits_rounded (negative : Bool) (n : Nat) {d : Nat} (hd : 0 < d) :
    Rounded negative ((n : ℚ) / d) (ofUnits negative n d) := by
  have placed := log2_placed n hd
  unfold ofUnits
  dsimp only
  generalize (n / d).log2 - 52 = p at placed ⊢
  have step : (0 : ℚ) < 2 ^ p := pow_pos two_pos p
  have halfway := roundQuotient_halfway n (Nat.mul_pos hd (Nat.two_pow_pos p))
  have units : (n : ℚ) / (d * 2 ^ p : Nat) * 2 ^ p = n / d := by
    rw [Nat.cast_mul, Nat.cast_pow, Nat.cast_ofNat, div_mul_eq_mul_div,
      mul_div_mul_right _ _ step.ne']
  rw [← units] at placed ⊢
  exact pack_rounded negative halfway placed

theorem canonical_size {m p n q : Nat} (h : Canonical m p) (k : Canonical n q)
    (same : (m : ℚ) * 2 ^ p = n * 2 ^ q) : m = n ∧ p = q := by
  have whole : m * 2 ^ p = n * 2 ^ q := by exact_mod_cast same
  have exponents : p = q := by rw [← log2_canonical h, ← log2_canonical k, whole]
  subst exponents
  exact ⟨Nat.eq_of_mul_eq_mul_right (Nat.two_pow_pos p) whole, rfl⟩

/-- Of two finite numbers that are as close as can be, one has an odd significand. -/
theorem even_apart {m p n q : Nat} {u : ℚ} (h : Canonical m p) (k : Canonical n q)
    (even : m % 2 = 0) (otherEven : n % 2 = 0) (less : (m : ℚ) * 2 ^ p < n * 2 ^ q)
    (tie : |(m : ℚ) * 2 ^ p - u| = |(n : ℚ) * 2 ^ q - u|)
    (closest : ∀ k r : Nat, Canonical k r → |(m : ℚ) * 2 ^ p - u| ≤ |(k : ℚ) * 2 ^ r - u|) :
    False := by
  have step : (0 : ℚ) < 2 ^ p := pow_pos two_pos p
  have next : Canonical (m + 1) p := by
    have small : m < 2 ^ 53 := h.1
    refine ⟨?_, h.2.1, h.2.2.imp_left fun large => ?_⟩
    · change m + 1 < 2 ^ 53
      omega
    · exact Nat.le_succ_of_le large
  have far := closest (m + 1) p next
  rw [Nat.cast_add, Nat.cast_one, add_mul, one_mul] at far
  -- The two are on either side, and the next number is not between them.
  have between : (n : ℚ) * 2 ^ q ≤ m * 2 ^ p + 2 ^ p := by
    by_contra beyond
    rw [not_le] at beyond
    rcases abs_cases ((m : ℚ) * 2 ^ p - u) with ⟨left, _⟩ | ⟨left, _⟩ <;>
      rcases abs_cases ((n : ℚ) * 2 ^ q - u) with ⟨right, _⟩ | ⟨right, _⟩ <;>
      rcases abs_cases ((m : ℚ) * 2 ^ p + 2 ^ p - u) with ⟨mid, _⟩ | ⟨mid, _⟩ <;>
      linarith
  rcases canonical_steps k p with ⟨j, whole⟩ | ⟨some_step, small⟩
  · rw [whole] at less between
    have low : (m : ℚ) < j := lt_of_mul_lt_mul_right less step.le
    have high : (j : ℚ) ≤ m + 1 := by
      apply le_of_mul_le_mul_right _ step
      linarith
    have place : j = m + 1 := by
      have low : m < j := by exact_mod_cast low
      have high : j ≤ m + 1 := by exact_mod_cast high
      omega
    subst place
    obtain ⟨equal, _⟩ := canonical_size next k whole.symm
    omega
  · have large : (2 : ℚ) ^ 52 ≤ m := by
      have large := h.2.2.resolve_right (by omega)
      exact_mod_cast large
    have below := mul_le_mul_of_nonneg_right large step.le
    linarith

/-- A number of units is rounded to one number only. -/
theorem Rounded.unique {negative : Bool} {u : ℚ} {x y : Binary64} (h : Rounded negative u x)
    (k : Rounded negative u y) : x = y := by
  cases h with
  | infinite beyond =>
    cases k with
    | infinite => rfl
    | finite _ _ _ before => exact absurd before (not_lt.mpr beyond)
  | @finite m p canonical closest even before =>
    cases k with
    | infinite beyond => exact absurd before (not_lt.mpr beyond)
    | @finite n q other otherClosest otherEven _ =>
      have tie := le_antisymm (closest n q other) (otherClosest m p canonical)
      have same : (m : ℚ) * 2 ^ p = n * 2 ^ q := by
        by_contra different
        have mEven := (even n q other tie).resolve_left (Ne.symm different)
        have nEven := (otherEven m p canonical tie.symm).resolve_left different
        rcases lt_or_gt_of_ne different with less | greater
        · exact even_apart canonical other mEven nEven less tie closest
        · exact even_apart other canonical nEven mEven greater tie.symm otherClosest
      obtain ⟨rfl, rfl⟩ := canonical_size canonical other same
      rfl

theorem unitsPerOne_pow : (unitsPerOne : ℚ) = 2 ^ 1074 := by
  unfold unitsPerOne
  generalize 1074 = k
  rw [Nat.pow_eq, Nat.cast_pow, Nat.cast_ofNat]

theorem unitsPerOne_pos : (0 : ℚ) < unitsPerOne := by
  rw [unitsPerOne_pow]
  exact pow_pos two_pos _

theorem pow_lt_pow_cast {a b j k : Nat} (h : Nat.pow a j < Nat.pow b k) :
    (a : ℚ) ^ j < (b : ℚ) ^ k := by
  exact_mod_cast h

/-- Four hundred places behind the point there is less than half a unit. -/
theorem tiny_units : (10 : ℚ) ^ (-401 : Int) * unitsPerOne < 1 / 2 := by
  have bound : (2 : ℚ) ^ 1075 < 10 ^ 401 :=
    pow_lt_pow_cast (a := 2) (b := 10) (by decide +kernel)
  have ten : (0 : ℚ) < 10 ^ 401 := pow_pos (by norm_num) _
  rw [unitsPerOne_pow, zpow_neg, zpow_ofNat, inv_mul_lt_iff₀ ten]
  rw [pow_succ] at bound
  generalize (2 : ℚ) ^ 1074 = units at bound ⊢
  generalize (10 : ℚ) ^ 401 = far at bound ⊢
  linarith

/-- Four hundred places before the point is past all finite numbers. -/
theorem huge_units : overflow ≤ (10 : ℚ) ^ (400 : Int) * unitsPerOne := by
  have bound : (2 : ℚ) ^ 1024 < 10 ^ 400 :=
    pow_lt_pow_cast (a := 2) (b := 10) (by decide +kernel)
  have units : (0 : ℚ) < 2 ^ 1074 := pow_pos two_pos _
  have scaled := mul_lt_mul_of_pos_right bound units
  have top := overflow_le_steps (p := 2046) (by decide)
  rw [← pow_add] at top scaled
  rw [unitsPerOne_pow, zpow_ofNat]
  exact le_trans top scaled.le

/-- Less than half a unit is rounded to zero. -/
theorem zero_rounded (negative : Bool) {u : ℚ} (low : 0 ≤ u) (high : u < 1 / 2) :
    Rounded negative u (zero negative) := by
  have none : ((0 : Nat) : ℚ) * 2 ^ 0 - u = -u := by
    rw [Nat.cast_zero, zero_mul, zero_sub]
  refine .finite (by decide) ?_ (fun _ _ _ _ => .inr rfl) ?_
  · intro n q _
    rw [none, abs_neg, abs_of_nonneg low]
    rcases Nat.eq_zero_or_pos (n * 2 ^ q) with nothing | positive
    · have size : (n : ℚ) * 2 ^ q = 0 := by exact_mod_cast nothing
      rw [size, zero_sub, abs_neg, abs_of_nonneg low]
    · have size : (1 : ℚ) ≤ n * 2 ^ q := by exact_mod_cast positive
      rw [abs_of_nonneg (by linarith)]
      linarith
  · have small := steps_le_overflow (p := 0) (by decide)
    linarith

end Binary64

theorem digitsOf_bounds {n : Nat} (positive : 0 < n) :
    (10 : ℚ) ^ ((digitsOf n).length - 1 : Int) ≤ n ∧
      (n : ℚ) < 10 ^ ((digitsOf n).length : Int) := by
  have some_left : 0 < (digitsOf n).length := Nat.length_toDigits_pos
  constructor
  · obtain ⟨k, hk⟩ := Nat.exists_eq_succ_of_ne_zero some_left.ne'
    rw [hk, Nat.cast_succ, add_sub_cancel_right, zpow_natCast]
    rcases Nat.eq_zero_or_pos k with rfl | more
    · exact_mod_cast positive
    · have long : ¬ (digitsOf n).length ≤ k := by omega
      have least := mt (Nat.length_toDigits_le_iff (by decide) more).mpr long
      exact_mod_cast not_lt.mp least
  · rw [zpow_natCast]
    exact_mod_cast (Nat.length_toDigits_le_iff (by decide) some_left).mp (le_refl _)

namespace Decimal

open Binary64

/-- The exact value of a numeral. -/
def value (d : Decimal) : ℚ :=
  d.digits * 10 ^ d.exponent

theorem zpow_toNat (e : Int) :
    (10 : ℚ) ^ e = 10 ^ e.toNat / 10 ^ (-e).toNat := by
  have whole : (e.toNat : Int) - (-e).toNat = e := Int.toNat_sub_toNat_neg e
  rw [← zpow_natCast, ← zpow_natCast, ← zpow_sub₀ (by norm_num), whole]

theorem value_bounds {d : Decimal} (positive : 0 < d.digits) :
    (10 : ℚ) ^ (d.exponent + (digitsOf d.digits).length - 1) ≤ d.value ∧
      d.value < 10 ^ (d.exponent + (digitsOf d.digits).length) := by
  have ten : (0 : ℚ) < 10 ^ d.exponent := zpow_pos (by norm_num) _
  obtain ⟨least, most⟩ := digitsOf_bounds positive
  rw [add_sub_assoc, zpow_add₀ (by norm_num), zpow_add₀ (by norm_num), value,
    mul_comm (d.digits : ℚ)]
  exact ⟨mul_le_mul_of_nonneg_left least ten.le, mul_lt_mul_of_pos_left most ten⟩

/-- A numeral is read as the number that its exact value is rounded to. -/
theorem nearest_rounded (negative : Bool) (d : Decimal) :
    Rounded negative (d.value * unitsPerOne) (d.nearest negative) := by
  have one := unitsPerOne_pos
  unfold nearest
  dsimp only
  split
  · rename_i tiny
    apply zero_rounded
    · exact mul_nonneg (mul_nonneg (Nat.cast_nonneg _) (zpow_nonneg (by norm_num) _)) one.le
    · rcases Nat.eq_zero_or_pos d.digits with none | positive
      · rw [value, none, Nat.cast_zero, zero_mul, zero_mul]
        norm_num
      · have top := tiny.resolve_left positive.ne'
        have most := (value_bounds positive).2
        have less : (10 : ℚ) ^ (d.exponent + (digitsOf d.digits).length) ≤ 10 ^ (-401 : Int) :=
          zpow_le_zpow_right₀ (by norm_num) (by omega)
        exact lt_trans (mul_lt_mul_of_pos_right (lt_of_lt_of_le most less) one) tiny_units
  · rename_i not_tiny
    rw [not_or] at not_tiny
    split
    · rename_i top
      have least := (value_bounds (Nat.pos_of_ne_zero not_tiny.1)).1
      have more : (10 : ℚ) ^ (400 : Int) ≤ 10 ^ (d.exponent + (digitsOf d.digits).length - 1) :=
        zpow_le_zpow_right₀ (by norm_num) (by omega)
      have huge := mul_le_mul_of_nonneg_right (le_trans more least) one.le
      exact .infinite (le_trans huge_units huge)
    · have rounded := ofUnits_rounded negative
        (d.digits * Nat.pow 10 d.exponent.toNat * unitsPerOne)
        (d := Nat.pow 10 (-d.exponent).toNat) (Nat.pow_pos (by decide))
      have exact : ((d.digits * Nat.pow 10 d.exponent.toNat * unitsPerOne : Nat) : ℚ) /
          (Nat.pow 10 (-d.exponent).toNat : Nat) = d.value * unitsPerOne := by
        rw [value, zpow_toNat, Nat.cast_mul, Nat.cast_mul, Nat.pow_eq, Nat.pow_eq, Nat.cast_pow,
          Nat.cast_pow, Nat.cast_ofNat]
        ring
      rwa [exact] at rounded

end Decimal

end HostBridge
