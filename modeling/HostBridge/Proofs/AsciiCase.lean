import HostBridge.Text.Case

namespace HostBridge.Text

def Ascii (cs : List Char) : Prop :=
  ∀ c ∈ cs, c.toNat < 128

/-- A capital letter of ASCII has its small one 32 places further; all else stays. -/
theorem toLower_cases (c : Char) :
    (65 ≤ c.toNat ∧ c.toNat ≤ 90) ∧ c.toLower.toNat = c.toNat + 32 ∨
      ¬(65 ≤ c.toNat ∧ c.toNat ≤ 90) ∧ c.toLower = c := by
  have bounds : (c.val ≥ 'A'.val ∧ c.val ≤ 'Z'.val) ↔ 65 ≤ c.toNat ∧ c.toNat ≤ 90 := by
    simp only [ge_iff_le, UInt32.le_iff_toNat_le]
    rfl
  unfold Char.toLower
  by_cases capital : c.val ≥ 'A'.val ∧ c.val ≤ 'Z'.val
  · rw [dif_pos capital]
    refine .inl ⟨bounds.mp capital, ?_⟩
    have small : c.toNat + 32 < 2 ^ 32 := by have := bounds.mp capital; omega
    exact (UInt32.toNat_add c.val 32).trans (Nat.mod_eq_of_lt small)
  · rw [dif_neg capital]
    exact .inr ⟨mt bounds.mpr capital, rfl⟩

/-- A small letter of ASCII has its capital one 32 places before; all else stays. -/
theorem toUpper_cases (c : Char) :
    (97 ≤ c.toNat ∧ c.toNat ≤ 122) ∧ c.toUpper.toNat + 32 = c.toNat ∨
      ¬(97 ≤ c.toNat ∧ c.toNat ≤ 122) ∧ c.toUpper = c := by
  have bounds : ('a'.val ≤ c.val ∧ c.val ≤ 'z'.val) ↔ 97 ≤ c.toNat ∧ c.toNat ≤ 122 := by
    simp only [UInt32.le_iff_toNat_le]
    rfl
  unfold Char.toUpper
  by_cases small : 'a'.val ≤ c.val ∧ c.val ≤ 'z'.val
  · rw [dif_pos small]
    refine .inl ⟨bounds.mp small, ?_⟩
    have h := bounds.mp small
    have sum : (c.val + ('A'.val - 'a'.val)).toNat = (c.val.toNat + (2 ^ 32 - 32)) % 2 ^ 32 :=
      UInt32.toNat_add c.val _
    change (c.val + ('A'.val - 'a'.val)).toNat + 32 = c.toNat
    rw [sum]
    change (c.toNat + (2 ^ 32 - 32)) % 2 ^ 32 + 32 = c.toNat
    omega
  · rw [dif_neg small]
    exact .inr ⟨mt bounds.mpr small, rfl⟩

/-- Of runs of which all but the first lie beyond ASCII only the first counts there. -/
theorem imageIn_ascii {runs : List CaseRun} (beyond : ∀ r ∈ runs.drop 1, 128 ≤ r.first) {c : Char}
    (ascii : c.toNat < 128) : imageIn runs c = imageIn (runs.take 1) c := by
  cases runs with
  | nil => rfl
  | cons run runs =>
    have none : (runs.find? fun r =>
        r.first ≤ c.toNat && c.toNat ≤ r.last && (c.toNat - r.first) % r.step == 0) = none := by
      rw [List.find?_eq_none]
      intro r hr met
      have far := beyond r hr
      simp only [Bool.and_eq_true, decide_eq_true_eq] at met
      omega
    unfold imageIn
    rw [List.find?_cons, none, List.take_succ_cons, List.take_zero, List.find?_cons, List.find?_nil]

/-- The image in a run without gaps. -/
theorem imageIn_run (first last image : Nat) (c : Char) :
    imageIn [⟨first, last, 1, image⟩] c =
      if first ≤ c.toNat ∧ c.toNat ≤ last then some (Char.ofNat (image + (c.toNat - first)))
      else none := by
  by_cases inside : first ≤ c.toNat ∧ c.toNat ≤ last
  · simp [imageIn, inside, Nat.mod_one]
  · rw [if_neg inside]
    simp only [imageIn, Nat.mod_one, Option.map_eq_none_iff, List.find?_singleton]
    simpa using inside

theorem lowerChar_ascii {c : Char} (ascii : c.toNat < 128) : lowerChar c = [c.toLower] := by
  have undotted : c ≠ '\u0130' := by
    rintro rfl
    exact absurd ascii (by decide)
  have beyond : (lowerRuns.drop 1).all (128 ≤ ·.first) = true := by decide +kernel
  have image : imageIn lowerRuns c = imageIn [⟨65, 90, 1, 97⟩] c :=
    imageIn_ascii (by simpa using beyond) ascii
  rw [lowerChar, if_neg undotted, image, imageIn_run]
  rcases toLower_cases c with ⟨capital, small⟩ | ⟨other, same⟩
  · have place : 97 + (c.toNat - 65) = c.toLower.toNat := by omega
    rw [if_pos capital, place, Char.ofNat_toNat, Option.getD_some]
  · rw [if_neg other, same, Option.getD_none]

theorem upperChar_ascii {c : Char} (ascii : c.toNat < 128) : upperChar c = [c.toUpper] := by
  have expands : (upperExpansions.find? (·.1 == c.toNat)) = none := by
    have beyond : upperExpansions.all (128 ≤ ·.1) = true := by decide +kernel
    rw [List.find?_eq_none]
    intro e he same
    have far := List.all_eq_true.mp beyond e he
    simp only [decide_eq_true_eq, beq_iff_eq] at far same
    omega
  have beyond : (upperRuns.drop 1).all (128 ≤ ·.first) = true := by decide +kernel
  have image : imageIn upperRuns c = imageIn [⟨97, 122, 1, 65⟩] c :=
    imageIn_ascii (by simpa using beyond) ascii
  simp only [upperChar, expands]
  rw [image, imageIn_run]
  rcases toUpper_cases c with ⟨small, capital⟩ | ⟨other, same⟩
  · have place : 65 + (c.toNat - 97) = c.toUpper.toNat := by omega
    rw [if_pos small, place, Char.ofNat_toNat, Option.getD_some]
  · rw [if_neg other, same, Option.getD_none]

theorem lowerFrom_ascii (before : List Char) {cs : List Char} (ascii : Ascii cs) :
    lowerFrom before cs = cs.map Char.toLower := by
  induction cs generalizing before with
  | nil => rfl
  | cons c cs ih =>
    obtain ⟨first, rest⟩ := List.forall_mem_cons.mp ascii
    have unended : c ≠ '\u03a3' := by
      rintro rfl
      exact absurd first (by decide)
    rw [lowerFrom, if_neg unended, lowerChar_ascii first, ih _ rest]
    rfl

theorem lower_ascii {cs : List Char} (ascii : Ascii cs) : lower cs = cs.map Char.toLower :=
  lowerFrom_ascii [] ascii

theorem upper_ascii {cs : List Char} (ascii : Ascii cs) : upper cs = cs.map Char.toUpper := by
  induction cs with
  | nil => rfl
  | cons c cs ih =>
    obtain ⟨first, rest⟩ := List.forall_mem_cons.mp ascii
    rw [upper, List.flatMap_cons, upperChar_ascii first]
    exact congrArg (c.toUpper :: ·) (ih rest)

/-- The capital of a small letter is that of its own capital. -/
theorem toUpper_toLower (c : Char) : c.toLower.toUpper = c.toUpper := by
  rcases toLower_cases c with ⟨capital, small⟩ | ⟨_, same⟩
  · have kept : c.toUpper = c := by
      rcases toUpper_cases c with ⟨within, _⟩ | ⟨_, same⟩
      · omega
      · exact same
    rw [kept]
    rcases toUpper_cases c.toLower with ⟨_, back⟩ | ⟨other, _⟩
    · exact Char.toNat_inj.mp (by omega)
    · omega
  · rw [same]

end HostBridge.Text
