import HostBridge.Proofs.JsonText
import HostBridge.Proofs.Kinds
import HostBridge.Proofs.Reproduction
import Mathlib.Data.Rat.Floor

namespace HostBridge

/-- The exact value of a finite double. -/
def Binary64.toRat? (x : Binary64) : Option ℚ :=
  x.units?.map fun (u : Int) => (u : ℚ) / unitsPerOne

/-- The exact value of a finite number. -/
def Number.toRat? : Number → Option ℚ
  | .int n => some n
  | .float x => x.toRat?

theorem Binary64.floor_toRat (x : Binary64) : x.floor? = x.toRat?.map (⌊·⌋) := by
  cases hu : x.units? with
  | none => simp only [floor?, toRat?, hu, Option.map_none]
  | some u => simp only [floor?, toRat?, hu, Option.map_some, Rat.floor_intCast_div_natCast]

theorem Number.floor_finite {n : Number} {q : ℚ} (h : n.toRat? = some q) : n.floor = .int ⌊q⌋ := by
  cases n with
  | int n =>
    cases h
    rw [floor, Int.floor_intCast]
  | float x =>
    have number : x.toRat? = some q := h
    simp only [floor, Binary64.floor_toRat, number, Option.map_some]

theorem Number.floor_unbounded {n : Number} (h : n.toRat? = none) :
    ((∃ object, n = .float (.nan object)) ∨ ∃ negative, n = .float (.infinite negative)) ∧
      n.floor = n := by
  cases n with
  | int n => cases h
  | float x =>
    cases x with
    | nan object => exact ⟨.inl ⟨object, rfl⟩, rfl⟩
    | infinite negative => exact ⟨.inr ⟨negative, rfl⟩, rfl⟩
    | finite => cases h

theorem floor_isGreatest (q : ℚ) : IsGreatest {j : Int | (j : ℚ) ≤ q} ⌊q⌋ := by
  constructor
  · exact Int.floor_le q
  · intro j below
    exact Int.le_floor.mpr below

@[simp]
theorem Number.toNumber_toNative (n : Number) : n.toNative.toNumber = n := by
  cases n <;> rfl

/-- Values that a kind admits are in its representation already. -/
theorem coerce_admits {kind : Kind} {c : Native} (h : kind.Admits c) : c.coerce kind = .ok c := by
  cases kind with
  | integer =>
    cases c with
    | int n => rfl
    | float x =>
      cases x with
      | nan | infinite => rfl
      | finite => exact h.elim
    | _ => exact h.elim
  | float | numeric =>
    cases c with
    | int | float => rfl
    | _ => exact h.elim
  | string =>
    cases c with
    | text s => rfl
    | _ => exact h.elim
  | boolean =>
    cases c with
    | bool b => rfl
    | _ => exact h.elim
  | array =>
    cases c with
    | list items => rfl
    | _ => exact h.elim
  | object =>
    cases c with
    | table entries => rfl
    | _ => exact h.elim
  | any => rfl

namespace Native

theorem numbered_values (start : Nat) (items : List Native) :
    (numbered start items).map (·.2) = items := by
  induction items generalizing start with
  | nil => rfl
  | cons v vs ih => rw [numbered, List.map_cons, ih]

/-- No item is lost where items become entries, and none changes its place. -/
theorem toEntries_values (v : Native) : v.toEntries.map (·.2) = v.toItems := by
  cases v with
  | table entries => rfl
  | _ => exact numbered_values 0 _

/-- Items are not in each other's way when they are put into a table by their positions. -/
theorem toEntries_inserted (v : Native) :
    v = .table v.toEntries ∨ Ordered.ofList v.toEntries = v.toEntries := by
  cases v with
  | table entries => exact .inl rfl
  | _ =>
    right
    apply Json.ofList_distinct
    exact numbered_distinct 0 _

/-- Coercion to one kind twice is coercion once. To objects it keeps all items in their order, under
keys of their own if the value is no table, so that they are the items of the object. To whole
numbers it is the greatest one not above the coercion to numbers, where that is finite, and else the
same. -/
theorem coercions_agree (v target : Native) :
    (∀ c, v.coerce (kindOrAny target) = .ok c → c.coerce (kindOrAny target) = .ok c) ∧
    (∃ entries, v.coerce .object = .ok (.table entries) ∧
      v.coerce .array = .ok (.list (entries.map (·.2))) ∧
      (table entries).coerce .array = v.coerce .array ∧
      (v = .table entries ∨ Ordered.ofList entries = entries)) ∧
    ∃ n : Number, v.coerce .numeric = .ok n.toNative ∧
      n.toNative.coerce .integer = v.coerce .integer ∧
      match n.toRat? with
      | some q => ∃ i : Int, v.coerce .integer = .ok (.int i) ∧
          IsGreatest {j : Int | (j : ℚ) ≤ q} i
      | none =>
          ((∃ object, n = .float (.nan object)) ∨ ∃ negative, n = .float (.infinite negative)) ∧
          v.coerce .integer = .ok n.toNative := by
  refine ⟨?_, ?_, ?_⟩
  · intro c coerced
    exact coerce_admits (coerce_admitted coerced)
  · refine ⟨v.toEntries, rfl, ?_, ?_, toEntries_inserted v⟩
    · rw [toEntries_values]
      rfl
    · rw [coerce, coerce, toItems, toEntries_values]
  · refine ⟨v.toNumber, rfl, ?_, ?_⟩
    · rw [coerce, coerce, Number.toNumber_toNative]
    · cases value : v.toNumber.toRat? with
      | some q =>
        refine ⟨⌊q⌋, ?_, floor_isGreatest q⟩
        rw [coerce, Number.floor_finite value]
        rfl
      | none =>
        obtain ⟨unbounded, same⟩ := Number.floor_unbounded value
        refine ⟨unbounded, ?_⟩
        rw [coerce, same]

/-- One and a half, below zero. -/
def minusThreeHalves : Binary64 :=
  .finite true (3 * Nat.pow 2 51) 1022 (by decide)

theorem minusThreeHalves_toRat : minusThreeHalves.toRat? = some (-3 / 2) := by
  have units : minusThreeHalves.units? = some (-((3 * 2 ^ 1073 : Nat) : Int)) := by decide +kernel
  have one : Binary64.unitsPerOne = 2 ^ 1073 * 2 := by decide +kernel
  have nonzero : ((2 ^ 1073 : Nat) : ℚ) ≠ 0 := by positivity
  rw [Binary64.toRat?, units, Option.map_some, one, Int.cast_neg, Int.cast_natCast, Nat.cast_mul,
    Nat.cast_mul]
  generalize ((2 ^ 1073 : Nat) : ℚ) = h at nonzero ⊢
  push_cast
  field_simp

/-- In a list it counts as itself, and its whole number is below it. -/
theorem minusThreeHalves_coerced :
    let v := list [.float minusThreeHalves]
    (∃ c, v.coerce (kindOrAny (.text "Integer")) = .ok c ∧
      c.coerce (kindOrAny (.text "Integer")) = .ok c) ∧
    (∃ entries, v.coerce .object = .ok (.table entries) ∧
      (table entries).coerce .array = v.coerce .array) ∧
    v.coerce .numeric = .ok (.float minusThreeHalves) ∧
    ∃ i : Int, v.coerce .integer = .ok (.int i) ∧ IsGreatest {j : Int | (j : ℚ) ≤ -3 / 2} i := by
  intro v
  obtain ⟨again, ⟨entries, object, _, array, _⟩, n, numeric, _, value⟩ :=
    coercions_agree v (.text "Integer")
  have number : n = .float minusThreeHalves := by
    cases n with
    | int n => cases numeric
    | float x =>
      cases numeric
      rfl
  subst number
  rw [Number.toRat?, minusThreeHalves_toRat] at value
  exact ⟨⟨_, rfl, again _ rfl⟩, ⟨entries, object, array⟩, rfl, value⟩

end Native

end HostBridge
