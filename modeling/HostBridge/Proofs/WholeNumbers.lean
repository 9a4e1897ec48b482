import HostBridge.Proofs.Reproduction

namespace HostBridge

namespace Binary64

theorem floor_of_toInt {x : Binary64} {n : Int} (h : x.toInt? = some n) : x.floor? = some n := by
  have positive : 0 < unitsPerOne := by decide +kernel
  rw [floor?, units_of_toInt h, Option.map_some, Int.mul_ediv_cancel _ (by omega)]

theorem isZero_of_toInt {x : Binary64} {n : Int} (h : x.toInt? = some n) :
    x.isZero = (n == 0) := by
  have zero : n * unitsPerOne = 0 ↔ n = 0 := by
    simpa only [Int.zero_mul] using units_inj (m := n) (n := 0)
  rw [Bool.eq_iff_iff, isZero, units_of_toInt h, beq_iff_eq, beq_iff_eq, Option.some.injEq, zero]

theorem toInt_zero (negative : Bool) : (zero negative).toInt? = some 0 := by
  cases negative <;> decide +kernel

end Binary64

namespace Native

theorem whole_scalar {v : Native} (h : v.isContainer = false) : v.whole.isContainer = false := by
  cases v with
  | float x =>
    rw [whole]
    split <;> rfl
  | list | tuple | table => cases h
  | _ => rfl

/-- No keys of a table become equal. -/
theorem whole_wellFormed {v : Native} (h : v.WellFormed) : v.whole.WellFormed := by
  induction h with
  | scalar single => exact .scalar (whole_scalar single)
  | list _ ih =>
    rw [whole, wholeItems_eq_map]
    exact .list (List.forall_mem_map.mpr ih)
  | tuple _ ih =>
    rw [whole, wholeItems_eq_map]
    exact .tuple (List.forall_mem_map.mpr ih)
  | table _ _ distinct keys values =>
    have apart := wholeEntries_distinct distinct
    rw [wholeEntries_eq_map] at apart
    rw [whole, wholeEntries_eq_map]
    exact .table (List.forall_mem_map.mpr keys) (List.forall_mem_map.mpr values) apart

/-- A value counts as the same number, or as the whole number that this is as a double. -/
theorem toNumber_whole (v : Native) : v.whole.toNumber = v.toNumber ∨
    ∃ x n, v.toNumber = .float x ∧ x.toInt? = some n ∧ v.whole.toNumber = .int n := by
  induction v with
  | float x =>
    cases hi : x.toInt? with
    | some n => exact .inr ⟨x, n, rfl, hi, by rw [whole, hi]; rfl⟩
    | none => exact .inl (by rw [whole, hi])
  | list items ih | tuple items ih =>
    cases items with
    | nil => exact .inl rfl
    | cons v vs =>
      cases vs with
      | nil => exact ih v (List.mem_singleton_self v)
      | cons => exact .inl rfl
  | _ => exact .inl rfl

theorem toBool_whole (v : Native) : v.whole.toBool = v.toBool := by
  cases v with
  | float x =>
    cases hi : x.toInt? with
    | some n =>
      have truth : (float x).toBool = !x.isZero := by
        cases x with
        | nan => cases hi
        | infinite | finite => rfl
      rw [truth, Binary64.isZero_of_toInt hi, whole, hi]
      rfl
    | none => rw [whole, hi]
  | list items | tuple items => cases items <;> rfl
  | table entries => cases entries <;> rfl
  | _ => rfl

theorem toItems_whole (v : Native) : v.whole.toItems = v.toItems.map whole := by
  cases v with
  | float x =>
    change (float x).whole.toItems = [(float x).whole]
    rw [whole]
    cases x.toInt? <;> rfl
  | list items | tuple items => exact wholeItems_eq_map items
  | table entries => simp only [whole, toItems, wholeEntries_eq_map, List.map_map]; rfl
  | _ => rfl

theorem numbered_whole (start : Nat) (items : List Native) :
    numbered start (items.map whole) =
      (numbered start items).map fun e => (e.1.whole, e.2.whole) := by
  induction items generalizing start with
  | nil => rfl
  | cons v vs ih => exact congrArg _ (ih (start + 1))

/-- The positions of items are texts, which stay. -/
theorem toEntries_whole (v : Native) :
    v.whole.toEntries = v.toEntries.map fun e => (e.1.whole, e.2.whole) := by
  have positions {w : Native} (h : w.whole.toEntries = numbered 0 w.whole.toItems) :
      w.whole.toEntries = (numbered 0 w.toItems).map fun e => (e.1.whole, e.2.whole) := by
    rw [h, toItems_whole, numbered_whole]
  cases v with
  | table entries => exact wholeEntries_eq_map entries
  | float x =>
    refine positions ?_
    rw [whole]
    cases x.toInt? <;> rfl
  | _ => exact positions rfl

theorem tag_toNumber_whole (v : Native) :
    v.whole.toNumber.toNative.tag = v.toNumber.toNative.tag := by
  rcases toNumber_whole v with equal | ⟨x, n, number, hi, held⟩
  · rw [equal]
  · rw [number, held]
    simp [Number.toNative, tag, tagFloat_whole hi]

theorem floor_whole (v : Native) : v.whole.toNumber.floor = v.toNumber.floor := by
  rcases toNumber_whole v with equal | ⟨x, n, number, hi, held⟩
  · rw [equal]
  · rw [number, held]
    simp only [Number.floor, Binary64.floor_of_toInt hi]

/-- The tag of a value does not tell how whole numbers in it are held, unless it is made a text. No
keys become equal when they are held as whole numbers. -/
theorem wrap_whole (v : Native) {kind : Kind} (other : kind ≠ .string) :
    v.whole.wrap kind = v.wrap kind ∧ (v.WellFormed → v.whole.WellFormed) := by
  refine ⟨?_, whole_wellFormed⟩
  -- The coerced values differ; it is their tags that are equal.
  have tagged {c d : Native} (coerced : v.coerce kind = .ok c) (held : v.whole.coerce kind = .ok d)
      (h : d.tag = c.tag) : v.whole.wrap kind = v.wrap kind := by
    rw [wrap, wrap, coerced, held, Attempt.ok_bind, Attempt.ok_bind, h]
  cases kind with
  | string => exact absurd rfl other
  | integer => exact tagged rfl rfl (by rw [floor_whole])
  | float | numeric => exact tagged rfl rfl (tag_toNumber_whole v)
  | boolean => exact tagged rfl rfl (by rw [toBool_whole])
  | array =>
    refine tagged rfl rfl ?_
    rw [toItems_whole, ← wholeItems_eq_map]
    exact tag_whole (.list v.toItems)
  | object =>
    refine tagged rfl rfl ?_
    rw [toEntries_whole, ← wholeEntries_eq_map]
    exact tag_whole (.table v.toEntries)
  | any => exact tagged rfl rfl (tag_whole v)

/-- Zero as a double, negative or not, is tagged as the whole number, alone and in a key. -/
theorem zeros_wrapped :
    let v := Native.tuple [.float (.zero true),
      .table [(.tuple [.float (.zero false)], .text "a"), (.text "0", .null)]]
    let w := Native.tuple [.int 0, .table [(.tuple [.int 0], .text "a"), (.text "0", .null)]]
    Kind.object ≠ .string ∧ v.whole = w ∧ w.wrap .object = v.wrap .object ∧ v.WellFormed ∧
      w.WellFormed := by
  intro v w
  have other : Kind.object ≠ .string := by decide
  have held : v.whole = w := by
    simp only [v, w, whole, wholeItems, wholeEntries, Binary64.toInt_zero]
  have formed : v.WellFormed := by
    have key : WellFormed (.tuple [.float (.zero false)]) :=
      .tuple (List.forall_mem_singleton.mpr (.scalar rfl))
    have table : WellFormed (.table [(.tuple [.float (.zero false)], .text "a"),
        (.text "0", .null)]) := by
      refine .table ?_ ?_ (List.pairwise_pair.mpr rfl)
      · exact List.forall_mem_cons.mpr ⟨key, List.forall_mem_singleton.mpr (.scalar rfl)⟩
      · exact List.forall_mem_cons.mpr ⟨.scalar rfl, List.forall_mem_singleton.mpr (.scalar rfl)⟩
    exact .tuple (List.forall_mem_cons.mpr ⟨.scalar rfl, List.forall_mem_singleton.mpr table⟩)
  obtain ⟨wrapped, kept⟩ := wrap_whole v other
  rw [held] at wrapped kept
  exact ⟨other, held, wrapped, formed, kept formed⟩

end Native

end HostBridge
