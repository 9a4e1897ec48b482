import HostBridge.Proofs.Reproduction

namespace HostBridge

namespace Native

/-- The exact value of a finite number, in units of `2 ^ -1074`; true is one and false is zero. -/
def exactUnits? : Native → Option Int
  | .float x => x.units?
  | v => v.asInt?.map (· * Binary64.unitsPerOne)

/-- When two keys are one key of a table. Numbers and booleans are compared as exact values,
whatever they are held as, and tuples item by item; a NaN is one key with the very same object, and
with nothing else. -/
inductive EqualKeys : Native → Native → Prop
  | number (first : a.exactUnits? = some u) (second : b.exactUnits? = some u) : EqualKeys a b
  | infinite (negative : Bool) :
      EqualKeys (.float (.infinite negative)) (.float (.infinite negative))
  | nan (object : Binary64.NaN) (known : object ≠ .fresh) :
      EqualKeys (.float (.nan object)) (.float (.nan object))
  | null : EqualKeys .null .null
  | text (s : String) : EqualKeys (.text s) (.text s)
  | bytes (bs : List UInt8) : EqualKeys (.bytes bs) (.bytes bs)
  | tuple (length : xs.length = ys.length)
      (items : ∀ (i : Nat) (a b : Native), xs[i]? = some a → ys[i]? = some b → EqualKeys a b) :
      EqualKeys (.tuple xs) (.tuple ys)

theorem EqualKeys.symm {a b : Native} (h : EqualKeys a b) : EqualKeys b a := by
  induction h with
  | number first second => exact .number second first
  | infinite negative => exact .infinite negative
  | nan object known => exact .nan object known
  | null => exact .null
  | text s => exact .text s
  | bytes bs => exact .bytes bs
  | tuple length _ ih => exact .tuple length.symm fun i a b ha hb => ih i b a hb ha

theorem EqualKeys.exactUnits {a b : Native} (h : EqualKeys a b) :
    a.exactUnits? = b.exactUnits? := by
  cases h with
  | number first second => exact first.trans second.symm
  | infinite | nan | null | text | bytes | tuple => rfl

theorem EqualKeys.trans {a b c : Native} (h : EqualKeys a b) (h' : EqualKeys b c) :
    EqualKeys a c := by
  induction h generalizing c with
  | number first second => exact .number first (h'.exactUnits.symm.trans second)
  | infinite | nan | null | text | bytes => exact h'
  | @tuple xs ys length _ ih =>
    cases h' with
    | number first => cases first
    | @tuple _ zs length' items' =>
      refine .tuple (length.trans length') fun i a c ha hc => ?_
      have within : i < ys.length := length ▸ (List.getElem?_eq_some_iff.mp ha).1
      have middle : ys[i]? = some ys[i] := List.getElem?_eq_getElem within
      exact ih i a ys[i] ha middle (items' i ys[i] c middle hc)

/-- A NaN is one key with itself, if it can be met twice, and with nothing else. -/
theorem equalKeys_nan {object : Binary64.NaN} {k : Native} :
    EqualKeys (.float (.nan object)) k ↔ object ≠ .fresh ∧ k = .float (.nan object) := by
  constructor
  · intro h
    cases h with
    | number first => cases first
    | nan _ known => exact ⟨known, rfl⟩
  · rintro ⟨known, rfl⟩
    exact .nan object known

theorem sameInt_iff (n : Int) (b : Native) :
    sameInt n b = true ↔ b.exactUnits? = some (n * Binary64.unitsPerOne) := by
  have number (m : Int) : (some m == some n) = true ↔
      some (m * (Binary64.unitsPerOne : Int)) = some (n * Binary64.unitsPerOne) := by
    rw [beq_iff_eq, Option.some.injEq, Option.some.injEq, Binary64.units_inj]
  cases b with
  | float y => simp only [sameInt, Binary64.sameInt, exactUnits?, beq_iff_eq]
  | bool | int => exact number _
  | _ => constructor <;> intro h <;> cases h

/-- A finite number is equal to what has the same exact value. -/
theorem same_number {a : Native} {u : Int} (h : a.exactUnits? = some u) (b : Native) :
    same a b = true ↔ b.exactUnits? = some u := by
  cases a with
  | bool | int =>
    cases h
    exact sameInt_iff _ b
  | float x =>
    cases b with
    | float y =>
      rw [same, (Binary64.same_units h y).1, beq_iff_eq]
      rfl
    | bool | int =>
      simp only [same, asInt?, Option.any_some, Binary64.sameInt, beq_iff_eq, exactUnits?,
        Option.map_some]
      rw [show x.units? = some u from h, eq_comm]
    | _ => constructor <;> intro h <;> cases h
  | _ => cases h

/-- Items are equal as they stand in their places. -/
theorem sameItems_iff {xs ys : List Native} : sameItems xs ys = true ↔
    xs.length = ys.length ∧
      ∀ (i : Nat) (a b : Native), xs[i]? = some a → ys[i]? = some b → same a b = true := by
  induction xs generalizing ys with
  | nil => cases ys <;> simp [sameItems]
  | cons x xs ih =>
    cases ys with
    | nil => simp [sameItems]
    | cons y ys =>
      simp only [sameItems, Bool.and_eq_true, ih, List.length_cons, Nat.add_right_cancel_iff]
      constructor
      · rintro ⟨first, length, others⟩
        refine ⟨length, fun i a b ha hb => ?_⟩
        cases i with
        | zero =>
          cases ha
          cases hb
          exact first
        | succ i => exact others i a b (by simpa using ha) (by simpa using hb)
      · rintro ⟨length, each⟩
        exact ⟨each 0 x y rfl rfl, length, fun i a b ha hb => each (i + 1) a b ha hb⟩

theorem hashable_item {items : List Native} (h : (tuple items).hashable = true) :
    ∀ v ∈ items, v.hashable = true := by
  rw [hashable] at h
  induction items with
  | nil => exact List.forall_mem_nil _
  | cons v vs ih =>
    simp only [allHashable, Bool.and_eq_true] at h
    exact List.forall_mem_cons.mpr ⟨h.1, ih h.2⟩

theorem same_infinite (negative : Bool) (b : Native) :
    same (.float (.infinite negative)) b = true ↔ b = .float (.infinite negative) := by
  cases b with
  | float y =>
    cases y with
    | nan | finite => constructor <;> intro h <;> cases h
    | infinite t =>
      simp only [same, Binary64.same, beq_iff_eq, float.injEq, Binary64.infinite.injEq]
      exact eq_comm
  | _ => constructor <;> intro h <;> cases h

theorem same_nan (object : Binary64.NaN) (b : Native) :
    same (.float (.nan object)) b = true ↔ object ≠ .fresh ∧ b = .float (.nan object) := by
  cases b with
  | float y =>
    cases y with
    | nan other =>
      have one : same (.float (.nan object)) (.float (.nan other)) = object.same other := rfl
      rw [one, Binary64.NaN.same_iff, float.injEq, Binary64.nan.injEq]
    | infinite | finite => exact iff_of_false Bool.false_ne_true fun h => nomatch h.2
  | _ => exact iff_of_false Bool.false_ne_true fun h => nomatch h.2

/-- Values that can be keys compare as equal exactly when they are one key. -/
theorem same_iff_equalKeys {a b : Native} (ha : a.hashable = true) (hb : b.hashable = true) :
    (a == b) = true ↔ EqualKeys a b := by
  change same a b = true ↔ _
  induction a generalizing b with
  | list | table => cases ha
  | bool | int =>
    rw [same_number rfl]
    exact ⟨.number rfl, fun h => h.exactUnits.symm⟩
  | float x =>
    cases x with
    | finite negative m p canonical =>
      rw [same_number rfl]
      exact ⟨.number rfl, fun h => h.exactUnits.symm⟩
    | nan object => rw [same_nan, equalKeys_nan]
    | infinite negative =>
      rw [same_infinite]
      constructor
      · rintro rfl
        exact .infinite negative
      · rintro (first | _)
        · cases first
        · rfl
  | null =>
    constructor
    · intro h
      cases b <;> first | exact .null | cases h
    · rintro (first | _)
      · cases first
      · rfl
  | text s =>
    constructor
    · intro h
      cases b with
      | text t => exact eq_of_beq h ▸ .text s
      | _ => cases h
    · rintro (first | _)
      · cases first
      · exact beq_self_eq_true s
  | bytes bs =>
    constructor
    · intro h
      cases b with
      | bytes cs => exact eq_of_beq h ▸ .bytes bs
      | _ => cases h
    · rintro (first | _)
      · cases first
      · exact beq_self_eq_true bs
  | tuple xs ih =>
    constructor
    · intro h
      cases b with
      | tuple ys =>
        obtain ⟨length, each⟩ := sameItems_iff.mp h
        refine .tuple length fun i a b hx hy => ?_
        have hashable := hashable_item ha a (List.mem_of_getElem? hx)
        exact (ih a (List.mem_of_getElem? hx) hashable
          (hashable_item hb b (List.mem_of_getElem? hy))).mp (each i a b hx hy)
      | _ => cases h
    · intro h
      cases h with
      | number first => cases first
      | @tuple _ ys length each =>
        refine sameItems_iff.mpr ⟨length, fun i a b hx hy => ?_⟩
        have hashable := hashable_item ha a (List.mem_of_getElem? hx)
        exact (ih a (List.mem_of_getElem? hx) hashable
          (hashable_item hb b (List.mem_of_getElem? hy))).mpr (each i a b hx hy)

end Native

end HostBridge
