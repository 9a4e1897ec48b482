import HostBridge.Proofs.NormalForm

namespace HostBridge

namespace Binary64

/-- Doubles are equal as their numbers of units, where both have one. -/
theorem same_units {x : Binary64} {u : Int} (h : x.units? = some u) (y : Binary64) :
    x.same y = (y.units? == some u) ∧ y.same x = (y.units? == some u) := by
  cases x with
  | nan | infinite => cases h
  | finite s m p c =>
    cases y with
    | nan | infinite => exact ⟨rfl, rfl⟩
    | finite t q r d =>
      simp only [same, h]
      cases hy : units? (.finite t q r d) with
      | none => cases hy
      | some v =>
        exact ⟨Bool.beq_comm, rfl⟩

theorem same_self {x : Binary64} (h : x.isNaN = false) : x.same x = true := by
  cases x with
  | nan => cases h
  | infinite s => simp [same]
  | finite s m p c => simp [same, units?]

theorem units_of_toInt {x : Binary64} {n : Int} (h : x.toInt? = some n) :
    x.units? = some (n * unitsPerOne) := by
  unfold toInt? at h
  cases hu : x.units? with
  | none =>
    rw [hu] at h
    cases h
  | some u =>
    simp only [hu, Option.bind_eq_bind, Option.bind_some] at h
    split at h
    · rename_i whole
      cases h
      rw [Int.ediv_mul_cancel_of_emod_eq_zero whole]
    · cases h

theorem units_inj {m n : Int} : m * unitsPerOne = n * unitsPerOne ↔ m = n := by
  have positive : 0 < unitsPerOne := by decide +kernel
  exact Int.mul_eq_mul_right_iff (by omega)

theorem sameInt_of_toInt {x : Binary64} {n : Int} (h : x.toInt? = some n) (m : Int) :
    x.sameInt m = (n == m) := by
  rw [Bool.eq_iff_iff]
  simp only [sameInt, units_of_toInt h, beq_iff_eq, Option.some.injEq, units_inj]

end Binary64

namespace Native

def isContainer : Native → Bool
  | .list _ | .tuple _ | .table _ => true
  | _ => false

/-- No table in a value, at whatever depth, has two equal keys. -/
inductive WellFormed : Native → Prop
  | scalar (h : v.isContainer = false) : WellFormed v
  | list (h : ∀ v ∈ items, WellFormed v) : WellFormed (.list items)
  | tuple (h : ∀ v ∈ items, WellFormed v) : WellFormed (.tuple items)
  | table (keys : ∀ e ∈ entries, WellFormed e.1) (values : ∀ e ∈ entries, WellFormed e.2)
      (distinct : Ordered.Distinct entries) : WellFormed (.table entries)

/-- A boolean, a whole number, a text, or a double other than NaN. -/
def Taggable : Native → Prop
  | .bool _ | .int _ | .text _ => True
  | .float x => x.isNaN = false
  | _ => False

/-- A value made of taggable ones, lists and tables with taggable keys. -/
inductive Representable : Native → Prop
  | scalar (h : v.Taggable) : Representable v
  | list (h : ∀ v ∈ items, Representable v) : Representable (.list items)
  | table (keys : ∀ e ∈ entries, e.1.Taggable) (values : ∀ e ∈ entries, Representable e.2) :
      Representable (.table entries)

mutual

/-- Equality in which the entries of tables stand in the same order. -/
def alike : Native → Native → Bool
  | .list xs, .list ys | .tuple xs, .tuple ys => alikeItems xs ys
  | .table xs, .table ys => alikeEntries xs ys
  | a, b => same a b

def alikeItems : List Native → List Native → Bool
  | [], [] => true
  | x :: xs, y :: ys => alike x y && alikeItems xs ys
  | _, _ => false

def alikeEntries : List (Native × Native) → List (Native × Native) → Bool
  | [], [] => true
  | (k, v) :: xs, (l, w) :: ys => alike k l && alike v w && alikeEntries xs ys
  | _, _ => false

end

mutual

/-- A value with its doubles that are whole numbers as those, in all its parts and keys. -/
def whole : Native → Native
  | .float x => match x.toInt? with
    | some n => .int n
    | none => .float x
  | .list items => .list (wholeItems items)
  | .tuple items => .tuple (wholeItems items)
  | .table entries => .table (wholeEntries entries)
  | v => v

def wholeItems : List Native → List Native
  | [] => []
  | v :: vs => whole v :: wholeItems vs

def wholeEntries : List (Native × Native) → List (Native × Native)
  | [] => []
  | (k, v) :: es => (whole k, whole v) :: wholeEntries es

end

theorem wholeItems_eq_map (items : List Native) : wholeItems items = items.map whole := by
  induction items with
  | nil => rfl
  | cons v vs ih => simp [wholeItems, ih]

theorem wholeEntries_eq_map (entries : List (Native × Native)) :
    wholeEntries entries = entries.map fun e => (e.1.whole, e.2.whole) := by
  induction entries with
  | nil => rfl
  | cons e es ih => simp [wholeEntries, ih]

/-- A double that is a whole number gets the tag of that number. -/
theorem tag_whole (v : Native) : v.whole.tag = v.tag := by
  induction v with
  | float x =>
    cases hi : x.toInt? with
    | some n => simp [whole, tag, tagFloat_whole hi, hi]
    | none => simp [whole, hi]
  | list items ih | tuple items ih =>
    simp only [whole, tag, wholeItems_eq_map, tagItems_eq_map, List.map_map]
    exact congrArg Tagged.array (List.map_congr_left ih)
  | table entries ih =>
    simp only [whole, tag, wholeEntries_eq_map, tagEntries_eq_map, List.map_map]
    refine congrArg Tagged.object (List.map_congr_left fun e he => ?_)
    simp [(ih e he).1, (ih e he).2]
  | _ => simp only [whole]

theorem whole_simple {k : Native} (h : k.Taggable) : k.whole.Simple := by
  cases k with
  | bool b => exact ⟨.boolean, trivial⟩
  | int n => exact ⟨.integer, trivial⟩
  | text s => exact ⟨.string, trivial⟩
  | float x =>
    cases hi : x.toInt? with
    | some n =>
      simp only [whole, hi]
      exact ⟨.integer, trivial⟩
    | none =>
      simp only [whole, hi]
      exact ⟨.float, h, hi⟩
  | _ => exact h.elim

/-- A whole number compares like a double that is equal to it. -/
theorem same_of_toInt {x : Binary64} {n : Int} (h : x.toInt? = some n) (k : Native) :
    same (.int n) k = same (.float x) k ∧ same k (.int n) = same k (.float x) := by
  have units := Binary64.units_of_toInt h
  cases k with
  | float y =>
    obtain ⟨left, right⟩ := Binary64.same_units units y
    exact ⟨left.symm, right.symm⟩
  | int m =>
    have number := Binary64.sameInt_of_toInt h m
    simp [same, sameInt, asInt?, number, Bool.beq_comm]
  | bool b =>
    have number := Binary64.sameInt_of_toInt h (if b then 1 else 0)
    simp [same, sameInt, asInt?, number, Bool.beq_comm]
  | _ => simp [same, sameInt, asInt?]

theorem sameItems_whole {items : List Native} (h : ∀ v ∈ items, ∀ l, same v.whole l = same v l ∧
    same l v.whole = same l v) (others : List Native) :
    sameItems (wholeItems items) others = sameItems items others ∧
      sameItems others (wholeItems items) = sameItems others items := by
  induction items generalizing others with
  | nil => exact ⟨rfl, rfl⟩
  | cons v vs ih =>
    obtain ⟨first, rest⟩ := List.forall_mem_cons.mp h
    cases others with
    | nil => exact ⟨rfl, rfl⟩
    | cons l ls => simp only [wholeItems, sameItems, first l, ih rest ls, and_self]

theorem sameEntries_whole {entries : List (Native × Native)}
    (h : ∀ e ∈ entries, (∀ l, same e.1.whole l = same e.1 l ∧ same l e.1.whole = same l e.1) ∧
      ∀ l, same e.2.whole l = same e.2 l ∧ same l e.2.whole = same l e.2)
    (others : List (Native × Native)) :
    sameEntries (wholeEntries entries) others = sameEntries entries others ∧
      sameEntries others (wholeEntries entries) = sameEntries others entries := by
  constructor
  · induction entries with
    | nil => rfl
    | cons e es ih =>
      obtain ⟨⟨key, value⟩, rest⟩ := List.forall_mem_cons.mp h
      simp only [wholeEntries, sameEntries, fun l => (key l).1, fun l => (value l).1, ih rest]
  · have found (d : Native × Native) :
        (wholeEntries entries).any (fun e => same d.1 e.1 && same d.2 e.2) =
          entries.any fun e => same d.1 e.1 && same d.2 e.2 := by
      rw [wholeEntries_eq_map, List.any_map, Bool.eq_iff_iff, List.any_eq_true, List.any_eq_true]
      refine exists_congr fun e => and_congr_right fun he => ?_
      rw [Function.comp_apply, ((h e he).1 d.1).2, ((h e he).2 d.2).2]
    induction others with
    | nil => rfl
    | cons d ds ih => simp only [sameEntries, found, ih]

/-- Whole numbers compare like the doubles that they were held as. -/
theorem same_whole (k l : Native) : same k.whole l = same k l ∧ same l k.whole = same l k := by
  induction k generalizing l with
  | float x =>
    cases hi : x.toInt? with
    | some n =>
      simp only [whole, hi]
      exact same_of_toInt hi l
    | none => simp [whole, hi]
  | list items ih =>
    cases l with
    | list others => exact sameItems_whole ih others
    | _ => exact ⟨rfl, rfl⟩
  | tuple items ih =>
    cases l with
    | tuple others => exact sameItems_whole ih others
    | _ => exact ⟨rfl, rfl⟩
  | table entries ih =>
    rw [whole]
    cases l with
    | table others =>
      have length : (wholeEntries entries).length = entries.length := by
        rw [wholeEntries_eq_map, List.length_map]
      simp only [same, length, sameEntries_whole ih others, and_self]
    | _ => exact ⟨rfl, rfl⟩
  | _ => simp [whole]

theorem same_self {k : Native} (h : k.Taggable) : same k k = true := by
  cases k with
  | float x => exact Binary64.same_self h
  | bool b => cases b <;> rfl
  | int n => simp [same, sameInt, asInt?]
  | text s => simp [same]
  | _ => exact h.elim

theorem Taggable.scalar {k : Native} (h : k.Taggable) : k.isContainer = false := by
  cases k <;> first | rfl | exact h.elim

theorem alike_scalar {a : Native} (h : a.isContainer = false) (b : Native) :
    alike a b = same a b := by
  cases a with
  | list | tuple | table => cases h
  | _ => cases b <;> rfl

/-- Keys that differ still differ as whole numbers. -/
theorem wholeEntries_distinct {entries : Ordered Native Native} (h : Ordered.Distinct entries) :
    Ordered.Distinct (wholeEntries entries) := by
  rw [wholeEntries_eq_map]
  refine List.pairwise_map.mpr (h.imp fun {d e} apart => ?_)
  change same d.1.whole e.1.whole = false
  rw [(same_whole d.1 _).1, (same_whole e.1 _).2]
  exact apart

theorem whole_normal {c : Native} (h : c.Representable) (formed : c.WellFormed) :
    c.whole.Normal := by
  induction h with
  | scalar h => exact .simple (whole_simple h)
  | list _ ih =>
    cases formed with
    | scalar h => cases h
    | list formed =>
      rw [whole, wholeItems_eq_map]
      exact .list (List.forall_mem_map.mpr fun v hv => ih v hv (formed v hv))
  | table keys _ ih =>
    cases formed with
    | scalar h => cases h
    | table _ values distinct =>
      have apart := wholeEntries_distinct distinct
      rw [wholeEntries_eq_map] at apart
      rw [whole, wholeEntries_eq_map]
      refine .table ?_ ?_ apart
      · exact List.forall_mem_map.mpr fun e he => whole_simple (keys e he)
      · exact List.forall_mem_map.mpr fun e he => ih e he (values e he)

theorem alikeItems_map {items : List Native} (h : ∀ v ∈ items, alike v.whole v = true) :
    alikeItems (items.map whole) items = true := by
  induction items with
  | nil => rfl
  | cons v vs ih =>
    obtain ⟨hv, hvs⟩ := List.forall_mem_cons.mp h
    simp [alikeItems, hv, ih hvs]

theorem alikeEntries_map {entries : List (Native × Native)}
    (h : ∀ e ∈ entries, alike e.1.whole e.1 = true ∧ alike e.2.whole e.2 = true) :
    alikeEntries (entries.map fun e => (e.1.whole, e.2.whole)) entries = true := by
  induction entries with
  | nil => rfl
  | cons e es ih =>
    obtain ⟨⟨hk, hv⟩, hes⟩ := List.forall_mem_cons.mp h
    simp [alikeEntries, hk, hv, ih hes]

/-- Making doubles whole numbers changes no value for equality, and moves nothing. -/
theorem alike_whole {c : Native} (h : c.Representable) : alike c.whole c = true := by
  have scalar {k : Native} (hk : k.Taggable) : alike k.whole k = true := by
    obtain ⟨tag, held⟩ := whole_simple hk
    have single : k.whole.isContainer = false := by
      cases hw : k.whole <;> first | rfl | (rw [hw] at held; cases tag <;> exact held.elim)
    rw [alike_scalar single, (same_whole k k).1, same_self hk]
  induction h with
  | scalar h => exact scalar h
  | list _ ih =>
    rw [whole, wholeItems_eq_map]
    exact alikeItems_map ih
  | table keys _ ih =>
    rw [whole, wholeEntries_eq_map]
    exact alikeEntries_map fun e he => ⟨scalar (keys e he), ih e he⟩

theorem sameItems_of_alike {xs ys : List Native}
    (h : ∀ x ∈ xs, ∀ y, alike x y = true → same x y = true) (items : alikeItems xs ys = true) :
    sameItems xs ys = true := by
  induction xs generalizing ys with
  | nil =>
    cases ys with
    | nil => rfl
    | cons y ys => cases items
  | cons x xs ih =>
    cases ys with
    | nil => cases items
    | cons y ys =>
      obtain ⟨hx, hxs⟩ := List.forall_mem_cons.mp h
      simp only [alikeItems, Bool.and_eq_true] at items
      simp [sameItems, hx y items.1, ih hxs items.2]

theorem sameEntries_iff {xs ys : List (Native × Native)} :
    sameEntries xs ys = true ↔
      ∀ d ∈ xs, ∃ e ∈ ys, same d.1 e.1 = true ∧ same d.2 e.2 = true := by
  induction xs with
  | nil => simp [sameEntries]
  | cons d ds ih => simp [sameEntries, ih]

theorem alikeEntries_at {xs ys : List (Native × Native)} (h : alikeEntries xs ys = true) :
    xs.length = ys.length ∧
      ∀ d ∈ xs, ∃ e ∈ ys, alike d.1 e.1 = true ∧ alike d.2 e.2 = true := by
  induction xs generalizing ys with
  | nil =>
    cases ys with
    | nil => simp
    | cons y ys => cases h
  | cons d ds ih =>
    cases ys with
    | nil => cases h
    | cons e es =>
      simp only [alikeEntries, Bool.and_eq_true] at h
      obtain ⟨length, rest⟩ := ih h.2
      refine ⟨by simp [length], List.forall_mem_cons.mpr ⟨⟨e, by simp, h.1⟩, ?_⟩⟩
      intro c hc
      obtain ⟨f, hf, found⟩ := rest c hc
      exact ⟨f, List.mem_cons_of_mem e hf, found⟩

/-- What is equal in the same order is equal. -/
theorem same_of_alike {a b : Native} (h : alike a b = true) : same a b = true := by
  induction a generalizing b with
  | list xs ih =>
    cases b with
    | list ys => exact sameItems_of_alike (fun x hx y => ih x hx) h
    | _ => exact h
  | tuple xs ih =>
    cases b with
    | tuple ys => exact sameItems_of_alike (fun x hx y => ih x hx) h
    | _ => exact h
  | table xs ih =>
    cases b with
    | table ys =>
      obtain ⟨length, found⟩ := alikeEntries_at h
      simp only [same, Bool.and_eq_true, beq_iff_eq, sameEntries_iff]
      refine ⟨length, fun d hd => ?_⟩
      obtain ⟨e, he, key, value⟩ := found d hd
      exact ⟨e, he, (ih d hd).1 key, (ih d hd).2 value⟩
    | _ => exact h
  | _ => rwa [alike_scalar rfl] at h

theorem decimalText_inj {m n : Nat} (h : decimalText m = decimalText n) : m = n := by
  have digits : digitsOf m = digitsOf n := by
    have negative (k : Nat) : ¬ (k : Int) < 0 := by omega
    simpa [decimalText, signed, negative, String.ofList_inj] using h
  have read := congrArg (Nat.ofDigitChars 10 · 0) digits
  simpa [digitsOf, Nat.ofDigitChars_ten_toDigits] using read

theorem numbered_mem {start : Nat} {items : List Native} {e : Native × Native}
    (h : e ∈ numbered start items) :
    (∃ n, start ≤ n ∧ e.1 = .text (decimalText n)) ∧ e.2 ∈ items := by
  induction items generalizing start with
  | nil => cases h
  | cons v vs ih =>
    rcases List.mem_cons.mp h with rfl | later
    · exact ⟨⟨start, Nat.le_refl _, rfl⟩, by simp⟩
    · obtain ⟨⟨n, hn, key⟩, value⟩ := ih later
      exact ⟨⟨n, by omega, key⟩, List.mem_cons_of_mem v value⟩

/-- Positions as texts are different keys. -/
theorem numbered_distinct (start : Nat) (items : List Native) :
    Ordered.Distinct (numbered start items) := by
  induction items generalizing start with
  | nil => exact List.Pairwise.nil
  | cons v vs ih =>
    refine List.pairwise_cons.mpr ⟨fun e he => ?_, ih (start + 1)⟩
    obtain ⟨⟨n, hn, key⟩, _⟩ := numbered_mem he
    have other : decimalText start ≠ decimalText n := by
      intro same
      have := decimalText_inj same
      omega
    rw [key]
    change (decimalText start == decimalText n) = false
    exact beq_eq_false_iff_ne.mpr other

theorem toItems_wellFormed {v : Native} (h : v.WellFormed) : ∀ i ∈ v.toItems, i.WellFormed := by
  cases h with
  | scalar single =>
    cases v with
    | list | tuple | table => cases single
    | _ => exact List.forall_mem_singleton.mpr (.scalar single)
  | list items => exact items
  | tuple items => exact items
  | table _ values _ => exact List.forall_mem_map.mpr values

theorem toEntries_wellFormed {v : Native} (h : v.WellFormed) :
    WellFormed (.table v.toEntries) := by
  have numbered (items : List Native) (formed : ∀ i ∈ items, i.WellFormed) :
      WellFormed (.table (numbered 0 items)) := by
    refine .table (fun e he => ?_) (fun e he => ?_) (numbered_distinct 0 items)
    · obtain ⟨⟨n, _, key⟩, _⟩ := numbered_mem he
      rw [key]
      exact .scalar rfl
    · exact formed e.2 (numbered_mem he).2
  have items := toItems_wellFormed h
  cases v with
  | table => exact h
  | _ => exact numbered _ items

/-- What coercion makes of a value: one without parts, its items, its entries, or itself. -/
theorem coerce_cases {v c : Native} {kind : Kind} (h : v.coerce kind = .ok c) :
    c.isContainer = false ∨ c = .list v.toItems ∨ c = .table v.toEntries ∨ c = v := by
  have number (n : Number) : n.toNative.isContainer = false := by cases n <;> rfl
  cases kind with
  | integer | float | numeric =>
    cases h
    exact .inl (number _)
  | boolean =>
    cases h
    exact .inl rfl
  | string =>
    obtain ⟨text, _, he⟩ := Attempt.bind_ok.mp h
    cases he
    exact .inl rfl
  | array =>
    cases h
    exact .inr (.inl rfl)
  | object =>
    cases h
    exact .inr (.inr (.inl rfl))
  | any =>
    cases h
    exact .inr (.inr (.inr rfl))

/-- Coercion makes no keys of a table equal. -/
theorem coerce_wellFormed {v c : Native} {kind : Kind} (h : v.WellFormed)
    (coerced : v.coerce kind = .ok c) : c.WellFormed := by
  rcases coerce_cases coerced with single | rfl | rfl | rfl
  · exact .scalar single
  · exact .list (toItems_wellFormed h)
  · exact toEntries_wellFormed h
  · exact h

/-- The trip of a value through tags reproduces the coerced value: where that is made of values
that have tags, an equal value comes back, with the same items and entries in the same order. -/
theorem marshal_reproduces {v c : Native} {kind : Kind} (formed : v.WellFormed)
    (coerced : v.coerce kind = .ok c) (representable : c.Representable) :
    ∃ n, v.marshal kind = .ok n ∧ n.alike c = true ∧ (n == c) = true := by
  have normal := whole_normal representable (coerce_wellFormed formed coerced)
  have equal := alike_whole representable
  refine ⟨c.whole, ?_, equal, same_of_alike equal⟩
  rw [marshal, wrap, coerced, Attempt.ok_bind, Attempt.pure_ok, Attempt.ok_bind, ← tag_whole,
    unwrap_tag_normal normal]

/-- One half as a double. -/
def half : Binary64 :=
  .finite false (Nat.pow 2 52) 1021 (by decide)

/-- A list becomes a table by position. In its second item the key zero, a double, comes back as a
whole number and stays apart from the text "0". -/
theorem positions_reproduced :
    let zeros := Native.table
      [(.float (.zero false), .list [.float half, .bool true]), (.text "0", .float (.zero true))]
    let v := Native.tuple [.float (.infinite true), zeros]
    let c := Native.table [(.text "0", .float (.infinite true)), (.text "1", zeros)]
    v.WellFormed ∧ v.coerce .object = .ok c ∧ c.Representable ∧
      ∃ n, v.marshal .object = .ok n ∧ n.alike c = true ∧ (n == c) = true := by
  intro zeros v c
  have formed : v.WellFormed := by
    refine .tuple ?_
    simp only [List.forall_mem_cons]
    refine ⟨.scalar rfl, .table ?_ ?_ ?_, List.forall_mem_nil _⟩
    · simp only [List.forall_mem_cons]
      exact ⟨.scalar rfl, .scalar rfl, List.forall_mem_nil _⟩
    · simp only [List.forall_mem_cons]
      refine ⟨.list ?_, .scalar rfl, List.forall_mem_nil _⟩
      simp only [List.forall_mem_cons]
      exact ⟨.scalar rfl, .scalar rfl, List.forall_mem_nil _⟩
    · exact List.pairwise_pair.mpr rfl
  have representable : c.Representable := by
    have number {x : Binary64} (h : x.isNaN = false) : Representable (.float x) := .scalar h
    have items : Representable (.list [.float half, .bool true]) := by
      refine .list ?_
      simp only [List.forall_mem_cons]
      exact ⟨number rfl, .scalar trivial, List.forall_mem_nil _⟩
    have inner : zeros.Representable := by
      refine .table ?_ ?_
      · simp only [List.forall_mem_cons]
        exact ⟨rfl, trivial, List.forall_mem_nil _⟩
      · simp only [List.forall_mem_cons]
        exact ⟨items, number rfl, List.forall_mem_nil _⟩
    refine .table ?_ ?_
    · simp only [List.forall_mem_cons]
      exact ⟨trivial, trivial, List.forall_mem_nil _⟩
    · simp only [List.forall_mem_cons]
      exact ⟨number rfl, inner, List.forall_mem_nil _⟩
  have coerced : v.coerce .object = .ok c := by rfl
  exact ⟨formed, coerced, representable, marshal_reproduces formed coerced representable⟩

end Native

end HostBridge
