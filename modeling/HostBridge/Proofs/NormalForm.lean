import HostBridge.Marshal

namespace HostBridge

/-- A double that stays one when it is tagged: infinite, or finite and no whole number. -/
def Binary64.NonIntegral (x : Binary64) : Prop :=
  x.isNaN = false ∧ x.toInt? = none

instance (x : Binary64) : Decidable x.NonIntegral :=
  inferInstanceAs (Decidable (_ ∧ _))

/-- The payloads that a tag is given to. -/
def ScalarTag.Holds : ScalarTag → Native → Prop
  | .integer, .int _ => True
  | .float, .float x => x.NonIntegral
  | .string, .text _ => True
  | .boolean, .bool _ => True
  | _, _ => False

namespace Native

/-- A value without parts that keeps its form under a tag. -/
def Simple (v : Native) : Prop :=
  ∃ tag : ScalarTag, tag.Holds v

/-- Values that come back unchanged from a trip through tags. -/
inductive Normal : Native → Prop
  | simple (h : v.Simple) : Normal v
  | list (h : ∀ v ∈ items, Normal v) : Normal (.list items)
  | table (keys : ∀ e ∈ entries, e.1.Simple) (values : ∀ e ∈ entries, Normal e.2)
      (distinct : Ordered.Distinct entries) : Normal (.table entries)

end Native

namespace Tagged

/-- A property of a tagged value and all its parts, keys included. -/
inductive Everywhere (p : Tagged → Prop) : Tagged → Prop
  | scalar (here : p (.scalar tag payload)) : Everywhere p (.scalar tag payload)
  | array (here : p (.array items)) (parts : ∀ t ∈ items, Everywhere p t) :
      Everywhere p (.array items)
  | object (here : p (.object pairs)) (keys : ∀ e ∈ pairs, Everywhere p e.1)
      (values : ∀ e ∈ pairs, Everywhere p e.2) : Everywhere p (.object pairs)

theorem Everywhere.mono {p q : Tagged → Prop} (h : ∀ t, p t → q t) {t : Tagged}
    (ht : t.Everywhere p) : t.Everywhere q := by
  induction ht with
  | scalar here => exact .scalar (h _ here)
  | array here _ ih => exact .array (h _ here) ih
  | object here _ _ ihk ihv => exact .object (h _ here) ihk ihv

/-- The payload of a scalar is one that its tag is given to. -/
def HoldsPayload : Tagged → Prop
  | .scalar tag payload => tag.Holds payload
  | _ => True

/-- Every scalar in a value has a payload that its tag is given to. -/
def ShapeNormal (t : Tagged) : Prop :=
  t.Everywhere HoldsPayload

end Tagged

theorem tagFloat_nonIntegral {x : Binary64} (h : x.NonIntegral) :
    Native.tagFloat x = .scalar .float (.float x) := by
  obtain ⟨hn, hi⟩ := h
  cases x with
  | nan => cases hn
  | infinite | finite => simp only [Native.tagFloat, hi]

theorem tagFloat_whole {x : Binary64} {n : Int} (h : x.toInt? = some n) :
    Native.tagFloat x = .scalar .integer (.int n) := by
  simp only [Native.tagFloat, h]

/-- A whole number is tagged as an integer, another double as itself, and NaN as false. -/
theorem tagFloat_cases (x : Binary64) :
    (∃ n, x.toInt? = some n ∧ Native.tagFloat x = .scalar .integer (.int n)) ∨
      (x.NonIntegral ∧ Native.tagFloat x = .scalar .float (.float x)) ∨
      Native.tagFloat x = .scalar .boolean (.bool false) := by
  cases hi : x.toInt? with
  | some n => exact .inl ⟨n, rfl, tagFloat_whole hi⟩
  | none =>
    apply Or.inr
    cases x with
    | nan => exact .inr rfl
    | infinite | finite => exact .inl ⟨⟨rfl, hi⟩, tagFloat_nonIntegral ⟨rfl, hi⟩⟩

theorem tag_holds {tag : ScalarTag} {v : Native} (h : tag.Holds v) : v.tag = .scalar tag v := by
  cases tag with
  | integer | string | boolean => cases v <;> first | rfl | exact h.elim
  | float =>
    cases v with
    | float x => exact tagFloat_nonIntegral h
    | _ => exact h.elim

theorem tagFloat_shapeNormal (x : Binary64) : (Native.tagFloat x).ShapeNormal := by
  rcases tagFloat_cases x with ⟨n, _, he⟩ | ⟨stays, he⟩ | he <;> rw [he]
  · exact .scalar trivial
  · exact .scalar stays
  · exact .scalar trivial

/-- Whatever is tagged, the scalars have payloads of their tags. -/
theorem tag_shapeNormal (v : Native) : v.tag.ShapeNormal := by
  induction v with
  | null | bool | int | text | bytes => exact .scalar trivial
  | float x => exact tagFloat_shapeNormal x
  | list items ih | tuple items ih =>
    simp only [Native.tag, Native.tagItems_eq_map]
    exact .array trivial (List.forall_mem_map.mpr ih)
  | table entries ih =>
    simp only [Native.tag, Native.tagEntries_eq_map]
    exact .object trivial (List.forall_mem_map.mpr fun e he => (ih e he).1)
      (List.forall_mem_map.mpr fun e he => (ih e he).2)

theorem tagFloat_not_composite (x : Binary64) : (Native.float x).tag.isComposite = false := by
  rw [Native.tag]
  rcases tagFloat_cases x with ⟨n, _, he⟩ | ⟨_, he⟩ | he <;> rw [he] <;> rfl

/-- What is tagged without parts is tagged as a simple value. -/
theorem simple_unwrap_tag {v n : Native} (h : v.tag.isComposite = false)
    (hu : v.tag.unwrap = .ok n) : n.Simple := by
  have hs := tag_shapeNormal v
  generalize v.tag = t at h hs hu
  cases hs with
  | scalar here =>
    rw [Tagged.unwrap, Except.ok.injEq] at hu
    exact ⟨_, hu ▸ here⟩
  | array | object => cases h

/-- A key is entered as a text or as the simple value that it was. -/
theorem simple_nativeKey {k bare key : Native} (hb : k.tag.unwrap = .ok bare)
    (hk : k.tag.nativeKey bare = .ok key) : key.Simple := by
  unfold Tagged.nativeKey at hk
  split at hk
  · obtain ⟨text, _, he⟩ := Attempt.bind_ok.mp hk
    cases he
    exact ⟨.string, trivial⟩
  · rename_i hc
    cases hk
    exact simple_unwrap_tag (by simpa using hc) hb

theorem hashable_holds {tag : ScalarTag} {v : Native} (h : tag.Holds v) : v.hashable = true := by
  cases v <;> first | rfl | (cases tag <;> exact h.elim)

/-- Pairs whose keys are simple and new, one after the other, are entered at the end. -/
theorem unwrapPairs_tag {entries table : Ordered Native Native}
    (keys : ∀ e ∈ entries, e.1.Simple) (values : ∀ e ∈ entries, e.2.tag.unwrap = .ok e.2)
    (distinct : Ordered.Distinct (table ++ entries)) :
    Tagged.unwrapPairs (Native.tagEntries entries) table = .ok (table ++ entries) := by
  induction entries generalizing table with
  | nil => simp [Native.tagEntries, Tagged.unwrapPairs]
  | cons e es ih =>
    obtain ⟨k, v⟩ := e
    obtain ⟨⟨tag, hk⟩, hkeys⟩ := List.forall_mem_cons.mp keys
    obtain ⟨hv, hvalues⟩ := List.forall_mem_cons.mp values
    have absent : ∀ e ∈ table, (e.1 == k) = false := fun e he =>
      (List.pairwise_append.mp distinct).2.2 e he (k, v) List.mem_cons_self
    simp only [Native.tagEntries, Tagged.unwrapPairs, tag_holds hk, Tagged.unwrap,
      Tagged.nativeKey, Tagged.isComposite, Attempt.ok_bind, hv, hashable_holds hk,
      Bool.false_eq_true, ↓reduceIte, Ordered.insert_absent v absent]
    have happ : table ++ (k, v) :: es = (table ++ [(k, v)]) ++ es := by simp
    rw [happ] at distinct ⊢
    exact ih hkeys hvalues distinct

theorem unwrapItems_tag {items : List Native} (h : ∀ v ∈ items, v.tag.unwrap = .ok v) :
    Tagged.unwrapItems (Native.tagItems items) = .ok items := by
  induction items with
  | nil => rfl
  | cons v vs ih =>
    obtain ⟨hv, hvs⟩ := List.forall_mem_cons.mp h
    simp [Native.tagItems, Tagged.unwrapItems, hv, ih hvs]

/-- A value in normal form survives its trip through tags. -/
theorem unwrap_tag_normal {v : Native} (h : v.Normal) : v.tag.unwrap = .ok v := by
  induction h with
  | simple h =>
    obtain ⟨tag, ht⟩ := h
    rw [tag_holds ht, Tagged.unwrap]
  | list _ ih => simp [Native.tag, Tagged.unwrap, unwrapItems_tag ih]
  | table keys _ distinct ih =>
    have hp : Tagged.unwrapPairs (Native.tagEntries _) [] = .ok ([] ++ _) :=
      unwrapPairs_tag keys ih distinct
    simp [Native.tag, Tagged.unwrap, hp]

/-- Entering pairs whose values unwrap to normal forms keeps a table simple in its keys, distinct
and normal in its values: a composite key has become a text. -/
theorem unwrapPairs_normal {entries table result : Ordered Native Native}
    (values : ∀ e ∈ entries, ∀ n, e.2.tag.unwrap = .ok n → n.Normal)
    (ht : ∀ e ∈ table, e.1.Simple ∧ e.2.Normal) (hd : table.Distinct)
    (h : Tagged.unwrapPairs (Native.tagEntries entries) table = .ok result) :
    (∀ e ∈ result, e.1.Simple ∧ e.2.Normal) ∧ result.Distinct := by
  induction entries generalizing table with
  | nil =>
    simp only [Native.tagEntries, Tagged.unwrapPairs, Except.ok.injEq] at h
    exact h ▸ ⟨ht, hd⟩
  | cons e es ih =>
    obtain ⟨k, v⟩ := e
    obtain ⟨hv, hvalues⟩ := List.forall_mem_cons.mp values
    simp only [Native.tagEntries, Tagged.unwrapPairs, Attempt.bind_ok] at h
    obtain ⟨bare, hb, key, hk, value, hu, h⟩ := h
    have simple := simple_nativeKey hb hk
    split at h
    · exact ih hvalues (Ordered.forall_insert ht simple (hv value hu)) (hd.insert key value) h
    · cases h

theorem unwrapItems_normal {items ns : List Native}
    (h : ∀ v ∈ items, ∀ n, v.tag.unwrap = .ok n → n.Normal)
    (hu : Tagged.unwrapItems (Native.tagItems items) = .ok ns) : ∀ n ∈ ns, n.Normal := by
  induction items generalizing ns with
  | nil =>
    simp only [Native.tagItems, Tagged.unwrapItems, Except.ok.injEq] at hu
    simp [← hu]
  | cons v vs ih =>
    obtain ⟨hv, hvs⟩ := List.forall_mem_cons.mp h
    simp only [Native.tagItems, Tagged.unwrapItems, Attempt.bind_ok] at hu
    obtain ⟨n, hn, ms, hm, he⟩ := hu
    cases he
    exact List.forall_mem_cons.mpr ⟨hv n hn, ih hvs hm⟩

/-- What a tagged value unwraps to is in normal form, whatever was tagged. -/
theorem normal_unwrap_tag (v : Native) {n : Native} (h : v.tag.unwrap = .ok n) : n.Normal := by
  induction v generalizing n with
  | list items ih | tuple items ih =>
    simp only [Native.tag, Tagged.unwrap, Attempt.bind_ok] at h
    obtain ⟨ns, hn, he⟩ := h
    cases he
    exact .list (unwrapItems_normal (fun v hv n => ih v hv) hn)
  | table entries ih =>
    simp only [Native.tag, Tagged.unwrap, Attempt.bind_ok] at h
    obtain ⟨table, ht, he⟩ := h
    cases he
    obtain ⟨hparts, hdistinct⟩ := unwrapPairs_normal (fun e he n => (ih e he).2)
      (by simp) List.Pairwise.nil ht
    exact .table (fun e he => (hparts e he).1) (fun e he => (hparts e he).2) hdistinct
  | float x => exact .simple (simple_unwrap_tag (tagFloat_not_composite x) h)
  | null | bool | int | text | bytes => exact .simple (simple_unwrap_tag rfl h)

/-- Marshalling is settled after one round: what comes back, for whatever kind it was wrapped,
comes back as itself from then on, and is tagged as it was. -/
theorem marshal_settled {v n : Native} {kind : Kind} (h : v.marshal kind = .ok n) :
    n.marshal .any = .ok n ∧ n.marshal .any >>= (·.wrap .any) = n.wrap .any := by
  obtain ⟨t, ht, hu⟩ := Attempt.bind_ok.mp h
  obtain ⟨c, _, he⟩ := Attempt.bind_ok.mp ht
  cases he
  have hn : n.marshal .any = .ok n := unwrap_tag_normal (normal_unwrap_tag c hu)
  exact ⟨hn, by rw [hn, Attempt.ok_bind]⟩

/-- Null and false become one key, a tuple becomes the text of another key, and NaN is no number:
all that happens in the first round only. -/
theorem marshal_settled_colliding :
    (Native.table [(.null, .float (.nan .fresh)), (.bool false, .bytes [1]),
        (.tuple [.bool true], .null),
        (.text "[true]", .tuple [.float (.infinite true)])]).marshal .any =
      .ok (.table [(.bool false, .bool false), (.text "[true]", .list [.float (.infinite true)])]) ∧
    (Native.table [(.bool false, .bool false),
        (.text "[true]", .list [.float (.infinite true)])]).marshal .any =
      .ok (.table [(.bool false, .bool false),
        (.text "[true]", .list [.float (.infinite true)])]) := by
  have h : (Native.table [(.null, .float (.nan .fresh)), (.bool false, .bytes [1]),
        (.tuple [.bool true], .null),
        (.text "[true]", .tuple [.float (.infinite true)])]).marshal .any =
      .ok (.table [(.bool false, .bool false),
        (.text "[true]", .list [.float (.infinite true)])]) := by rfl
  exact ⟨h, (marshal_settled h).1⟩

end HostBridge
