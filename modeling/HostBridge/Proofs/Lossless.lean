import Mathlib.Data.List.Forall2
import HostBridge.Proofs.CanonicalText
import HostBridge.Proofs.NormalForm

namespace HostBridge

namespace Tagged

/-- The payload of a value without parts. -/
def payload? : Tagged → Option Native
  | .scalar _ payload => some payload
  | _ => none

@[simp]
theorem payload?_scalar (tag : ScalarTag) (payload : Native) :
    (scalar tag payload).payload? = some payload := rfl

/-- No key of an object has parts. -/
def HasScalarKeys : Tagged → Prop
  | .object pairs => ∀ e ∈ pairs, e.1.isComposite = false
  | _ => True

/-- No two keys of an object have equal payloads. -/
def HasDistinctKeys : Tagged → Prop
  | .object pairs => (pairs.filterMap (·.1.payload?)).Pairwise fun p q => (p == q) = false
  | _ => True

/-- Payloads fit their tags, and the keys of objects are scalars that stay apart as native keys. -/
structure Lossless (t : Tagged) : Prop where
  shape : t.ShapeNormal
  keys : t.Everywhere HasScalarKeys
  distinct : t.Everywhere HasDistinctKeys

end Tagged

/-- Simple keys are the payloads of their tagged forms. -/
theorem payloads_tag {entries : Ordered Native Native} (keys : ∀ e ∈ entries, e.1.Simple) :
    (Native.tagEntries entries).filterMap (·.1.payload?) = entries.map (·.1) := by
  induction entries with
  | nil => rfl
  | cons e es ih =>
    obtain ⟨⟨tag, hk⟩, hkeys⟩ := List.forall_mem_cons.mp keys
    simp [Native.tagEntries, tag_holds hk, ih hkeys]

/-- The tagged form of a normal value has a property everywhere if scalars, arrays and the objects
of normal tables have it. -/
theorem tag_everywhere {p : Tagged → Prop} (scalar : ∀ tag payload, p (.scalar tag payload))
    (array : ∀ items, p (.array items))
    (object : ∀ entries : Ordered Native Native, (∀ e ∈ entries, e.1.Simple) →
      entries.Distinct → p (.object (Native.tagEntries entries)))
    {v : Native} (h : v.Normal) : v.tag.Everywhere p := by
  have simple {k : Native} (hk : k.Simple) : k.tag.Everywhere p := by
    obtain ⟨tag, ht⟩ := hk
    rw [tag_holds ht]
    exact .scalar (scalar tag k)
  induction h with
  | simple h => exact simple h
  | list _ ih =>
    simp only [Native.tag, Native.tagItems_eq_map]
    exact .array (array _) (List.forall_mem_map.mpr ih)
  | table keys _ distinct ih =>
    have here := object _ keys distinct
    simp only [Native.tagEntries_eq_map] at here
    simp only [Native.tag, Native.tagEntries_eq_map]
    exact .object here (List.forall_mem_map.mpr fun e he => simple (keys e he))
      (List.forall_mem_map.mpr ih)

theorem tag_lossless {v : Native} (h : v.Normal) : v.tag.Lossless := by
  refine ⟨tag_shapeNormal v, tag_everywhere ?_ ?_ ?_ h, tag_everywhere ?_ ?_ ?_ h⟩
  · exact fun _ _ => trivial
  · exact fun _ => trivial
  · intro entries keys _
    rw [Native.tagEntries_eq_map]
    refine List.forall_mem_map.mpr fun e he => ?_
    obtain ⟨tag, ht⟩ := keys e he
    rw [tag_holds ht, Tagged.isComposite]
  · exact fun _ _ => trivial
  · exact fun _ => trivial
  · intro entries keys distinct
    simp only [Tagged.HasDistinctKeys, payloads_tag keys]
    exact List.pairwise_map.mpr distinct

/-- Tagged items that each stem from a normal value stem from a list of them. -/
theorem exists_items {ts : List Tagged} (h : ∀ t ∈ ts, ∃ v, Native.Normal v ∧ v.tag = t) :
    ∃ items, (∀ v ∈ items, Native.Normal v) ∧ Native.tagItems items = ts := by
  induction ts with
  | nil => exact ⟨[], by simp, rfl⟩
  | cons t ts ih =>
    obtain ⟨⟨v, hv, he⟩, hts⟩ := List.forall_mem_cons.mp h
    obtain ⟨vs, hvs, hes⟩ := ih hts
    exact ⟨v :: vs, List.forall_mem_cons.mpr ⟨hv, hvs⟩, by rw [Native.tagItems, he, hes]⟩

/-- Tagged pairs with simple keys and values from normal ones stem from entries of such. -/
theorem exists_entries {pairs : List (Tagged × Tagged)}
    (keys : ∀ e ∈ pairs, ∃ k : Native, k.Simple ∧ k.tag = e.1)
    (values : ∀ e ∈ pairs, ∃ v, Native.Normal v ∧ v.tag = e.2) :
    ∃ entries : Ordered Native Native, (∀ e ∈ entries, e.1.Simple) ∧ (∀ e ∈ entries, e.2.Normal) ∧
      Native.tagEntries entries = pairs := by
  induction pairs with
  | nil => exact ⟨[], by simp, by simp, rfl⟩
  | cons e es ih =>
    obtain ⟨⟨k, hk, hek⟩, hkeys⟩ := List.forall_mem_cons.mp keys
    obtain ⟨⟨v, hv, hev⟩, hvalues⟩ := List.forall_mem_cons.mp values
    obtain ⟨entries, hks, hvs, hes⟩ := ih hkeys hvalues
    exact ⟨(k, v) :: entries, List.forall_mem_cons.mpr ⟨hk, hks⟩,
      List.forall_mem_cons.mpr ⟨hv, hvs⟩, by rw [Native.tagEntries, hek, hev, hes]⟩

/-- A lossless value is the tagged form of a normal one. -/
theorem exists_normal {t : Tagged} (h : t.Lossless) : ∃ v, Native.Normal v ∧ v.tag = t := by
  obtain ⟨shape, keys, distinct⟩ := h
  induction t with
  | scalar tag payload =>
    cases shape with
    | scalar here => exact ⟨payload, .simple ⟨tag, here⟩, tag_holds here⟩
  | array items ih =>
    cases shape with | array _ shapes => ?_
    cases keys with | array _ keys => ?_
    cases distinct with | array _ distinct => ?_
    obtain ⟨vs, hvs, he⟩ := exists_items fun t ht =>
      ih t ht (shapes t ht) (keys t ht) (distinct t ht)
    exact ⟨.list vs, .list hvs, by rw [Native.tag, he]⟩
  | object pairs ih =>
    cases shape with | object _ kshapes vshapes => ?_
    cases keys with | object scalars _ vkeys => ?_
    cases distinct with | object apart _ vdistinct => ?_
    have hk : ∀ e ∈ pairs, ∃ k : Native, k.Simple ∧ k.tag = e.1 := by
      intro e he
      have hs := scalars e he
      have hh := kshapes e he
      generalize e.1 = k at hs hh
      cases hh with
      | scalar here => exact ⟨_, ⟨_, here⟩, tag_holds here⟩
      | array | object => cases hs
    obtain ⟨entries, hks, hvs, he⟩ := exists_entries hk fun e he =>
      (ih e he).2 (vshapes e he) (vkeys e he) (vdistinct e he)
    simp only [Tagged.HasDistinctKeys, ← he, payloads_tag hks] at apart
    exact ⟨.table entries, .table hks hvs (List.pairwise_map.mp apart), by rw [Native.tag, he]⟩

/-- A tagged value comes back from its native form exactly when it is lossless. -/
theorem tag_unwrap_iff (t : Tagged) : (∃ v, t.unwrap = .ok v ∧ v.tag = t) ↔ t.Lossless := by
  constructor
  · rintro ⟨v, hu, rfl⟩
    exact tag_lossless (normal_unwrap_tag v hu)
  · intro h
    obtain ⟨v, hv, rfl⟩ := exists_normal h
    exact ⟨v, unwrap_tag_normal hv, rfl⟩

/-- Only the text of a key with parts can be missing. -/
theorem nativeKey_error {k : Tagged} {bare : Native} {e : Failure}
    (h : k.nativeKey bare = .error e) : k.isComposite = true ∧ e = .tooManyDigits := by
  unfold Tagged.nativeKey at h
  split at h
  · rename_i composite
    exact ⟨composite, Native.canonicalText_error (Attempt.bind_pure_error.mp h)⟩
  · cases h

theorem hashable_nativeKey {k : Tagged} (shape : k.ShapeNormal) {bare key : Native}
    (hb : k.unwrap = .ok bare) (hk : k.nativeKey bare = .ok key) : key.hashable = true := by
  unfold Tagged.nativeKey at hk
  split at hk
  · obtain ⟨text, _, he⟩ := Attempt.bind_ok.mp hk
    cases he
    rfl
  · rename_i single
    cases hk
    cases shape with
    | scalar here =>
      cases hb
      exact hashable_holds here
    | array | object => exact absurd rfl single

theorem unwrapItems_error {items : List Tagged} {e : Failure}
    (h : Tagged.unwrapItems items = .error e) : ∃ t ∈ items, t.unwrap = .error e := by
  induction items with
  | nil => cases h
  | cons t ts ih =>
    rcases Attempt.bind_error.mp h with first | ⟨v, _, later⟩
    · exact ⟨t, List.mem_cons_self, first⟩
    · obtain ⟨u, hu, failed⟩ := ih (Attempt.bind_pure_error.mp later)
      exact ⟨u, List.mem_cons_of_mem t hu, failed⟩

/-- A pair goes into a table as an entry. -/
def Tagged.Enters (pair : Tagged × Tagged) (entry : Native × Native) : Prop :=
  ∃ bare, pair.1.unwrap = .ok bare ∧ pair.1.nativeKey bare = .ok entry.1 ∧
    entry.1.hashable = true ∧ pair.2.unwrap = .ok entry.2

/-- Pairs are entered into a table by inserting their entries one after the other. -/
theorem unwrapPairs_entries {pairs : List (Tagged × Tagged)} {table result : Ordered Native Native}
    (h : Tagged.unwrapPairs pairs table = .ok result) :
    ∃ entries, List.Forall₂ Tagged.Enters pairs entries ∧
      result = entries.foldl (fun m e => Ordered.insert m e.1 e.2) table := by
  induction pairs generalizing table with
  | nil =>
    cases h
    exact ⟨[], .nil, rfl⟩
  | cons d ds ih =>
    obtain ⟨bare, unwrapped, h⟩ := Attempt.bind_ok.mp h
    obtain ⟨key, keyed, h⟩ := Attempt.bind_ok.mp h
    obtain ⟨value, found, h⟩ := Attempt.bind_ok.mp h
    split at h
    · rename_i hashable
      obtain ⟨entries, related, inserted⟩ := ih h
      exact ⟨(key, value) :: entries, .cons ⟨bare, unwrapped, keyed, hashable, found⟩ related,
        inserted⟩
    · cases h

/-- Entering pairs into a table fails at one of them: at its parts, at the text of its key, or
because its key can be none. -/
theorem unwrapPairs_error {pairs : List (Tagged × Tagged)} {table : Ordered Native Native}
    {e : Failure} (h : Tagged.unwrapPairs pairs table = .error e) :
    ∃ d ∈ pairs, d.1.unwrap = .error e ∨ d.2.unwrap = .error e ∨
      ∃ bare, d.1.unwrap = .ok bare ∧ (d.1.nativeKey bare = .error e ∨
        ∃ key, d.1.nativeKey bare = .ok key ∧ key.hashable = false ∧ e = .unhashableKey) := by
  induction pairs generalizing table with
  | nil => cases h
  | cons d ds ih =>
    rcases Attempt.bind_error.mp h with unread | ⟨bare, hb, later⟩
    · exact ⟨d, List.mem_cons_self, .inl unread⟩
    · rcases Attempt.bind_error.mp later with unnamed | ⟨key, hk, later⟩
      · exact ⟨d, List.mem_cons_self, .inr (.inr ⟨bare, hb, .inl unnamed⟩)⟩
      · rcases Attempt.bind_error.mp later with unread | ⟨value, _, later⟩
        · exact ⟨d, List.mem_cons_self, .inr (.inl unread)⟩
        · split at later
          · obtain ⟨c, hc, failed⟩ := ih later
            exact ⟨c, List.mem_cons_of_mem d hc, failed⟩
          · rename_i unhashable
            cases later
            refine ⟨d, List.mem_cons_self, .inr (.inr ⟨bare, hb, .inr ⟨key, hk, ?_, rfl⟩⟩)⟩
            simpa using unhashable

/-- A value whose payloads fit their tags has a native form, unless a number in a key with parts is
too long for the key's text. -/
theorem unwrap_error {t : Tagged} (shape : t.ShapeNormal) {e : Failure}
    (h : t.unwrap = .error e) : e = .tooManyDigits ∧ ¬ t.Everywhere Tagged.HasScalarKeys := by
  induction t with
  | scalar tag payload => cases h
  | array items ih =>
    cases shape with | array _ shapes => ?_
    obtain ⟨u, hu, failed⟩ := unwrapItems_error (Attempt.bind_pure_error.mp h)
    obtain ⟨cause, composite⟩ := ih u hu (shapes u hu) failed
    refine ⟨cause, fun keys => ?_⟩
    cases keys with | array _ keys => exact composite (keys u hu)
  | object pairs ih =>
    cases shape with | object _ kshapes vshapes => ?_
    obtain ⟨d, hd, failed⟩ := unwrapPairs_error (Attempt.bind_pure_error.mp h)
    rcases failed with failed | failed | ⟨bare, hb, unnamed | ⟨key, hk, unhashable, _⟩⟩
    · obtain ⟨cause, composite⟩ := (ih d hd).1 (kshapes d hd) failed
      refine ⟨cause, fun keys => ?_⟩
      cases keys with | object _ keys _ => exact composite (keys d hd)
    · obtain ⟨cause, composite⟩ := (ih d hd).2 (vshapes d hd) failed
      refine ⟨cause, fun keys => ?_⟩
      cases keys with | object _ _ values => exact composite (values d hd)
    · obtain ⟨composite, cause⟩ := nativeKey_error unnamed
      refine ⟨cause, fun keys => ?_⟩
      cases keys with | object scalars _ _ => simp [scalars d hd] at composite
    · rw [hashable_nativeKey (kshapes d hd) hb hk] at unhashable
      cases unhashable

/-- A value whose payloads fit their tags comes back from its native form exactly when no object in
it has a key with parts or two keys with equal payloads. It has a native form in any case, but for
one whose key with parts holds a number over the digit limit. -/
theorem wrap_unwrap_iff {t : Tagged} (shape : t.ShapeNormal) :
    ((∃ v, t.unwrap = .ok v ∧ v.wrap .any = .ok t) ↔
      t.Everywhere Tagged.HasScalarKeys ∧ t.Everywhere Tagged.HasDistinctKeys) ∧
    ((∃ v, t.unwrap = .ok v) ∨
      t.unwrap = .error .tooManyDigits ∧ ¬ t.Everywhere Tagged.HasScalarKeys) := by
  refine ⟨?_, ?_⟩
  · simp only [Native.wrap_any, Except.ok.injEq, tag_unwrap_iff]
    exact ⟨fun h => ⟨h.keys, h.distinct⟩, fun h => ⟨shape, h.1, h.2⟩⟩
  · cases h : t.unwrap with
    | ok v => exact .inl ⟨v, rfl⟩
    | error e =>
      obtain ⟨rfl, composite⟩ := unwrap_error shape h
      exact .inr ⟨rfl, composite⟩

/-- An object inside an array comes back with the keys one and "1", but not with one and true. -/
theorem equal_keys_lost :
    let holding (k : Tagged) : Tagged :=
      .array [.object [(.scalar .integer (.int 1), .text "a"), (k, .text "b")]]
    let yes : Tagged := .scalar .boolean (.bool true)
    (∃ v, (holding (.text "1")).unwrap = .ok v ∧ v.wrap .any = .ok (holding (.text "1"))) ∧
      (holding yes).unwrap = .ok (.list [.table [(.int 1, .text "b")]]) ∧
      ¬ ∃ v, (holding yes).unwrap = .ok v ∧ v.wrap .any = .ok (holding yes) := by
  intro holding yes
  have everywhere {p : Tagged → Prop} {k : Tagged} (hk : k.Everywhere p)
      (scalar : ∀ tag payload, Tagged.HoldsPayload (.scalar tag payload) → p (.scalar tag payload))
      (array : ∀ items, p (.array items))
      (object : p (.object [(.scalar .integer (.int 1), .text "a"), (k, .text "b")])) :
      (holding k).Everywhere p := by
    have text (s : String) : (Tagged.text s).Everywhere p :=
      .scalar (scalar .string (.text s) trivial)
    refine .array (array _) (List.forall_mem_singleton.mpr (.object object ?_ ?_))
    · simpa using ⟨.scalar (scalar _ _ trivial), hk⟩
    · simpa using ⟨text "a", text "b"⟩
  have shape {k : Tagged} (hk : k.ShapeNormal) : (holding k).ShapeNormal :=
    everywhere hk (fun _ _ h => h) (fun _ => trivial) trivial
  have other : (Tagged.text "1").ShapeNormal := .scalar trivial
  have same : yes.ShapeNormal := .scalar trivial
  refine ⟨?_, by rfl, ?_⟩
  · refine (wrap_unwrap_iff (shape other)).1.mpr ⟨?_, ?_⟩
    · refine everywhere (.scalar trivial) (fun _ _ _ => trivial) (fun _ => trivial) ?_
      simp [Tagged.HasScalarKeys, Tagged.isComposite, Tagged.text]
    · refine everywhere (.scalar trivial) (fun _ _ _ => trivial) (fun _ => trivial) ?_
      simp only [Tagged.HasDistinctKeys]
      decide
  · intro kept
    obtain ⟨_, apart⟩ := (wrap_unwrap_iff (shape same)).1.mp kept
    cases apart with | array _ apart => ?_
    cases apart _ (List.mem_singleton_self _) with | object apart _ _ => ?_
    simp [Tagged.HasDistinctKeys, yes] at apart
    revert apart
    decide

end HostBridge
