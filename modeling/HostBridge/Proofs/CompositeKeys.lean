import HostBridge.Proofs.CanonicalImage
import HostBridge.Proofs.Lossless

namespace HostBridge

/-- A finite double that is no whole number. -/
def Binary64.Fractional (x : Binary64) : Prop :=
  x.toInt? = none ∧ ∃ negative m p canonical, x = .finite negative m p canonical

namespace Tagged

/-- What a text can tell apart: whole numbers within the digit limit, finite doubles that are none,
texts and booleans under their own tags, and objects with texts as keys, each once. -/
def Legible : Tagged → Prop
  | .scalar .integer (.int n) => n.natAbs < tooLarge
  | .scalar .float (.float x) => x.Fractional
  | .scalar .string (.text _) => True
  | .scalar .boolean (.bool _) => True
  | .scalar _ _ => False
  | .array _ => True
  | .object pairs => (∀ e ∈ pairs, ∃ s, e.1 = Tagged.text s) ∧ (pairs.map (·.1)).Nodup

/-- A key with parts all of which are legible. -/
structure KeyTree (k : Tagged) : Prop where
  composite : k.isComposite = true
  legible : k.Everywhere Legible

/-- The text that a key with parts collapses to. -/
def keyText (k : Tagged) : Attempt String := do
  (← k.unwrap).canonicalText

/-- The entry that a pair becomes whose key has parts. -/
structure EntryOf (pair : Tagged × Tagged) (entry : Native × Native) : Prop where
  key : ∃ text, pair.1.keyText = .ok text ∧ entry.1 = .text text
  value : pair.2.unwrap = .ok entry.2

end Tagged

namespace Native

/-- The native counterpart of what is legible. -/
def Plain : Native → Prop
  | .int n => n.natAbs < tooLarge
  | .float x => x.Fractional
  | .text _ | .bool _ | .list _ => True
  | .table entries => (∀ e ∈ entries, ∃ s, e.1 = .text s) ∧ Ordered.Distinct entries
  | .null | .bytes _ | .tuple _ => False

theorem Plain.formed {v : Native} (h : v.Everywhere Plain) : v.Everywhere Json.Formed := by
  refine h.imp₂ (fun v plain _ => ?_) h
  cases v with
  | bytes | tuple => exact plain.elim
  | table entries => exact plain
  | _ => trivial

theorem Plain.bounded {v : Native} (h : v.Everywhere Plain) : v.Everywhere Json.Bounded := by
  refine h.imp₂ (fun v plain _ => ?_) h
  cases v with
  | int n => exact plain
  | float x =>
    obtain ⟨_, _, _, _, _, rfl⟩ := plain
    trivial
  | _ => trivial

theorem jsonItems_self {items : List Native} (h : ∀ v ∈ items, v.jsonImage = .ok v) :
    jsonItems items = .ok items := by
  induction items with
  | nil => rfl
  | cons v vs ih =>
    obtain ⟨first, others⟩ := List.forall_mem_cons.mp h
    rw [jsonItems, first, ih others]
    rfl

theorem jsonEntries_self {entries : List (Native × Native)}
    (h : ∀ e ∈ entries, (∃ s, e.1 = .text s) ∧ e.2.jsonImage = .ok e.2) :
    jsonEntries entries = .ok entries := by
  induction entries with
  | nil => rfl
  | cons e es ih =>
    obtain ⟨⟨⟨s, key⟩, value⟩, others⟩ := List.forall_mem_cons.mp h
    obtain ⟨k, v⟩ := e
    dsimp only at key value
    rw [jsonEntries_cons, key, value, ih others]
    rfl

/-- Such a value is its own image. -/
theorem jsonImage_plain {v : Native} (h : v.Everywhere Plain) : v.jsonImage = .ok v := by
  induction v with
  | null | bool | int | text => rfl
  | bytes | tuple => exact h.here.elim
  | float x =>
    obtain ⟨fractional, _, _, _, _, rfl⟩ := h.here
    simp only [jsonImage, fractional]
  | list items ih =>
    rw [jsonImage, jsonItems_self fun v hv => ih v hv (h.inside hv)]
    rfl
  | table entries ih =>
    obtain ⟨names, distinct⟩ := h.here
    rw [jsonImage, jsonEntries_self fun e he => ⟨names e he, (ih e he).2 (h.entry he).2⟩]
    simp only [Attempt.ok_bind, Json.ofList_distinct distinct]
    rfl

/-- The canonical text of such a value gives it back. -/
theorem canonicalText_plain {v : Native} (h : v.Everywhere Plain) :
    ∃ text, v.canonicalText = .ok text ∧ Json.read text = .ok v := by
  have writes : ∃ text, Json.writeAt Json.compact 0 v = .ok text :=
    (Json.writeAt_ok (Plain.formed h)).mpr (Plain.bounded h)
  obtain ⟨text, written⟩ := writes
  have read := (Json.read_write Json.compact_oneLine written).2
  have same : Json.rereadValue false v = v :=
    Json.rereadValue_self (Plain.formed h) fun ascii => absurd ascii Bool.false_ne_true
  exact ⟨text, Attempt.bind_ok.mpr ⟨v, jsonImage_plain h, written⟩,
    read.trans (congrArg Except.ok same)⟩

end Native

namespace Tagged

theorem Legible.holdsPayload {t : Tagged} (h : t.Legible) : t.HoldsPayload := by
  cases t with
  | scalar tag payload =>
    cases tag with
    | float =>
      cases payload with
      | float x =>
        obtain ⟨fractional, _, _, _, _, rfl⟩ := h
        exact ⟨rfl, fractional⟩
      | _ => exact h.elim
    | _ => cases payload <;> trivial
  | array | object => trivial

theorem Legible.scalarKeys {t : Tagged} (h : t.Legible) : t.HasScalarKeys := by
  cases t with
  | scalar | array => trivial
  | object pairs =>
    intro e he
    obtain ⟨s, key⟩ := h.1 e he
    rw [key]
    rfl

theorem Legible.distinctKeys {t : Tagged} (h : t.Legible) : t.HasDistinctKeys := by
  cases t with
  | scalar | array => trivial
  | object pairs =>
    obtain ⟨texts, distinct⟩ := h
    refine List.pairwise_filterMap.mpr ((List.pairwise_map.mp distinct).imp_of_mem ?_)
    intro d e hd he apart p hp q hq
    obtain ⟨s, first⟩ := texts d hd
    obtain ⟨t, second⟩ := texts e he
    rw [first] at hp apart
    rw [second] at hq apart
    cases hp
    cases hq
    exact Json.text_apart fun same => apart (congrArg Tagged.text same)

theorem lossless_of_legible {t : Tagged} (h : t.Everywhere Legible) : t.Lossless :=
  ⟨h.mono fun _ => Legible.holdsPayload, h.mono fun _ => Legible.scalarKeys,
    h.mono fun _ => Legible.distinctKeys⟩

/-- What is legible under its tags is plain without them. -/
theorem plain_of_legible {v : Native} (normal : v.Normal) (h : v.tag.Everywhere Legible) :
    v.Everywhere Native.Plain := by
  induction normal with
  | simple held =>
    obtain ⟨tag, held⟩ := held
    rw [tag_holds held] at h
    cases h with | scalar here => ?_
    rename_i v
    cases tag <;> cases v <;> first | exact held.elim | exact .leaf here rfl
  | list _ ih =>
    rw [Native.tag, Native.tagItems_eq_map] at h
    cases h with | array _ parts => ?_
    exact .node trivial fun u hu => ih u hu (parts _ (List.mem_map_of_mem hu))
  | @table entries keys _ distinct ih =>
    rw [Native.tag, Native.tagEntries_eq_map] at h
    cases h with | object here _ values => ?_
    have names : ∀ e ∈ entries, ∃ s, e.1 = .text s := by
      intro e he
      obtain ⟨tag, held⟩ := keys e he
      obtain ⟨s, tagged⟩ := here.1 _ (List.mem_map_of_mem he)
      dsimp only at tagged
      rw [tag_holds held] at tagged
      exact ⟨s, (Tagged.scalar.inj tagged).2⟩
    refine .ofEntries ⟨names, distinct⟩ (fun e he => ?_) fun e he => ?_
    · obtain ⟨s, key⟩ := names e he
      rw [key]
      exact .leaf trivial rfl
    · exact ih e he (values _ (List.mem_map_of_mem he))

/-- The text of a key with legible parts is that of a value from which the key comes back. -/
theorem KeyTree.read {k : Tagged} (h : k.KeyTree) :
    ∃ text v, k.keyText = .ok text ∧ Json.read text = .ok v ∧ v.tag = k := by
  obtain ⟨v, normal, rfl⟩ := exists_normal (lossless_of_legible h.legible)
  obtain ⟨text, written, read⟩ := Native.canonicalText_plain (plain_of_legible normal h.legible)
  exact ⟨text, v, Attempt.bind_ok.mpr ⟨v, unwrap_tag_normal normal, written⟩, read, rfl⟩

/-- Keys with legible parts that have one text are one key. -/
theorem keyText_injective {k l : Tagged} (hk : k.KeyTree) (hl : l.KeyTree) {text : String}
    (first : k.keyText = .ok text) (second : l.keyText = .ok text) : k = l := by
  obtain ⟨s, v, written, read, rfl⟩ := hk.read
  obtain ⟨t, w, rewritten, reread, rfl⟩ := hl.read
  rw [written] at first
  rw [rewritten] at second
  cases first
  cases second
  rw [read] at reread
  cases reread
  rfl

theorem EntryOf.enters {pair : Tagged × Tagged} {entry : Native × Native}
    (composite : pair.1.isComposite = true) (h : EntryOf pair entry) : Enters pair entry := by
  obtain ⟨text, written, key⟩ := h.key
  obtain ⟨bare, unwrapped, written⟩ := Attempt.bind_ok.mp written
  refine ⟨bare, unwrapped, ?_, by rw [key]; rfl, h.value⟩
  rw [Tagged.nativeKey, if_pos composite, written, key]
  rfl

/-- Pairs whose keys stay apart are appended to a table one after the other. -/
theorem unwrapPairs_append {pairs : List (Tagged × Tagged)} (table : Ordered Native Native)
    {entries : Ordered Native Native} (composite : ∀ e ∈ pairs, e.1.isComposite = true)
    (h : List.Forall₂ EntryOf pairs entries) (distinct : Ordered.Distinct (table ++ entries)) :
    unwrapPairs pairs table = .ok (table ++ entries) := by
  induction h generalizing table with
  | nil => rw [unwrapPairs, List.append_nil]
  | @cons pair entry pairs entries first _ ih =>
    obtain ⟨here, others⟩ := List.forall_mem_cons.mp composite
    obtain ⟨bare, unwrapped, key, hashable, value⟩ := first.enters here
    have absent : ∀ d ∈ table, (d.1 == entry.1) = false := fun d hd =>
      (List.pairwise_append.mp distinct).2.2 d hd entry List.mem_cons_self
    have inserted : table.insert entry.1 entry.2 = table ++ [entry] :=
      Ordered.insert_absent entry.2 absent
    rw [List.append_cons] at distinct ⊢
    rw [← ih _ others distinct, ← inserted]
    obtain ⟨k, v⟩ := pair
    simp only [unwrapPairs, unwrapped, key, value, hashable, Attempt.ok_bind, ↓reduceIte]

theorem exists_entriesOf {pairs : List (Tagged × Tagged)} (keys : ∀ e ∈ pairs, e.1.KeyTree)
    (values : ∀ e ∈ pairs, ∃ v, e.2.unwrap = .ok v) :
    ∃ entries, List.Forall₂ EntryOf pairs entries := by
  induction pairs with
  | nil => exact ⟨[], .nil⟩
  | cons e es ih =>
    obtain ⟨key, keys⟩ := List.forall_mem_cons.mp keys
    obtain ⟨⟨v, value⟩, values⟩ := List.forall_mem_cons.mp values
    obtain ⟨entries, related⟩ := ih keys values
    obtain ⟨text, _, written, _⟩ := key.read
    exact ⟨(.text text, v) :: entries, .cons ⟨⟨text, written, rfl⟩, value⟩ related⟩

theorem entries_distinct {pairs : List (Tagged × Tagged)} {entries : Ordered Native Native}
    (keys : ∀ e ∈ pairs, e.1.KeyTree) (apart : (pairs.map (·.1)).Nodup)
    (related : List.Forall₂ EntryOf pairs entries) : entries.Distinct := by
  have trees : pairs.Pairwise fun d e => (d.1.KeyTree ∧ e.1.KeyTree) ∧ d.1 ≠ e.1 :=
    (List.pairwise_map.mp apart).imp_of_mem fun hd he apart => ⟨⟨keys _ hd, keys _ he⟩, apart⟩
  refine Native.pairwise_of_forall₂ related trees ?_
  intro a b c d first second ⟨⟨ha, hb⟩, apart⟩
  obtain ⟨s, written, key⟩ := first.key
  obtain ⟨t, rewritten, other⟩ := second.key
  rw [key, other]
  refine Json.text_apart fun same => apart ?_
  rw [← same] at rewritten
  exact keyText_injective ha hb written rewritten

/-- An object with different legible keys becomes a table with an entry for each of its pairs, in
their order; for the text of such a key tells it from all others. -/
theorem composite_keys_apart {pairs : List (Tagged × Tagged)} (keys : ∀ e ∈ pairs, e.1.KeyTree)
    (apart : (pairs.map (·.1)).Nodup) (values : ∀ e ∈ pairs, ∃ v, e.2.unwrap = .ok v) :
    (∃ entries, (object pairs).unwrap = .ok (.table entries) ∧
      List.Forall₂ EntryOf pairs entries ∧ Ordered.Distinct entries) ∧
    ∀ k l : Tagged, k.KeyTree → l.KeyTree → ∀ text, k.keyText = .ok text →
      l.keyText = .ok text → k = l := by
  refine ⟨?_, fun k l hk hl text => keyText_injective hk hl⟩
  obtain ⟨entries, related⟩ := exists_entriesOf keys values
  have distinct := entries_distinct keys apart related
  have composite : ∀ e ∈ pairs, e.1.isComposite = true := fun e he => (keys e he).composite
  have entered : unwrapPairs pairs [] = .ok entries :=
    unwrapPairs_append [] composite related distinct
  exact ⟨entries, by rw [unwrap, entered]; rfl, related, distinct⟩

/-- A list of one and a list of its text are different keys. -/
theorem composite_keys_apart_one :
    let pairs : List (Tagged × Tagged) :=
      [(.array [.scalar .integer (.int 1)], .text "a"), (.array [.text "1"], .text "b")]
    (∀ e ∈ pairs, e.1.KeyTree) ∧ (pairs.map (·.1)).Nodup ∧
      (∀ e ∈ pairs, ∃ v, e.2.unwrap = .ok v) ∧
      ∃ entries, (object pairs).unwrap = .ok (.table entries) ∧
        List.Forall₂ EntryOf pairs entries ∧ Ordered.Distinct entries := by
  intro pairs
  have keys : ∀ e ∈ pairs, e.1.KeyTree := by
    refine List.forall_mem_cons.mpr ⟨?_, List.forall_mem_singleton.mpr ?_⟩
    · have short : Int.natAbs 1 < tooLarge := Nat.lt_trans (by decide) digitLimit_lt_tooLarge
      exact ⟨rfl, .array trivial (List.forall_mem_singleton.mpr (.scalar short))⟩
    · exact ⟨rfl, .array trivial (List.forall_mem_singleton.mpr (.scalar trivial))⟩
  have apart : (pairs.map (·.1)).Nodup := by
    simp [pairs, Tagged.text]
  have values : ∀ e ∈ pairs, ∃ v, e.2.unwrap = .ok v :=
    List.forall_mem_cons.mpr ⟨⟨_, rfl⟩, List.forall_mem_singleton.mpr ⟨_, rfl⟩⟩
  exact ⟨keys, apart, values, (composite_keys_apart keys apart values).1⟩

end Tagged

end HostBridge
