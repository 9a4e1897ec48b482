import HostBridge.Proofs.WireForm

namespace HostBridge

namespace Native

/-- All whole numbers in a value keep to the digit limit. -/
def Short (v : Native) : Prop :=
  v.Everywhere fun
    | .int n => n.natAbs < tooLarge
    | _ => True

theorem short_int {n : Int} (h : n.natAbs < digitLimit) : (int n).Short :=
  .node (Nat.lt_trans h digitLimit_lt_tooLarge) (List.forall_mem_nil _)

theorem displayItems_short {items : List Native} (h : ∀ v ∈ items, ∃ s, v.display? = some s) :
    ∃ texts, displayItems? items = some texts := by
  induction items with
  | nil => exact ⟨[], rfl⟩
  | cons v vs ih =>
    obtain ⟨⟨s, hs⟩, hvs⟩ := List.forall_mem_cons.mp h
    obtain ⟨texts, ht⟩ := ih hvs
    exact ⟨s :: texts, by simp [displayItems?, hs, ht]⟩

theorem displayEntries_short {entries : List (Native × Native)}
    (h : ∀ e ∈ entries, (∃ s, e.1.display? = some s) ∧ ∃ s, e.2.display? = some s) :
    ∃ texts, displayEntries? entries = some texts := by
  induction entries with
  | nil => exact ⟨[], rfl⟩
  | cons e es ih =>
    obtain ⟨⟨⟨k, hk⟩, v, hv⟩, hes⟩ := List.forall_mem_cons.mp h
    obtain ⟨texts, ht⟩ := ih hes
    exact ⟨(k ++ ": " ++ v) :: texts, by simp [displayEntries?, hk, hv, ht]⟩

/-- A value without too long numbers can be shown in a message. -/
theorem display_short {v : Native} (h : v.Short) : ∃ s, v.display? = some s := by
  induction v with
  | int n => exact ⟨decimalText n, by simp [display?, decimalText?, h.here]⟩
  | list items ih =>
    obtain ⟨texts, ht⟩ := displayItems_short fun v hv => ih v hv (h.inside hv)
    exact ⟨_, by simp only [display?, ht]; rfl⟩
  | tuple items ih =>
    have each : ∀ v ∈ items, ∃ s, v.display? = some s := fun v hv => ih v hv (h.inside hv)
    obtain ⟨texts, ht⟩ := displayItems_short each
    match items with
    | [item] =>
      obtain ⟨s, hs⟩ := each item (by simp)
      exact ⟨_, by simp only [display?, hs]; rfl⟩
    | [] | _ :: _ :: _ => exact ⟨_, by simp only [display?, ht]; rfl⟩
  | table entries ih =>
    obtain ⟨texts, ht⟩ := displayEntries_short fun e he =>
      ⟨(ih e he).1 (h.entry he).1, (ih e he).2 (h.entry he).2⟩
    exact ⟨_, by simp only [display?, ht]; rfl⟩
  | null | bool | float | text | bytes => exact ⟨_, rfl⟩

theorem of_displayItems {items : List Native} {texts : List String}
    (h : displayItems? items = some texts) : ∀ v ∈ items, ∃ s, v.display? = some s := by
  induction items generalizing texts with
  | nil => exact List.forall_mem_nil _
  | cons v vs ih =>
    simp only [displayItems?, Option.bind_eq_bind, Option.bind_eq_some_iff] at h
    obtain ⟨s, hs, rest, hvs, _⟩ := h
    exact List.forall_mem_cons.mpr ⟨⟨s, hs⟩, ih hvs⟩

theorem of_displayEntries {entries : List (Native × Native)} {texts : List String}
    (h : displayEntries? entries = some texts) :
    ∀ e ∈ entries, (∃ s, e.1.display? = some s) ∧ ∃ s, e.2.display? = some s := by
  induction entries generalizing texts with
  | nil => exact List.forall_mem_nil _
  | cons e es ih =>
    simp only [displayEntries?, Option.bind_eq_bind, Option.bind_eq_some_iff] at h
    obtain ⟨k, hk, v, hv, rest, hes, _⟩ := h
    exact List.forall_mem_cons.mpr ⟨⟨⟨k, hk⟩, v, hv⟩, ih hes⟩

/-- A value that is shown holds no too long number. -/
theorem short_of_display {v : Native} (h : ∃ s, v.display? = some s) : v.Short := by
  induction v with
  | int n =>
    obtain ⟨s, hs⟩ := h
    by_cases short : n.natAbs < tooLarge
    · exact .leaf short rfl
    · rw [display?, decimalText?, if_neg short] at hs
      cases hs
  | list items ih =>
    obtain ⟨s, hs⟩ := h
    simp only [display?, Option.bind_eq_bind, Option.bind_eq_some_iff] at hs
    obtain ⟨texts, ht, _⟩ := hs
    exact .node trivial fun v hv => ih v hv (of_displayItems ht v hv)
  | tuple items ih =>
    obtain ⟨s, hs⟩ := h
    match items with
    | [item] =>
      simp only [display?, Option.bind_eq_bind, Option.bind_eq_some_iff] at hs
      obtain ⟨text, ht, _⟩ := hs
      exact .node trivial (List.forall_mem_singleton.mpr (ih item (by simp) ⟨text, ht⟩))
    | [] => exact .leaf trivial rfl
    | first :: second :: rest =>
      simp only [display?, Option.bind_eq_bind, Option.bind_eq_some_iff] at hs
      obtain ⟨texts, ht, _⟩ := hs
      exact .node trivial fun v hv => ih v hv (of_displayItems ht v hv)
  | table entries ih =>
    obtain ⟨s, hs⟩ := h
    simp only [display?, Option.bind_eq_bind, Option.bind_eq_some_iff] at hs
    obtain ⟨texts, ht, _⟩ := hs
    refine .ofEntries trivial (fun e he => ?_) (fun e he => ?_)
    · exact (ih e he).1 (of_displayEntries ht e he).1
    · exact (ih e he).2 (of_displayEntries ht e he).2
  | null | bool | float | text | bytes => exact .leaf trivial rfl

theorem display_iff {v : Native} : (∃ s, v.display? = some s) ↔ v.Short :=
  ⟨short_of_display, display_short⟩

/-- The wire values: tables with one entry from a tag to a payload. Only the payloads of arrays and
objects have a form of their own, and lists and tuples are the same there. -/
inductive WireValue : Native → Prop
  | scalar (tag : ScalarTag) (payload : Native) : WireValue (.table [(.text tag.name, payload)])
  | array {inner : Native} {items : List Native} (held : inner.sequence? = some items)
      (parts : ∀ w ∈ items, WireValue w) : WireValue (.table [(.text "Array", inner)])
  | object {inner : Native} {entries : List Native} {pairs : List (Native × Native)}
      (held : inner.sequence? = some entries)
      (paired : entries.map sequence? = pairs.map fun e => some [e.1, e.2])
      (keys : ∀ e ∈ pairs, WireValue e.1) (values : ∀ e ∈ pairs, WireValue e.2) :
      WireValue (.table [(.text "Object", inner)])

/-- An entry of an object as it should be: a pair of two wire values. -/
def WirePair (e : Native) : Prop :=
  ∃ k v, e.sequence? = some [k, v] ∧ k.WireValue ∧ v.WireValue

/-- A tag that no wire value has. -/
def UnknownTag (tag : Native) : Prop :=
  ∀ s, tag = .text s → ScalarTag.ofName? s = none ∧ s ≠ "Array" ∧ s ≠ "Object"

/-- The first part of a value that is at fault, in the order from the outside to the inside and from
left to right, keys before their values. Whatever stands before it is in order. -/
inductive FirstDefect : Native → Native → WireDefect → Prop
  | notMapping {w : Native} (h : ∀ entries, w ≠ .table entries) : FirstDefect w w .notMapping
  | entryCount {entries : List (Native × Native)} (h : entries.length ≠ 1) :
      FirstDefect (.table entries) (.table entries) (.entryCount entries.length)
  | unknownTag {tag inner : Native} (h : tag.UnknownTag) :
      FirstDefect (.table [(tag, inner)]) (.table [(tag, inner)]) (.unknownTag tag)
  | arrayPayload {inner : Native} (h : inner.sequence? = none) :
      FirstDefect (.table [(.text "Array", inner)]) (.table [(.text "Array", inner)]) .arrayPayload
  | objectPayload {inner : Native} (h : inner.sequence? = none) :
      FirstDefect (.table [(.text "Object", inner)]) (.table [(.text "Object", inner)])
        .objectPayload
  | item {inner w node : Native} {before after : List Native} {defect : WireDefect}
      (held : inner.sequence? = some (before ++ w :: after))
      (earlier : ∀ u ∈ before, u.WireValue) (here : FirstDefect w node defect) :
      FirstDefect (.table [(.text "Array", inner)]) node defect
  | objectEntry {inner e : Native} {before after : List Native}
      (held : inner.sequence? = some (before ++ e :: after))
      (earlier : ∀ u ∈ before, u.WirePair) (single : ∀ k v, e.sequence? ≠ some [k, v]) :
      FirstDefect (.table [(.text "Object", inner)]) (.table [(.text "Object", inner)])
        .objectEntry
  | key {inner e k v node : Native} {before after : List Native} {defect : WireDefect}
      (held : inner.sequence? = some (before ++ e :: after))
      (earlier : ∀ u ∈ before, u.WirePair) (pair : e.sequence? = some [k, v])
      (here : FirstDefect k node defect) :
      FirstDefect (.table [(.text "Object", inner)]) node defect
  | value {inner e k v node : Native} {before after : List Native} {defect : WireDefect}
      (held : inner.sequence? = some (before ++ e :: after))
      (earlier : ∀ u ∈ before, u.WirePair) (pair : e.sequence? = some [k, v])
      (sound : k.WireValue) (here : FirstDefect v node defect) :
      FirstDefect (.table [(.text "Object", inner)]) node defect

theorem components_sequence {v : Native} {items : List Native} (h : v.sequence? = some items) :
    v.components = items := by
  cases v with
  | list xs | tuple xs =>
    cases h
    rfl
  | _ => cases h

/-- A part of a short sequence in a short table is short. -/
theorem Short.part {inner w tag : Native} {before after : List Native}
    (h : (table [(tag, inner)]).Short) (held : inner.sequence? = some (before ++ w :: after)) :
    w.Short :=
  (h.entry (List.mem_singleton_self _)).2.inside (by simp [components_sequence held])

theorem Short.pair {e k v : Native} (h : e.Short) (pair : e.sequence? = some [k, v]) :
    k.Short ∧ v.Short :=
  ⟨h.inside (by simp [components_sequence pair]), h.inside (by simp [components_sequence pair])⟩

/-- The part at fault is short where all of the value is. -/
theorem FirstDefect.short {w node : Native} {defect : WireDefect} (h : FirstDefect w node defect)
    (short : w.Short) : node.Short := by
  induction h with
  | notMapping | entryCount | unknownTag | arrayPayload | objectPayload | objectEntry =>
    exact short
  | item held _ _ ih => exact ih (short.part held)
  | key held _ pair _ ih => exact ih ((short.part held).pair pair).1
  | value held _ pair _ _ ih => exact ih ((short.part held).pair pair).2

end Native

namespace Tagged

open Native (WireValue WirePair FirstDefect UnknownTag Short)

theorem ofWire_array {inner : Native} {items : List Native} (held : inner.sequence? = some items) :
    ofWire (.table [(.text "Array", inner)]) = (do return .array (← itemsOfWire items)) := by
  have other : ScalarTag.ofName? "Array" = none := by decide
  cases inner with
  | list xs | tuple xs =>
    cases held
    simp only [ofWire, other, ↓reduceIte]
  | _ => cases held

theorem ofWire_object {inner : Native} {entries : List Native}
    (held : inner.sequence? = some entries) :
    ofWire (.table [(.text "Object", inner)]) =
      (do return .object (← pairsOfWire (.table [(.text "Object", inner)]) entries)) := by
  have other : ScalarTag.ofName? "Object" = none := by decide
  have object : ¬ "Object" = "Array" := by decide
  cases inner with
  | list xs | tuple xs =>
    cases held
    simp only [ofWire, other, object, ↓reduceIte]
  | _ => cases held

theorem pairsOfWire_pair {e k v : Native} (pair : e.sequence? = some [k, v]) (payload : Native)
    (es : List Native) :
    pairsOfWire payload (e :: es) = (do
      let key ← ofWire k
      let value ← ofWire v
      return (key, value) :: (← pairsOfWire payload es)) := by
  cases e with
  | list xs | tuple xs =>
    cases pair
    simp only [pairsOfWire]
  | _ => cases pair

theorem pairsOfWire_single {e : Native} (single : ∀ k v, e.sequence? ≠ some [k, v])
    (payload : Native) (es : List Native) :
    pairsOfWire payload (e :: es) = .error (.ofDefect payload .objectEntry) := by
  unfold pairsOfWire
  split
  · rename_i none
    cases none
  · rename_i k v _ same
    cases same
    exact absurd rfl (single k v)
  · rename_i k v _ same
    cases same
    exact absurd rfl (single k v)
  · rename_i same
    cases same
    rfl

theorem ofWire_entries {entries : List (Native × Native)} (many : entries.length ≠ 1) :
    ofWire (.table entries) =
      .error (.ofDefect (.table entries) (.entryCount entries.length)) := by
  unfold ofWire
  split
  · rename_i same
    cases same
    exact absurd rfl many
  · rename_i same
    cases same
    exact absurd rfl many
  · rename_i same
    cases same
    rfl
  · rename_i untabled
    exact absurd rfl (untabled entries)

theorem ofWire_unknownTag {tag : Native} (unknown : UnknownTag tag) (inner : Native) :
    ofWire (.table [(tag, inner)]) =
      .error (.ofDefect (.table [(tag, inner)]) (.unknownTag tag)) := by
  unfold ofWire
  split
  · rename_i same
    cases same
    obtain ⟨scalar, array, object⟩ := unknown _ rfl
    rw [scalar]
    dsimp only
    rw [if_neg array, if_neg object]
  · rename_i same
    cases same
    rfl
  · rename_i entries _ many same
    cases same
    exact absurd rfl (many tag inner)
  · rename_i untabled
    exact absurd rfl (untabled [(tag, inner)])

/-- A value has the outer form of a wire value, or it is refused for its outer form. -/
theorem ofWire_form (w : Native) :
    (∃ tag payload, w = .table [(.text (ScalarTag.name tag), payload)] ∧
      ofWire w = .ok (.scalar tag payload)) ∨
    (∃ inner items, w = .table [(.text "Array", inner)] ∧ inner.sequence? = some items) ∨
    (∃ inner entries, w = .table [(.text "Object", inner)] ∧ inner.sequence? = some entries) ∨
    ∃ defect, FirstDefect w w defect ∧ ofWire w = .error (.ofDefect w defect) := by
  unfold ofWire
  split
  · rename_i tag inner
    split
    · rename_i scalar named
      exact .inl ⟨scalar, inner, by rw [ScalarTag.name_of_ofName? named], rfl⟩
    · rename_i other
      dsimp only
      split
      · rename_i array
        subst array
        cases inner with
        | list items | tuple items => exact .inr (.inl ⟨_, items, rfl, rfl⟩)
        | _ => exact .inr (.inr (.inr ⟨_, .arrayPayload rfl, rfl⟩))
      · rename_i array
        split
        · rename_i object
          subst object
          cases inner with
          | list entries | tuple entries => exact .inr (.inr (.inl ⟨_, entries, rfl, rfl⟩))
          | _ => exact .inr (.inr (.inr ⟨_, .objectPayload rfl, rfl⟩))
        · rename_i object
          refine .inr (.inr (.inr ⟨_, .unknownTag ?_, rfl⟩))
          intro s same
          cases same
          exact ⟨other, array, object⟩
  · rename_i tag inner untext
    refine .inr (.inr (.inr ⟨_, .unknownTag fun s same => ?_, rfl⟩))
    exact absurd same (untext s)
  · rename_i entries _ many
    refine .inr (.inr (.inr ⟨_, .entryCount fun single => ?_, rfl⟩))
    obtain ⟨⟨tag, inner⟩, he⟩ := List.length_eq_one_iff.mp single
    exact many tag inner he
  · rename_i untabled
    exact .inr (.inr (.inr ⟨_, .notMapping fun entries same => untabled entries same, rfl⟩))

theorem itemsOfWire_error {before : List Native} {w : Native} {f : Failure}
    (earlier : ∀ u ∈ before, ∃ t, ofWire u = .ok t) (here : ofWire w = .error f)
    (after : List Native) :
    itemsOfWire (before ++ w :: after) = .error f := by
  induction before with
  | nil => simp [itemsOfWire, here]
  | cons u us ih =>
    obtain ⟨⟨t, ht⟩, hus⟩ := List.forall_mem_cons.mp earlier
    simp [itemsOfWire, ht, ih hus]

/-- Entries that are read do not hide a failure after them. -/
theorem pairsOfWire_error {payload : Native} {before rest : List Native} {f : Failure}
    (earlier : ∀ u ∈ before, ∃ k v, u.sequence? = some [k, v] ∧ (∃ t, ofWire k = .ok t) ∧
      ∃ t, ofWire v = .ok t)
    (here : pairsOfWire payload rest = .error f) :
    pairsOfWire payload (before ++ rest) = .error f := by
  induction before with
  | nil => exact here
  | cons u us ih =>
    obtain ⟨⟨k, v, pair, ⟨key, hk⟩, value, hv⟩, hus⟩ := List.forall_mem_cons.mp earlier
    simp [pairsOfWire_pair pair, hk, hv, ih hus]

theorem itemsOfWire_ok {ws : List Native} (h : ∀ w ∈ ws, ∃ t, ofWire w = .ok t) :
    ∃ ts, itemsOfWire ws = .ok ts := by
  induction ws with
  | nil => exact ⟨[], rfl⟩
  | cons w ws ih =>
    obtain ⟨⟨t, ht⟩, hws⟩ := List.forall_mem_cons.mp h
    obtain ⟨ts, hts⟩ := ih hws
    exact ⟨t :: ts, by simp [itemsOfWire, ht, hts]⟩

theorem pairsOfWire_ok {entries : List Native} {pairs : List (Native × Native)}
    (paired : entries.map Native.sequence? = pairs.map fun e => some [e.1, e.2])
    (h : ∀ e ∈ pairs, (∃ t, ofWire e.1 = .ok t) ∧ ∃ t, ofWire e.2 = .ok t) (payload : Native) :
    ∃ ps, pairsOfWire payload entries = .ok ps := by
  induction entries generalizing pairs with
  | nil => exact ⟨[], rfl⟩
  | cons e es ih =>
    cases pairs with
    | nil => cases paired
    | cons d ds =>
      obtain ⟨pair, others⟩ := List.cons.inj paired
      obtain ⟨⟨⟨key, hk⟩, value, hv⟩, hds⟩ := List.forall_mem_cons.mp h
      obtain ⟨ps, hps⟩ := ih others hds
      exact ⟨(key, value) :: ps, by simp [pairsOfWire_pair pair, hk, hv, hps]⟩

theorem ofWire_wireValue {w : Native} (h : w.WireValue) : ∃ t, ofWire w = .ok t := by
  induction h with
  | scalar tag payload => exact ⟨_, ofWire_toWire (.scalar tag payload)⟩
  | array held _ ih =>
    obtain ⟨ts, read⟩ := itemsOfWire_ok ih
    exact ⟨.array ts, by simp [ofWire_array held, read]⟩
  | object held paired _ _ keys values =>
    rw [ofWire_object held]
    obtain ⟨ps, read⟩ := pairsOfWire_ok paired (fun e he => ⟨keys e he, values e he⟩) _
    exact ⟨.object ps, by rw [read, Attempt.ok_bind, Attempt.pure_ok]⟩

theorem ofWire_wirePairs {entries : List Native} (h : ∀ u ∈ entries, u.WirePair) :
    ∀ u ∈ entries, ∃ k v, u.sequence? = some [k, v] ∧ (∃ t, ofWire k = .ok t) ∧
      ∃ t, ofWire v = .ok t := by
  intro u hu
  obtain ⟨k, v, pair, hk, hv⟩ := h u hu
  exact ⟨k, v, pair, ofWire_wireValue hk, ofWire_wireValue hv⟩

/-- A value with a first defect is refused for that one. -/
theorem ofWire_firstDefect {w node : Native} {defect : WireDefect}
    (h : FirstDefect w node defect) : ofWire w = .error (.ofDefect node defect) := by
  induction h with
  | notMapping untabled =>
    rename_i w
    cases w with
    | table entries => exact absurd rfl (untabled entries)
    | _ => simp only [ofWire]
  | entryCount many =>
    exact ofWire_entries many
  | unknownTag unknown => exact ofWire_unknownTag unknown _
  | arrayPayload unlisted =>
    rename_i inner
    have other : ScalarTag.ofName? "Array" = none := by decide
    cases inner with
    | list | tuple => cases unlisted
    | _ => simp only [ofWire, other, ↓reduceIte]
  | objectPayload unlisted =>
    rename_i inner
    have other : ScalarTag.ofName? "Object" = none := by decide
    have object : ¬ "Object" = "Array" := by decide
    cases inner with
    | list | tuple => cases unlisted
    | _ => simp only [ofWire, other, object, ↓reduceIte]
  | item held earlier _ ih =>
    rw [ofWire_array held, itemsOfWire_error (fun u hu => ofWire_wireValue (earlier u hu)) ih,
      Attempt.error_bind]
  | objectEntry held earlier single =>
    rw [ofWire_object held, pairsOfWire_error (ofWire_wirePairs earlier)
      (pairsOfWire_single single _ _), Attempt.error_bind]
  | key held earlier pair _ ih =>
    rw [ofWire_object held, pairsOfWire_error (ofWire_wirePairs earlier), Attempt.error_bind]
    rw [pairsOfWire_pair pair, ih, Attempt.error_bind]
  | value held earlier pair sound _ ih =>
    obtain ⟨key, hk⟩ := ofWire_wireValue sound
    rw [ofWire_object held, pairsOfWire_error (ofWire_wirePairs earlier), Attempt.error_bind]
    rw [pairsOfWire_pair pair, hk, Attempt.ok_bind, ih, Attempt.error_bind]

mutual

/-- Every value is a wire value or has a first defect. -/
theorem wireValue_or_firstDefect (w : Native) :
    w.WireValue ∨ ∃ node defect, FirstDefect w node defect := by
  rcases ofWire_form w with ⟨tag, payload, hw, _⟩ | ⟨inner, items, hw, held⟩ |
    ⟨inner, entries, hw, held⟩ | ⟨defect, here, _⟩
  · exact .inl (hw ▸ .scalar tag payload)
  · have smaller : sizeOf items < sizeOf w := hw ▸ Native.sizeOf_payload held _
    rw [hw]
    rcases wireValues_or_firstDefect items with sound | ⟨before, u, after, split, earlier, here⟩
    · exact .inl (.array held sound)
    · obtain ⟨node, defect, here⟩ := here
      exact .inr ⟨node, defect, .item (split ▸ held) earlier here⟩
  · have smaller : sizeOf entries < sizeOf w := hw ▸ Native.sizeOf_payload held _
    rw [hw]
    rcases wirePairs_or_firstDefect entries with ⟨pairs, paired, keys, values⟩ |
      ⟨before, e, after, split, earlier, here⟩
    · exact .inl (.object held paired keys values)
    · rcases here with single | ⟨k, v, pair, ⟨node, defect, here⟩ | ⟨sound, node, defect, here⟩⟩
      · exact .inr ⟨_, _, .objectEntry (split ▸ held) earlier single⟩
      · exact .inr ⟨node, defect, .key (split ▸ held) earlier pair here⟩
      · exact .inr ⟨node, defect, .value (split ▸ held) earlier pair sound here⟩
  · exact .inr ⟨w, defect, here⟩
termination_by sizeOf w

theorem wireValues_or_firstDefect (ws : List Native) :
    (∀ w ∈ ws, w.WireValue) ∨ ∃ before w after, ws = before ++ w :: after ∧
      (∀ u ∈ before, u.WireValue) ∧ ∃ node defect, FirstDefect w node defect := by
  match ws with
  | [] => exact .inl (List.forall_mem_nil _)
  | w :: ws =>
    rcases wireValue_or_firstDefect w with sound | here
    · rcases wireValues_or_firstDefect ws with all | ⟨before, u, after, rfl, earlier, here⟩
      · exact .inl (List.forall_mem_cons.mpr ⟨sound, all⟩)
      · exact .inr ⟨w :: before, u, after, rfl, List.forall_mem_cons.mpr ⟨sound, earlier⟩, here⟩
    · exact .inr ⟨[], w, ws, rfl, List.forall_mem_nil _, here⟩
termination_by sizeOf ws

theorem wirePairs_or_firstDefect (es : List Native) :
    (∃ pairs : List (Native × Native),
      es.map Native.sequence? = pairs.map (fun e => some [e.1, e.2]) ∧
      (∀ e ∈ pairs, e.1.WireValue) ∧ ∀ e ∈ pairs, e.2.WireValue) ∨
    ∃ before e after, es = before ++ e :: after ∧ (∀ u ∈ before, u.WirePair) ∧
      ((∀ k v, e.sequence? ≠ some [k, v]) ∨ ∃ k v, e.sequence? = some [k, v] ∧
        ((∃ node defect, FirstDefect k node defect) ∨
          k.WireValue ∧ ∃ node defect, FirstDefect v node defect)) := by
  match es with
  | [] => exact .inl ⟨[], rfl, List.forall_mem_nil _, List.forall_mem_nil _⟩
  | e :: es =>
    by_cases pair : ∃ k v, e.sequence? = some [k, v]
    · obtain ⟨k, v, pair⟩ := pair
      obtain ⟨smallerKey, smallerValue⟩ := Native.sizeOf_pair pair
      rcases wireValue_or_firstDefect k with key | here
      · rcases wireValue_or_firstDefect v with value | here
        · rcases wirePairs_or_firstDefect es with ⟨pairs, paired, keys, values⟩ |
            ⟨before, d, after, rfl, earlier, here⟩
          · refine .inl ⟨(k, v) :: pairs, by simp [pair, paired], ?_, ?_⟩
            · exact List.forall_mem_cons.mpr ⟨key, keys⟩
            · exact List.forall_mem_cons.mpr ⟨value, values⟩
          · exact .inr ⟨e :: before, d, after, rfl,
              List.forall_mem_cons.mpr ⟨⟨k, v, pair, key, value⟩, earlier⟩, here⟩
        · exact .inr ⟨[], e, es, rfl, List.forall_mem_nil _, .inr ⟨k, v, pair, .inr ⟨key, here⟩⟩⟩
      · exact .inr ⟨[], e, es, rfl, List.forall_mem_nil _, .inr ⟨k, v, pair, .inl here⟩⟩
    · exact .inr ⟨[], e, es, rfl, List.forall_mem_nil _,
        .inl fun k v same => pair ⟨k, v, same⟩⟩
termination_by sizeOf es

end

/-- Reading accepts the wire values and nothing else. Any other value with no too long numbers is
refused as malformed, with the first of its defects, which there is exactly one of. -/
theorem read_or_first_defect {w : Native} (short : w.Short) :
    ((∃ t, ofWire w = .ok t) ↔ w.WireValue) ∧
    (¬ w.WireValue → ∃ node defect, ofWire w = .error (.malformed node defect) ∧
      FirstDefect w node defect ∧
      ∀ other cause, FirstDefect w other cause → other = node ∧ cause = defect) := by
  have refused {node : Native} {defect : WireDefect} (h : FirstDefect w node defect) :
      ofWire w = .error (.malformed node defect) := by
    obtain ⟨s, shown⟩ := Native.display_short (h.short short)
    rw [ofWire_firstDefect h, Failure.ofDefect, shown, Option.isSome_some, if_pos rfl]
  refine ⟨⟨fun ⟨t, read⟩ => ?_, ofWire_wireValue⟩, fun malformed => ?_⟩
  · rcases wireValue_or_firstDefect w with sound | ⟨node, defect, here⟩
    · exact sound
    · rw [refused here] at read
      cases read
  · rcases wireValue_or_firstDefect w with sound | ⟨node, defect, here⟩
    · exact absurd sound malformed
    · refine ⟨node, defect, refused here, here, fun other cause h => ?_⟩
      have same := (refused h).symm.trans (refused here)
      cases same
      exact ⟨rfl, rfl⟩

/-- Of a text in place of items inside a key, an array tag in lower case in the value of that key
and an entry that is no pair, the first is reported. -/
theorem defect_in_key_first :
    let text := Native.table [(.text "Array", .text "ab")]
    let key := Native.table [(.text "Array", .list [.table [(.text "Float", .null)], text])]
    let w := Native.table [(.text "Object",
      .tuple [.list [key, .table [(.text "array", .list [])]], .int 5])]
    w.Short ∧ ¬ w.WireValue ∧ FirstDefect w text .arrayPayload ∧
      ofWire w = .error (.malformed text .arrayPayload) := by
  intro text key w
  have short : w.Short := by
    repeat' first
      | exact List.forall_mem_nil _
      | exact Native.short_int (by decide)
      | refine List.forall_mem_cons.mpr ⟨?_, ?_⟩
      | refine .node trivial ?_
  have here : FirstDefect w text .arrayPayload := by
    let float := Native.table [(.text "Float", .null)]
    have items : (Native.list [float, text]).sequence? = some ([float] ++ text :: []) := rfl
    have inKey : FirstDefect key text .arrayPayload :=
      .item items (List.forall_mem_singleton.mpr (.scalar .float .null)) (.arrayPayload rfl)
    let value := Native.table [(.text "array", .list [])]
    have entries : (Native.tuple [.list [key, value], .int 5]).sequence? =
      some ([] ++ .list [key, value] :: [.int 5]) := rfl
    exact .key entries (List.forall_mem_nil _) rfl inKey
  obtain ⟨accepted, refused⟩ := read_or_first_defect short
  have malformed : ¬ w.WireValue := fun sound => by
    obtain ⟨t, read⟩ := accepted.mpr sound
    cases read
  obtain ⟨node, defect, failed, _, only⟩ := refused malformed
  obtain ⟨rfl, rfl⟩ := only text .arrayPayload here
  exact ⟨short, malformed, here, failed⟩

end Tagged

end HostBridge
