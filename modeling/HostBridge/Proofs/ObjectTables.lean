import Mathlib.Data.List.Permutation
import HostBridge.Proofs.CompositeKeys
import HostBridge.Proofs.KeyEquality

namespace HostBridge

namespace Native

/-- Two places of a list of entries have one key: they are one place, or their keys are equal. -/
def Together (entries : List (Native × Native)) (i j : Nat) : Prop :=
  ∃ d e, entries[i]? = some d ∧ entries[j]? = some e ∧ (i = j ∨ EqualKeys d.1 e.1)

/-- The entry that all with the key of a place become: that key, with the value of the last place
that has it. -/
def EntryAt (entries : List (Native × Native)) (i : Nat) (entry : Native × Native) : Prop :=
  ∃ d last l, entries[i]? = some d ∧ entry.1 = d.1 ∧
    Together entries i last ∧ (∀ j > last, ¬ Together entries i j) ∧
      entries[last]? = some l ∧ entry.2 = l.2

/-- A table has one entry for each key of a list of entries, in the order of their first places. -/
structure Collects (entries : List (Native × Native)) (table : Ordered Native Native)
    (places : List Nat) : Prop where
  ascending : places.Pairwise (· < ·)
  first : ∀ i, i ∈ places ↔ i < entries.length ∧ ∀ j < i, ¬ Together entries j i
  collected : List.Forall₂ (EntryAt entries) places table

variable {entries : List (Native × Native)}

theorem Together.lt {i j : Nat} (h : Together entries i j) :
    i < entries.length ∧ j < entries.length := by
  obtain ⟨_, _, hi, hj, _⟩ := h
  exact ⟨(List.getElem?_eq_some_iff.mp hi).1, (List.getElem?_eq_some_iff.mp hj).1⟩

theorem Together.refl {i : Nat} (h : i < entries.length) : Together entries i i :=
  ⟨entries[i], entries[i], List.getElem?_eq_getElem h, List.getElem?_eq_getElem h, .inl rfl⟩

theorem Together.trans {i j k : Nat} (h : Together entries i j) (h' : Together entries j k) :
    Together entries i k := by
  obtain ⟨d, e, hi, hj, one⟩ := h
  obtain ⟨e', f, hj', hk, other⟩ := h'
  rw [hj] at hj'
  cases hj'
  refine ⟨d, f, hi, hk, ?_⟩
  rcases one with rfl | one
  · rw [hi] at hj
    cases hj
    exact other
  · rcases other with rfl | other
    · rw [hj] at hk
      cases hk
      exact .inr one
    · exact .inr (one.trans other)

/-- The key of every place is first met at a place where no earlier one has it. -/
theorem exists_first {i : Nat} (h : i < entries.length) :
    ∃ k, Together entries k i ∧ ∀ j < k, ¬ Together entries j k := by
  classical
  have some : ∃ k, Together entries k i := ⟨i, .refl h⟩
  refine ⟨Nat.find some, Nat.find_spec some, fun j hj together => ?_⟩
  exact Nat.find_min some hj (together.trans (Nat.find_spec some))

theorem together_append {e : Native × Native} {i j : Nat} (hi : i < entries.length)
    (hj : j < entries.length) :
    Together (entries ++ [e]) i j ↔ Together entries i j := by
  simp only [Together, List.getElem?_append_left hi, List.getElem?_append_left hj]

theorem together_last {d e : Native × Native} {i : Nat} (hi : entries[i]? = some d) :
    Together (entries ++ [e]) i entries.length ↔ EqualKeys d.1 e.1 := by
  have within := (List.getElem?_eq_some_iff.mp hi).1
  simp only [Together, List.getElem?_append_left within, hi, List.getElem?_concat_length,
    Option.some.injEq, Nat.ne_of_lt within, false_or]
  exact ⟨fun ⟨_, _, hd, he, one⟩ => hd ▸ he ▸ one, fun one => ⟨d, e, rfl, rfl, one⟩⟩

/-- An entry with another key does not change what a key becomes. -/
theorem EntryAt.keep {e : Native × Native} {i : Nat} {entry : Native × Native}
    (h : EntryAt entries i entry) (other : ¬ EqualKeys entry.1 e.1) :
    EntryAt (entries ++ [e]) i entry := by
  obtain ⟨d, last, l, hi, key, together, after, found, value⟩ := h
  obtain ⟨within, here⟩ := together.lt
  refine ⟨d, last, l, ?_, key, (together_append within here).mpr together, ?_, ?_, value⟩
  · rwa [List.getElem?_append_left within]
  · intro j hj later
    rcases Nat.lt_or_ge j entries.length with inside | outside
    · exact after j hj ((together_append within inside).mp later)
    · have bound := later.lt.2
      rw [List.length_append, List.length_singleton] at bound
      obtain rfl : j = entries.length := by omega
      exact other (key ▸ (together_last hi).mp later)
  · rwa [List.getElem?_append_left here]

/-- An entry with the same key gives it its value. -/
theorem EntryAt.replace {e : Native × Native} {i : Nat} {entry : Native × Native}
    (h : EntryAt entries i entry) (same : EqualKeys entry.1 e.1) :
    EntryAt (entries ++ [e]) i (entry.1, e.2) := by
  obtain ⟨d, last, l, hi, key, together, _⟩ := h
  refine ⟨d, entries.length, e, ?_, key, (together_last hi).mpr (key ▸ same), ?_, ?_, rfl⟩
  · rwa [List.getElem?_append_left together.lt.1]
  · intro j hj later
    have bound := later.lt.2
    rw [List.length_append, List.length_singleton] at bound
    omega
  · exact List.getElem?_concat_length

/-- An entry becomes itself while it is the last. -/
theorem entryAt_last (e : Native × Native) : EntryAt (entries ++ [e]) entries.length e := by
  have bound : (entries ++ [e]).length = entries.length + 1 := List.length_append
  refine ⟨e, entries.length, e, List.getElem?_concat_length, rfl, .refl (by omega), ?_,
    List.getElem?_concat_length, rfl⟩
  intro j hj later
  have := later.lt.2
  omega

variable {table : Ordered Native Native} {places : List Nat}

theorem Collects.origin (h : Collects entries table places) :
    ∀ f ∈ table, ∃ i, EntryAt entries i f :=
  forall_of_forall₂ h.collected fun i _ _ here => ⟨i, here⟩

theorem Collects.hashable (h : Collects entries table places)
    (keys : ∀ d ∈ entries, d.1.hashable = true) : ∀ f ∈ table, f.1.hashable = true := by
  intro f hf
  obtain ⟨i, d, _, _, hi, key, _⟩ := h.origin f hf
  rw [key]
  exact keys d (List.mem_of_getElem? hi)

/-- No two entries have equal keys. -/
theorem Collects.distinct (h : Collects entries table places) :
    table.Pairwise fun d e => ¬ EqualKeys d.1 e.1 := by
  have apart : places.Pairwise fun i j => ¬ Together entries i j :=
    h.ascending.imp_of_mem fun _ hj below => ((h.first _).mp hj).2 _ below
  refine pairwise_of_forall₂ h.collected apart ?_
  intro i j f g ⟨d, _, _, hi, key, _⟩ ⟨e, _, _, hj, key', _⟩ apart same
  exact apart ⟨d, e, hi, hj, .inr (key ▸ key' ▸ same)⟩

/-- The keys of a table are those of the entries that it collects. -/
theorem Collects.met_iff (h : Collects entries table places) {k : Native} :
    (∃ f ∈ table, EqualKeys f.1 k) ↔ ∃ d ∈ entries, EqualKeys d.1 k := by
  constructor
  · rintro ⟨f, hf, same⟩
    obtain ⟨i, d, _, _, hi, key, _⟩ := h.origin f hf
    exact ⟨d, List.mem_of_getElem? hi, key ▸ same⟩
  · rintro ⟨d, hd, same⟩
    obtain ⟨i, hi⟩ := List.getElem?_of_mem hd
    obtain ⟨p, together, earliest⟩ := exists_first (List.getElem?_eq_some_iff.mp hi).1
    have entered : ∀ p ∈ places, ∃ f ∈ table, EntryAt entries p f :=
      forall_of_forall₂ h.collected.flip fun f hf _ here => ⟨f, hf, here⟩
    obtain ⟨f, hf, c, _, _, hp, key, _⟩ :=
      entered p ((h.first p).mpr ⟨together.lt.1, earliest⟩)
    obtain ⟨c', d', hp', hi', one⟩ := together
    rw [hp] at hp'
    rw [hi] at hi'
    cases hp'
    cases hi'
    refine ⟨f, hf, key ▸ ?_⟩
    rcases one with rfl | one
    · rw [hp] at hi
      cases hi
      exact same
    · exact one.trans same

/-- The first places of keys stay such, and a new entry has one if its key is new. -/
theorem first_append (e : Native × Native) (i : Nat) :
    (i < (entries ++ [e]).length ∧ ∀ j < i, ¬ Together (entries ++ [e]) j i) ↔
      (i < entries.length ∧ ∀ j < i, ¬ Together entries j i) ∨
        i = entries.length ∧ ¬ ∃ d ∈ entries, EqualKeys d.1 e.1 := by
  have bound : (entries ++ [e]).length = entries.length + 1 := List.length_append
  rcases Nat.lt_trichotomy i entries.length with within | rfl | beyond
  · have old : ∀ j < i, Together (entries ++ [e]) j i ↔ Together entries j i :=
      fun j hj => together_append (Nat.lt_trans hj within) within
    simp only [bound, within, Nat.lt_succ_of_lt within, Nat.ne_of_lt within, true_and, false_and,
      or_false]
    exact forall₂_congr fun j hj => not_congr (old j hj)
  · simp only [bound, Nat.lt_succ_self, Nat.lt_irrefl, true_and, false_and, false_or]
    constructor
    · rintro new ⟨d, hd, same⟩
      obtain ⟨j, hj⟩ := List.getElem?_of_mem hd
      exact new j (List.getElem?_eq_some_iff.mp hj).1 ((together_last hj).mpr same)
    · intro new j hj together
      have here : entries[j]? = some entries[j] := List.getElem?_eq_getElem hj
      exact new ⟨entries[j], List.getElem_mem hj, (together_last here).mp together⟩
  · simp only [bound, Nat.not_lt.mpr (Nat.succ_le_of_lt beyond), Nat.not_lt_of_gt beyond,
      Nat.ne_of_gt beyond, false_and, or_false]

/-- A new key is met first at its own place. -/
theorem Collects.add (h : Collects entries table places) {e : Native × Native}
    (absent : ¬ ∃ f ∈ table, EqualKeys f.1 e.1) :
    Collects (entries ++ [e]) (table ++ [e]) (places ++ [entries.length]) := by
  refine ⟨List.pairwise_append.mpr ⟨h.ascending, List.pairwise_singleton _ _, ?_⟩, fun i => ?_, ?_⟩
  · intro i hi j hj
    rw [List.mem_singleton.mp hj]
    exact ((h.first i).mp hi).1
  · rw [first_append, List.mem_append, List.mem_singleton, h.first, ← h.met_iff]
    simp only [absent, not_false_eq_true, and_true]
  · have others := (List.forall₂_and_left table places).mpr
      ⟨fun f hf same => absent ⟨f, hf, same⟩, h.collected.flip⟩
    have kept : List.Forall₂ (EntryAt (entries ++ [e])) places table :=
      (others.imp fun _ _ ⟨other, here⟩ => EntryAt.keep here other).flip
    exact List.rel_append kept (.cons (entryAt_last e) .nil)

/-- A key that was met before has no new first place. -/
theorem Collects.replace (h : Collects entries table places)
    (keys : ∀ d ∈ entries, d.1.hashable = true) {e : Native × Native}
    (hashable : e.1.hashable = true) (present : ∃ f ∈ table, EqualKeys f.1 e.1) :
    Collects (entries ++ [e]) (table.map fun f => if f.1 == e.1 then (f.1, e.2) else f)
      places := by
  refine ⟨h.ascending, fun i => ?_, List.forall₂_map_right_iff.mpr (h.collected.imp ?_)⟩
  · rw [first_append, h.first, ← h.met_iff]
    simp only [present, not_true_eq_false, and_false, or_false]
  · rintro i f here
    have ⟨d, _, _, hi, key, _⟩ := here
    have agree : (f.1 == e.1) = true ↔ EqualKeys f.1 e.1 := by
      rw [key]
      exact same_iff_equalKeys (keys d (List.mem_of_getElem? hi)) hashable
    split
    · rename_i same
      exact here.replace (agree.mp same)
    · rename_i other
      exact here.keep (mt agree.mpr other)

/-- The entry with an equal key is given the new value; it is the only one. -/
theorem insert_present {k : Native} (v : Native) (hashable : k.hashable = true)
    (keys : ∀ f ∈ table, f.1.hashable = true)
    (distinct : table.Pairwise fun d e => ¬ EqualKeys d.1 e.1)
    (present : ∃ f ∈ table, EqualKeys f.1 k) :
    table.insert k v = table.map fun f => if f.1 == k then (f.1, v) else f := by
  induction table with
  | nil => simp at present
  | cons d table ih =>
    obtain ⟨hd, keys⟩ := List.forall_mem_cons.mp keys
    obtain ⟨apart, distinct⟩ := List.pairwise_cons.mp distinct
    have agree := same_iff_equalKeys hd hashable
    rw [Ordered.insert, List.map_cons]
    split
    · rename_i same
      have others : ∀ f ∈ table, (if f.1 == k then (f.1, v) else f) = f := by
        intro f hf
        refine if_neg fun also => apart f hf ?_
        exact (agree.mp same).trans ((same_iff_equalKeys (keys f hf) hashable).mp also).symm
      rw [List.map_congr_left others, List.map_id']
    · rename_i other
      refine congrArg (d :: ·) (ih keys distinct ?_)
      obtain ⟨f, hf, same⟩ := present
      rcases List.mem_cons.mp hf with rfl | hf
      · exact absurd (agree.mpr same) other
      · exact ⟨f, hf, same⟩

theorem Collects.insert (h : Collects entries table places)
    (keys : ∀ d ∈ entries, d.1.hashable = true) {e : Native × Native}
    (hashable : e.1.hashable = true) :
    ∃ next, Collects (entries ++ [e]) (table.insert e.1 e.2) next := by
  by_cases present : ∃ f ∈ table, EqualKeys f.1 e.1
  · rw [insert_present e.2 hashable (h.hashable keys) h.distinct present]
    exact ⟨places, h.replace keys hashable present⟩
  · have absent : ∀ f ∈ table, (f.1 == e.1) = false := by
      intro f hf
      have agree := same_iff_equalKeys (h.hashable keys f hf) hashable
      exact Bool.eq_false_iff.mpr fun same => present ⟨f, hf, agree.mp same⟩
    rw [Ordered.insert_absent e.2 absent]
    exact ⟨_, h.add present⟩

/-- Whatever is inserted one after the other is collected. -/
theorem collects_ofList {entries : List (Native × Native)}
    (keys : ∀ d ∈ entries, d.1.hashable = true) :
    ∃ places, Collects entries (Ordered.ofList entries) places := by
  induction entries using List.reverseRecOn with
  | nil => exact ⟨[], .nil, by simp, .nil⟩
  | append_singleton entries e ih =>
    obtain ⟨before, last⟩ := List.forall_mem_append.mp keys
    obtain ⟨places, collected⟩ := ih before
    rw [Ordered.ofList, List.foldl_append]
    exact collected.insert before (last e (List.mem_singleton_self e))

end Native

namespace Tagged

open Native (EqualKeys Together Collects)

/-- The key that a tagged one stands for: its bare value, or the canonical text of that where it
has parts. -/
inductive KeyOf : Tagged → Native → Prop
  | bare (single : k.isComposite = false) (unwrapped : k.unwrap = .ok bare) : KeyOf k bare
  | text (composite : k.isComposite = true) (written : k.keyText = .ok s) : KeyOf k (.text s)

theorem nativeKey_keyOf {k : Tagged} {bare key : Native} (unwrapped : k.unwrap = .ok bare)
    (keyed : k.nativeKey bare = .ok key) : k.KeyOf key := by
  unfold nativeKey at keyed
  split at keyed
  · rename_i composite
    obtain ⟨text, written, he⟩ := Attempt.bind_ok.mp keyed
    cases he
    exact .text composite (Attempt.bind_ok.mpr ⟨bare, unwrapped, written⟩)
  · rename_i single
    cases keyed
    exact .bare (by simpa using single) unwrapped

theorem KeyOf.of_text {s : String} {key : Native} (h : (Tagged.text s).KeyOf key) :
    key = .text s := by
  cases h with
  | bare _ unwrapped =>
    cases unwrapped
    rfl
  | text composite => cases composite

theorem KeyOf.of_composite {k : Tagged} {key : Native} {s : String} (h : k.KeyOf key)
    (composite : k.isComposite = true) (written : k.keyText = .ok s) : key = .text s := by
  cases h with
  | bare single =>
    rw [composite] at single
    cases single
  | text _ same =>
    rw [written] at same
    cases same
    rfl

/-- The entry that a pair stands for. -/
def StandsForEntry (pair : Tagged × Tagged) (entry : Native × Native) : Prop :=
  pair.1.KeyOf entry.1 ∧ pair.2.unwrap = .ok entry.2

theorem Enters.standsForEntry {pair : Tagged × Tagged} {entry : Native × Native}
    (h : Enters pair entry) : StandsForEntry pair entry := by
  obtain ⟨bare, unwrapped, keyed, _, value⟩ := h
  exact ⟨nativeKey_keyOf unwrapped keyed, value⟩

theorem forall₂_at {α β : Type} {R : α → β → Prop} {xs : List α} {ys : List β}
    (h : List.Forall₂ R xs ys) {i : Nat} {x : α} (hx : xs[i]? = some x) :
    ∃ y, ys[i]? = some y ∧ R x y := by
  induction h generalizing i with
  | nil => simp at hx
  | @cons a b _ _ first _ ih =>
    cases i with
    | zero =>
      cases hx
      exact ⟨b, rfl, first⟩
    | succ i => exact ih hx

/-- A text is one key with those keys with parts that have it as their canonical text. -/
theorem text_together {pairs : List (Tagged × Tagged)} {entries : List (Native × Native)}
    (related : List.Forall₂ StandsForEntry pairs entries) {i j : Nat} {p q : Tagged × Tagged}
    {s : String} (hi : pairs[i]? = some p) (hj : pairs[j]? = some q) (text : p.1 = Tagged.text s)
    (composite : q.1.isComposite = true) (written : q.1.keyText = .ok s) :
    Together entries i j := by
  obtain ⟨d, hd, first, _⟩ := forall₂_at related hi
  obtain ⟨e, he, second, _⟩ := forall₂_at related hj
  rw [text] at first
  exact ⟨d, e, hd, he, .inr (first.of_text ▸ second.of_composite composite written ▸ .text s)⟩

/-- What an object becomes: a table without equal keys, with one entry for each key that its pairs
stand for. The entries stand in the order in which their keys were first met, under the very key of
that first pair, and have the values of the last pairs. A text is one key with those keys with parts
that have it as their canonical text. -/
theorem object_collected {pairs : List (Tagged × Tagged)} {v : Native}
    (h : (object pairs).unwrap = .ok v) :
    ∃ entries table places, v = .table table ∧ List.Forall₂ StandsForEntry pairs entries ∧
      table.Pairwise (fun d e => ¬ EqualKeys d.1 e.1) ∧ Collects entries table places ∧
      ∀ (i j : Nat) (p q : Tagged × Tagged) (s : String), pairs[i]? = some p →
        pairs[j]? = some q → p.1 = Tagged.text s → q.1.isComposite = true →
          q.1.keyText = .ok s → Together entries i j := by
  obtain ⟨table, unwrapped, he⟩ := Attempt.bind_ok.mp h
  cases he
  obtain ⟨entries, entered, rfl⟩ := unwrapPairs_entries unwrapped
  have related := entered.imp fun _ _ enters => enters.standsForEntry
  have keys : ∀ e ∈ entries, e.1.hashable = true := by
    refine Native.forall_of_forall₂ entered fun pair _ entry enters => ?_
    obtain ⟨_, _, _, hashable, _⟩ := enters
    exact hashable
  obtain ⟨places, collected⟩ := Native.collects_ofList keys
  exact ⟨entries, _, places, rfl, related, collected.distinct, collected,
    fun _ _ _ _ _ => text_together related⟩

/-- Zero is one key however it is held, and a list is one key with its text. The NaN of JSON texts
is one key wherever it is met, and another NaN is a key of its own. -/
theorem zeros_collected :
    let pairs : List (Tagged × Tagged) :=
      [(.scalar .integer (.int 0), .text "a"),
        (.array [.scalar .boolean (.bool false)], .text "b"),
        (.scalar .boolean (.bool false), .text "c"), (.text "[false]", .text "d"),
        (.scalar .float (.float (.nan .json)), .text "e"),
        (.scalar .float (.float (.nan .coerced)), .text "f"),
        (.scalar .float (.float (.nan .json)), .text "h"),
        (.scalar .float (.float (.zero true)), .text "g")]
    let table : Ordered Native Native :=
      [(.int 0, .text "g"), (.text "[false]", .text "d"), (.float (.nan .json), .text "h"),
        (.float (.nan .coerced), .text "f")]
    (object pairs).unwrap = .ok (.table table) ∧
      table.Pairwise (fun d e => ¬ EqualKeys d.1 e.1) ∧
      ∃ entries places, Collects entries table places ∧ Together entries 3 1 := by
  intro pairs table
  have zeros : (Native.int 0 == .float (.zero true)) = true := by
    have nothing : (Native.int 0).exactUnits? = some 0 := congrArg some (Int.zero_mul _)
    exact (Native.same_number nothing _).mpr rfl
  let before : Ordered Native Native := (.int 0, .text "c") :: table.tail
  have entered : (object pairs).unwrap =
      .ok (.table (before.insert (.float (.zero true)) (.text "g"))) := by rfl
  have unwrapped : (object pairs).unwrap = .ok (.table table) := by
    rw [entered, Ordered.insert, if_pos zeros]
    rfl
  obtain ⟨entries, _, places, he, _, distinct, collected, together⟩ := object_collected unwrapped
  cases he
  exact ⟨unwrapped, distinct, entries, places, collected,
    together 3 1 _ _ "[false]" rfl rfl rfl rfl (by rfl)⟩

/-- Two pairs of a JSON text whose keys are NaN are one entry, as the text is read with one NaN. -/
theorem nan_keys_shared :
    let nan := Tagged.scalar .float (.float (.nan .json))
    let pairs := [(nan, .scalar .integer (.int 1)), (nan, .scalar .integer (.int 2))]
    Json.read ("\x7b\"Object\": [[\x7b\"Float\": NaN\x7d, \x7b\"Integer\": 1\x7d], " ++
        "[\x7b\"Float\": NaN\x7d, \x7b\"Integer\": 2\x7d]]\x7d") = .ok (object pairs).toWire ∧
      ofWire (object pairs).toWire = .ok (object pairs) ∧
      (object pairs).unwrap = .ok (.table [(.float (.nan .json), .int 2)]) := by
  exact ⟨by cbv, by rfl, by rfl⟩

end Tagged

end HostBridge
