import HostBridge.Tagged

namespace HostBridge

namespace ScalarTag

theorem ofName?_name (t : ScalarTag) : ofName? t.name = some t := by
  cases t <;> decide

theorem name_of_ofName? {s : String} {t : ScalarTag} (h : ofName? s = some t) : t.name = s := by
  have found := List.find?_some h
  simpa using found

end ScalarTag

namespace Native

mutual

/-- A wire value in which lists hold the parts of arrays and objects, and each pair of an object is
a list. The payload of a scalar is no part of the form and stays as it is. -/
def listed : Native → Native
  | .table [(.text tag, inner)] =>
    .table [(.text tag,
      if tag = "Array" then match inner with
        | .list items | .tuple items => .list (listedItems items)
        | _ => inner
      else if tag = "Object" then match inner with
        | .list entries | .tuple entries => .list (listedPairs entries)
        | _ => inner
      else inner)]
  | w => w

def listedItems : List Native → List Native
  | [] => []
  | w :: ws => listed w :: listedItems ws

def listedPairs : List Native → List Native
  | [] => []
  | .list [k, v] :: es | .tuple [k, v] :: es => .list [listed k, listed v] :: listedPairs es
  | e :: es => e :: listedPairs es

end

theorem listed_scalar (tag : ScalarTag) (payload : Native) :
    listed (.table [(.text tag.name, payload)]) = .table [(.text tag.name, payload)] := by
  have array : tag.name ≠ "Array" := by cases tag <;> decide
  have object : tag.name ≠ "Object" := by cases tag <;> decide
  cases payload <;> simp only [listed, array, object, ↓reduceIte]

theorem listed_array {inner : Native} {items : List Native}
    (h : inner.sequence? = some items) :
    listed (.table [(.text "Array", inner)]) =
      .table [(.text "Array", .list (listedItems items))] := by
  cases inner with
  | list xs | tuple xs =>
    cases h
    simp [listed]
  | _ => cases h

theorem listed_object {inner : Native} {entries : List Native}
    (h : inner.sequence? = some entries) :
    listed (.table [(.text "Object", inner)]) =
      .table [(.text "Object", .list (listedPairs entries))] := by
  cases inner with
  | list xs | tuple xs =>
    cases h
    simp [listed]
  | _ => cases h

theorem listedPairs_cons {e k v : Native} (h : e.sequence? = some [k, v]) (es : List Native) :
    listedPairs (e :: es) = .list [listed k, listed v] :: listedPairs es := by
  cases e with
  | list xs | tuple xs =>
    cases h
    simp [listedPairs]
  | _ => cases h

theorem sizeOf_sequence {v : Native} {items : List Native} (h : v.sequence? = some items) :
    sizeOf items < sizeOf v := by
  cases v with
  | list xs | tuple xs =>
    cases h
    simp
  | _ => cases h

theorem sizeOf_payload {inner : Native} {items : List Native}
    (h : inner.sequence? = some items) (tag : Native) :
    sizeOf items < sizeOf (table [(tag, inner)]) := by
  have smaller := sizeOf_sequence h
  simp
  omega

theorem sizeOf_pair {e k v : Native} (h : e.sequence? = some [k, v]) :
    sizeOf k < sizeOf e ∧ sizeOf v < sizeOf e := by
  have smaller := sizeOf_sequence h
  simp at smaller
  omega

end Native

namespace Tagged

theorem itemsOfWire_itemsToWire {ts : List Tagged} (h : ∀ t ∈ ts, ofWire t.toWire = .ok t) :
    itemsOfWire (itemsToWire ts) = .ok ts := by
  induction ts with
  | nil => rfl
  | cons t ts ih =>
    obtain ⟨ht, hts⟩ := List.forall_mem_cons.mp h
    simp [itemsToWire, itemsOfWire, ht, ih hts]

theorem pairsOfWire_pairsToWire (payload : Native) {ps : List (Tagged × Tagged)}
    (h : ∀ e ∈ ps, ofWire e.1.toWire = .ok e.1 ∧ ofWire e.2.toWire = .ok e.2) :
    pairsOfWire payload (pairsToWire ps) = .ok ps := by
  induction ps with
  | nil => rfl
  | cons e ps ih =>
    obtain ⟨⟨hk, hv⟩, hps⟩ := List.forall_mem_cons.mp h
    simp [pairsToWire, pairsOfWire, hk, hv, ih hps]

/-- What was written is read back, whatever payloads and keys it has. -/
theorem ofWire_toWire (t : Tagged) : ofWire t.toWire = .ok t := by
  induction t with
  | scalar tag payload => simp [toWire, ofWire, ScalarTag.ofName?_name]
  | array items ih =>
    have other : ScalarTag.ofName? "Array" = none := by decide
    simp [toWire, ofWire, other, itemsOfWire_itemsToWire ih]
  | object pairs ih =>
    have other : ScalarTag.ofName? "Object" = none := by decide
    simp [toWire, ofWire, other, pairsOfWire_pairsToWire _ ih]

/-- A wire value that is read holds a scalar, an array or an object, and says which by its tag. -/
theorem ofWire_cases {w : Native} {t : Tagged} (h : ofWire w = .ok t) :
    (∃ tag payload, w = .table [(.text (ScalarTag.name tag), payload)] ∧
      t = .scalar tag payload) ∨
    (∃ inner items ts, w = .table [(.text "Array", inner)] ∧
      inner.sequence? = some items ∧ itemsOfWire items = .ok ts ∧ t = .array ts) ∨
    (∃ inner entries ps, w = .table [(.text "Object", inner)] ∧
      inner.sequence? = some entries ∧ pairsOfWire w entries = .ok ps ∧ t = .object ps) := by
  unfold ofWire at h
  split at h
  · rename_i tag inner
    split at h
    · rename_i scalar named
      cases h
      exact .inl ⟨scalar, inner, by rw [ScalarTag.name_of_ofName? named], rfl⟩
    · dsimp only at h
      split at h
      · rename_i array
        subst array
        refine .inr (.inl ?_)
        cases inner with
        | list items | tuple items =>
          obtain ⟨ts, read, he⟩ := Attempt.bind_ok.mp h
          cases he
          exact ⟨_, items, ts, rfl, rfl, read, rfl⟩
        | _ => cases h
      · split at h
        · rename_i object
          subst object
          refine .inr (.inr ?_)
          cases inner with
          | list entries | tuple entries =>
            obtain ⟨ps, read, he⟩ := Attempt.bind_ok.mp h
            cases he
            exact ⟨_, entries, ps, rfl, rfl, read, rfl⟩
          | _ => cases h
        · cases h
  all_goals cases h

/-- The first entry of an object is read from a pair, in a list or a tuple. -/
theorem pairsOfWire_cons {payload e : Native} {es : List Native} {ps : List (Tagged × Tagged)}
    (h : pairsOfWire payload (e :: es) = .ok ps) :
    ∃ k v key value rest, e.sequence? = some [k, v] ∧ ofWire k = .ok key ∧ ofWire v = .ok value ∧
      pairsOfWire payload es = .ok rest ∧ ps = (key, value) :: rest := by
  unfold pairsOfWire at h
  split at h
  case h_1 none => cases none
  case h_4 => cases h
  all_goals
    rename_i same
    cases same
    simp only [Attempt.bind_ok] at h
    obtain ⟨key, hk, value, hv, rest, hr, he⟩ := h
    cases he
    exact ⟨_, _, key, value, rest, rfl, hk, hv, hr, rfl⟩

mutual

/-- What was read is written as it was, but with lists for its parts. -/
theorem toWire_ofWire {w : Native} {t : Tagged} (h : ofWire w = .ok t) : t.toWire = w.listed := by
  rcases ofWire_cases h with ⟨tag, payload, hw, rfl⟩ | ⟨inner, items, ts, hw, found, read, rfl⟩ |
    ⟨inner, entries, ps, hw, found, read, rfl⟩
  · rw [hw, toWire, Native.listed_scalar]
  · have smaller : sizeOf items < sizeOf w := hw ▸ Native.sizeOf_payload found _
    rw [hw, toWire, Native.listed_array found, itemsToWire_itemsOfWire read]
  · have smaller : sizeOf entries < sizeOf w := hw ▸ Native.sizeOf_payload found _
    rw [hw, toWire, Native.listed_object found, pairsToWire_pairsOfWire read]
termination_by sizeOf w

theorem itemsToWire_itemsOfWire {ws : List Native} {ts : List Tagged}
    (h : itemsOfWire ws = .ok ts) : itemsToWire ts = Native.listedItems ws := by
  match ws with
  | [] =>
    cases h
    rfl
  | w :: ws =>
    simp only [itemsOfWire, Attempt.bind_ok] at h
    obtain ⟨t, ht, rest, hr, he⟩ := h
    cases he
    rw [itemsToWire, Native.listedItems, toWire_ofWire ht, itemsToWire_itemsOfWire hr]
termination_by sizeOf ws

theorem pairsToWire_pairsOfWire {payload : Native} {es : List Native}
    {ps : List (Tagged × Tagged)} (h : pairsOfWire payload es = .ok ps) :
    pairsToWire ps = Native.listedPairs es := by
  match es with
  | [] =>
    cases h
    rfl
  | e :: es =>
    obtain ⟨k, v, key, value, rest, pair, hk, hv, hr, rfl⟩ := pairsOfWire_cons h
    obtain ⟨smallerKey, smallerValue⟩ := Native.sizeOf_pair pair
    rw [pairsToWire, Native.listedPairs_cons pair, toWire_ofWire hk, toWire_ofWire hv,
      pairsToWire_pairsOfWire hr]
termination_by sizeOf es

end

/-- The wire codec. Every tagged value is read back from its wire form. A wire value that is read
is written with lists for the tuples that held its parts and nothing else changed, and from there
reading and writing change it no more. -/
theorem wire_round_trip :
    (∀ t : Tagged, ofWire t.toWire = .ok t) ∧
    ∀ (w : Native) (t : Tagged), ofWire w = .ok t →
      t.toWire = w.listed ∧ ofWire w.listed = .ok t ∧
        (ofWire w.listed).map toWire = .ok w.listed := by
  refine ⟨ofWire_toWire, fun w t h => ?_⟩
  have written := toWire_ofWire h
  have again : ofWire w.listed = .ok t := by rw [← written, ofWire_toWire]
  exact ⟨written, again, by rw [again, ← written]; rfl⟩

/-- Tuples hold the pairs of an object, one pair and the items of its key. The tuple that is the
payload of a scalar stays one. -/
theorem tuples_listed :
    let key := Native.table [(.text "Array", .tuple [.table [(.text "Integer", .tuple [.int 1])]])]
    let value := Native.table [(.text "Float", .float (.nan .fresh))]
    let w := Native.table [(.text "Object", .tuple [.tuple [key, value], .list [value, key]])]
    let t := Tagged.object
      [(.array [.scalar .integer (.tuple [.int 1])], .scalar .float (.float (.nan .fresh))),
        (.scalar .float (.float (.nan .fresh)), .array [.scalar .integer (.tuple [.int 1])])]
    ofWire w = .ok t ∧ t.toWire = w.listed ∧
      w.listed =
        let key := Native.table
          [(.text "Array", .list [.table [(.text "Integer", .tuple [.int 1])]])]
        .table [(.text "Object", .list [.list [key, value], .list [value, key]])] := by
  intro key value w t
  have read : ofWire w = .ok t := by rfl
  obtain ⟨written, _, _⟩ := wire_round_trip.2 w t read
  exact ⟨read, written, by rfl⟩

end Tagged

end HostBridge
