import HostBridge.Proofs.ArgumentDecoding
import HostBridge.Proofs.CanonicalImage

namespace HostBridge

/-- The failures that the bridge itself reports for arguments. -/
def Failure.OfArguments : Failure → Prop
  | .missingArgument _ _ _ | .wrongKind _ _ _ | .malformed _ _ => True
  | _ => False

namespace Tagged

/-- The whole numbers in all payloads keep to the digit limit. -/
def Short (t : Tagged) : Prop :=
  t.Everywhere fun
    | .scalar _ payload => payload.Short
    | _ => True

/-- The payloads of an object's keys can be keys. -/
def HashableKeys : Tagged → Prop
  | .object pairs => ∀ e ∈ pairs, ∀ payload, e.1.payload? = some payload → payload.hashable = true
  | _ => True

theorem itemsOfWire_related {ws : List Native} {ts : List Tagged}
    (h : itemsOfWire ws = .ok ts) : List.Forall₂ (fun w t => ofWire w = .ok t) ws ts := by
  induction ws generalizing ts with
  | nil =>
    cases h
    exact .nil
  | cons w ws ih =>
    obtain ⟨t, read, h⟩ := Attempt.bind_ok.mp h
    obtain ⟨rest, others, he⟩ := Attempt.bind_ok.mp h
    cases he
    exact .cons read (ih others)

theorem pairsOfWire_related {payload : Native} {es : List Native} {ps : List (Tagged × Tagged)}
    (h : pairsOfWire payload es = .ok ps) :
    List.Forall₂ (fun e p => ∃ k v, e.sequence? = some [k, v] ∧ ofWire k = .ok p.1 ∧
      ofWire v = .ok p.2) es ps := by
  induction es generalizing ps with
  | nil =>
    cases h
    exact .nil
  | cons e es ih =>
    obtain ⟨k, v, key, value, rest, pair, hk, hv, others, rfl⟩ := pairsOfWire_cons h
    exact .cons ⟨k, v, pair, hk, hv⟩ (ih others)

/-- The values that a short sequence in a short table holds are short. -/
theorem short_parts {tag inner : Native} {ws : List Native}
    (short : (Native.table [(tag, inner)]).Short) (held : inner.sequence? = some ws) :
    ∀ w ∈ ws, w.Short := by
  intro w hw
  refine (short.entry (List.mem_singleton_self _)).2.inside ?_
  rwa [Native.components_sequence held]

theorem ofWire_short {w : Native} {t : Tagged} (short : w.Short) (h : ofWire w = .ok t) :
    t.Short := by
  induction t generalizing w with
  | scalar tag payload =>
    rcases ofWire_cases h with ⟨_, _, rfl, same⟩ | ⟨_, _, _, _, _, _, same⟩ |
      ⟨_, _, _, _, _, _, same⟩ <;> cases same
    exact .scalar (short.entry (List.mem_singleton_self _)).2
  | array items ih =>
    rcases ofWire_cases h with ⟨_, _, _, same⟩ | ⟨inner, ws, ts, rfl, held, read, same⟩ |
      ⟨_, _, _, _, _, _, same⟩ <;> cases same
    have origin : ∀ t ∈ items, ∃ w ∈ ws, ofWire w = .ok t :=
      Native.forall_of_forall₂ (itemsOfWire_related read) fun w hw t read => ⟨w, hw, read⟩
    refine .array trivial fun t ht => ?_
    obtain ⟨u, hu, read⟩ := origin t ht
    exact ih t ht (short_parts short held u hu) read
  | object pairs ih =>
    rcases ofWire_cases h with ⟨_, _, _, same⟩ | ⟨_, _, _, _, _, _, same⟩ |
      ⟨inner, es, ps, rfl, held, read, same⟩ <;> cases same
    have origin : ∀ p ∈ pairs, ∃ k v, k.Short ∧ v.Short ∧ ofWire k = .ok p.1 ∧
        ofWire v = .ok p.2 := by
      refine Native.forall_of_forall₂ (pairsOfWire_related read) ?_
      rintro e he p ⟨k, v, pair, key, value⟩
      obtain ⟨first, second⟩ := (short_parts short held e he).pair pair
      exact ⟨k, v, first, second, key, value⟩
    refine .object trivial (fun p hp => ?_) fun p hp => ?_
    · obtain ⟨k, _, hk, _, read, _⟩ := origin p hp
      exact (ih p hp).1 hk read
    · obtain ⟨_, v, _, hv, _, read⟩ := origin p hp
      exact (ih p hp).2 hv read

theorem unwrapItems_related {ts : List Tagged} {vs : List Native}
    (h : unwrapItems ts = .ok vs) : List.Forall₂ (fun t v => t.unwrap = .ok v) ts vs := by
  induction ts generalizing vs with
  | nil =>
    cases h
    exact .nil
  | cons t ts ih =>
    obtain ⟨v, first, h⟩ := Attempt.bind_ok.mp h
    obtain ⟨rest, later, he⟩ := Attempt.bind_ok.mp h
    cases he
    exact .cons first (ih later)

theorem nativeKey_short {k : Tagged} {bare key : Native} (short : bare.Short)
    (h : k.nativeKey bare = .ok key) : key.Short := by
  unfold nativeKey at h
  split at h
  · obtain ⟨text, _, he⟩ := Attempt.bind_ok.mp h
    cases he
    exact .leaf trivial rfl
  · cases h
    exact short

theorem unwrap_short {t : Tagged} (short : t.Short) {v : Native} (h : t.unwrap = .ok v) :
    v.Short := by
  induction t generalizing v with
  | scalar tag payload =>
    cases short with | scalar here => ?_
    cases h
    exact here
  | array items ih =>
    cases short with | array _ parts => ?_
    obtain ⟨vs, unwrapped, he⟩ := Attempt.bind_ok.mp h
    cases he
    exact .node trivial (Native.forall_of_forall₂ (unwrapItems_related unwrapped)
      fun t ht v => ih t ht (parts t ht))
  | object pairs ih =>
    cases short with | object _ keys values => ?_
    obtain ⟨table, unwrapped, he⟩ := Attempt.bind_ok.mp h
    cases he
    obtain ⟨entries, related, rfl⟩ := unwrapPairs_entries unwrapped
    have each : ∀ e ∈ entries, e.1.Short ∧ e.2.Short := by
      refine Native.forall_of_forall₂ related ?_
      rintro d hd e ⟨bare, single, keyed, _, found⟩
      exact ⟨nativeKey_short ((ih d hd).1 (keys d hd) single) keyed,
        (ih d hd).2 (values d hd) found⟩
    have all := Ordered.forall_ofList each
    exact .ofEntries trivial (fun e he => (all e he).1) fun e he => (all e he).2

/-- An entry can be made for a key unless it is the payload of a scalar and cannot be a key. -/
theorem nativeKey_hashable_iff {k : Tagged} {bare key : Native} (unwrapped : k.unwrap = .ok bare)
    (keyed : k.nativeKey bare = .ok key) :
    key.hashable = true ↔ ∀ payload, k.payload? = some payload → payload.hashable = true := by
  cases k with
  | scalar tag content =>
    cases unwrapped
    cases keyed
    simp only [payload?_scalar, Option.some.injEq, forall_eq']
  | array | object =>
    obtain ⟨text, _, he⟩ := Attempt.bind_ok.mp keyed
    cases he
    exact ⟨fun _ => nofun, fun _ => rfl⟩

/-- What has a native form has keys that can be keys. -/
theorem hashableKeys_of_unwrap {t : Tagged} {v : Native} (h : t.unwrap = .ok v) :
    t.Everywhere HashableKeys := by
  induction t generalizing v with
  | scalar tag payload => exact .scalar trivial
  | array items ih =>
    obtain ⟨vs, unwrapped, _⟩ := Attempt.bind_ok.mp h
    have each : ∀ t ∈ items, ∃ v, t.unwrap = .ok v :=
      Native.forall_of_forall₂ (unwrapItems_related unwrapped).flip fun v _ t part => ⟨v, part⟩
    refine .array trivial fun t ht => ?_
    obtain ⟨v, part⟩ := each t ht
    exact ih t ht part
  | object pairs ih =>
    obtain ⟨entries, unwrapped, _⟩ := Attempt.bind_ok.mp h
    obtain ⟨_, related, _⟩ := unwrapPairs_entries unwrapped
    have each : ∀ d ∈ pairs, ∃ e, Enters d e :=
      Native.forall_of_forall₂ related.flip fun e _ d entered => ⟨e, entered⟩
    refine .object (fun d hd => ?_) (fun d hd => ?_) fun d hd => ?_
    · obtain ⟨_, _, single, keyed, hashable, _⟩ := each d hd
      exact (nativeKey_hashable_iff single keyed).mp hashable
    · obtain ⟨_, _, single, _⟩ := each d hd
      exact (ih d hd).1 single
    · obtain ⟨_, _, _, _, _, found⟩ := each d hd
      exact (ih d hd).2 found

/-- A short value has a native form, unless a key in it cannot be one. -/
theorem unwrap_error_short {t : Tagged} (short : t.Short) {e : Failure}
    (h : t.unwrap = .error e) : e = .unhashableKey ∧ ¬ t.Everywhere HashableKeys := by
  induction t with
  | scalar tag payload => cases h
  | array items ih =>
    cases short with | array _ parts => ?_
    obtain ⟨u, hu, failed⟩ := unwrapItems_error (Attempt.bind_pure_error.mp h)
    obtain ⟨cause, unfit⟩ := ih u hu (parts u hu) failed
    refine ⟨cause, fun fit => ?_⟩
    cases fit with | array _ fit => exact unfit (fit u hu)
  | object pairs ih =>
    cases short with | object _ keys values => ?_
    obtain ⟨d, hd, failed⟩ := unwrapPairs_error (Attempt.bind_pure_error.mp h)
    rcases failed with failed | failed | ⟨bare, unwrapped, unnamed | ⟨key, keyed, unhashable, rfl⟩⟩
    · obtain ⟨cause, unfit⟩ := (ih d hd).1 (keys d hd) failed
      refine ⟨cause, fun fit => ?_⟩
      cases fit with | object _ fit _ => exact unfit (fit d hd)
    · obtain ⟨cause, unfit⟩ := (ih d hd).2 (values d hd) failed
      refine ⟨cause, fun fit => ?_⟩
      cases fit with | object _ _ fit => exact unfit (fit d hd)
    · obtain ⟨text, written⟩ :=
        (Native.rendered (unwrap_short (keys d hd) unwrapped)).canonicalText
      simp only [nativeKey, (nativeKey_error unnamed).1, written] at unnamed
      cases unnamed
    · refine ⟨rfl, fun fit => ?_⟩
      cases fit with | object fit _ _ => ?_
      rw [(nativeKey_hashable_iff unwrapped keyed).mpr (fit d hd)] at unhashable
      cases unhashable

end Tagged

namespace Incoming

/-- The whole numbers in an argument keep to the digit limit. -/
def Short : Incoming → Prop
  | .wire w => w.Short
  | .tagged t => t.Short

/-- An argument is well formed, and so are the keys in it. -/
def Sound (a : Incoming) : Prop :=
  ∃ t, a.toTagged = .ok t ∧ t.Everywhere Tagged.HashableKeys

/-- An argument is well formed, but a key in it cannot be one. -/
def BadlyKeyed (a : Incoming) : Prop :=
  ∃ t, a.toTagged = .ok t ∧ ¬ t.Everywhere Tagged.HashableKeys

theorem BadlyKeyed.not_sound {a : Incoming} (badly : a.BadlyKeyed) : ¬ a.Sound := by
  rintro ⟨t, read, fit⟩
  obtain ⟨u, again, unfit⟩ := badly
  rw [read] at again
  cases again
  exact unfit fit

theorem toTagged_short {a : Incoming} (short : a.Short) {t : Tagged} (h : a.toTagged = .ok t) :
    t.Short := by
  cases a with
  | wire w => exact Tagged.ofWire_short short h
  | tagged u =>
    cases h
    exact short

theorem toTagged_error {a : Incoming} (short : a.Short) {e : Failure}
    (h : a.toTagged = .error e) : e.OfArguments := by
  cases a with
  | tagged t => cases h
  | wire w =>
    rcases Tagged.wireValue_or_firstDefect w with sound | ⟨node, defect, here⟩
    · obtain ⟨t, read⟩ := Tagged.ofWire_wireValue sound
      rw [toTagged, read] at h
      cases h
    · obtain ⟨s, shown⟩ := Native.display_short (here.short short)
      rw [toTagged, Tagged.ofWire_firstDefect here, Failure.ofDefect, shown] at h
      cases h
      trivial

end Incoming

theorem coerce_short {v : Native} (short : v.Short) (kind : Kind) :
    ∃ c, v.coerce kind = .ok c := by
  cases kind with
  | string => exact ⟨_, Native.coerce_string_label short⟩
  | _ => exact ⟨_, rfl⟩

/-- What becomes of a short argument, whatever its parameter is. -/
theorem decodeAt_short (ps : List Parameter) (i : Nat) {a : Incoming} (short : a.Short) :
    (a.Sound ∧ ∃ v, decodeAt ps i a = .ok v) ∨
    (a.BadlyKeyed ∧ decodeAt ps i a = .error .unhashableKey) ∨
    ∃ e, a.toTagged = .error e ∧ decodeAt ps i a = .error e ∧ e.OfArguments := by
  have undecoded {e : Failure} (h : a.unwrap = .error e) : decodeAt ps i a = .error e := by
    unfold decodeAt
    split
    · rw [h, Attempt.error_bind]
    · exact h
  cases read : a.toTagged with
  | error e =>
    have unread : a.unwrap = .error e := Attempt.bind_error.mpr (.inl read)
    exact .inr (.inr ⟨e, rfl, undecoded unread, Incoming.toTagged_error short read⟩)
  | ok t =>
    have tshort := Incoming.toTagged_short short read
    cases bare : t.unwrap with
    | error e =>
      obtain ⟨rfl, unfit⟩ := Tagged.unwrap_error_short tshort bare
      have unread : a.unwrap = .error .unhashableKey :=
        Attempt.bind_error.mpr (.inr ⟨t, read, bare⟩)
      exact .inr (.inl ⟨⟨t, read, unfit⟩, undecoded unread⟩)
    | ok v =>
      refine .inl ⟨⟨t, read, Tagged.hashableKeys_of_unwrap bare⟩, ?_⟩
      have native : a.unwrap = .ok v := Attempt.bind_ok.mpr ⟨t, read, bare⟩
      unfold decodeAt
      split
      · rw [native, Attempt.ok_bind]
        exact coerce_short (Tagged.unwrap_short tshort bare) _
      · exact ⟨v, native⟩

/-- A short argument is decoded exactly when it is sound. -/
theorem decodeAt_ok_iff (ps : List Parameter) (i : Nat) {a : Incoming} (short : a.Short) :
    (∃ v, decodeAt ps i a = .ok v) ↔ a.Sound := by
  rcases decodeAt_short ps i short with ⟨sound, decoded⟩ | ⟨badly, failed⟩ | ⟨e, unread, failed, _⟩
  · exact iff_of_true decoded sound
  · exact iff_of_false (by simp [failed]) badly.not_sound
  · exact iff_of_false (by simp [failed]) (by simp [Incoming.Sound, unread])

/-- A key is at fault exactly where an argument is badly keyed. -/
theorem decodeAt_unhashable_iff (ps : List Parameter) (i : Nat) {a : Incoming}
    (short : a.Short) : decodeAt ps i a = .error .unhashableKey ↔ a.BadlyKeyed := by
  rcases decodeAt_short ps i short with ⟨sound, v, decoded⟩ | ⟨badly, failed⟩ |
    ⟨e, unread, failed, own⟩
  · exact iff_of_false (by simp [decoded]) fun badly => badly.not_sound sound
  · exact iff_of_true failed badly
  · refine iff_of_false ?_ (by simp [Incoming.BadlyKeyed, unread])
    rw [failed]
    rintro ⟨⟩
    exact own

theorem decodeAt_error {ps : List Parameter} {i : Nat} {a : Incoming} {e : Failure}
    (short : a.Short) (h : decodeAt ps i a = .error e) : e.OfArguments ∨ e = .unhashableKey := by
  rcases decodeAt_short ps i short with ⟨_, v, decoded⟩ | ⟨_, failed⟩ | ⟨f, _, failed, own⟩
  · rw [decoded] at h
    cases h
  · rw [failed] at h
    cases h
    exact .inr rfl
  · rw [failed] at h
    cases h
    exact .inl own

theorem decodeArguments_error {b : Binding} {args : List Incoming} {e : Failure}
    (short : ∀ a ∈ args, a.Short) (h : b.decodeArguments args = .error e) :
    e.OfArguments ∨ e = .unhashableKey := by
  cases decodes_iff.mpr h with
  | missing | refused => exact .inl trivial
  | failed _ _ here =>
    obtain ⟨a, ha, fails⟩ := here
    exact decodeAt_error (short a (List.mem_of_getElem? ha)) fails

/-- Arguments without too long numbers are decoded or refused with one of the bridge's own failures.
The only other failure is that of a key that no table can have, and it is met exactly where the
first argument that is not decoded is well formed but for such keys. -/
theorem refusals_of_arguments (b : Binding) {args : List Incoming}
    (short : ∀ a ∈ args, a.Short) :
    ((∃ vs, b.decodeArguments args = .ok vs) ∨
      ∃ e, b.decodeArguments args = .error e ∧ (e.OfArguments ∨ e = .unhashableKey)) ∧
    (b.decodeArguments args = .error .unhashableKey ↔
      b.required ≤ args.length ∧ (∀ j, ¬ RefusedAt b.parameters args j) ∧
        ∃ (i : Nat) (a : Incoming), args[i]? = some a ∧ a.BadlyKeyed ∧
          ∀ j < i, ∀ c, args[j]? = some c → c.Sound) := by
  have shortAt {i : Nat} {a : Incoming} (ha : args[i]? = some a) : a.Short :=
    short a (List.mem_of_getElem? ha)
  refine ⟨?_, ?_, ?_⟩
  · cases decoded : b.decodeArguments args with
    | ok vs => exact .inl ⟨vs, rfl⟩
    | error e => exact .inr ⟨e, rfl, decodeArguments_error short decoded⟩
  · intro h
    cases decodes_iff.mpr h with
    | failed enough accepted here earlier => ?_
    obtain ⟨a, ha, fails⟩ := here
    refine ⟨enough, accepted, _, a, ha, (decodeAt_unhashable_iff _ _ (shortAt ha)).mp fails, ?_⟩
    intro j hj c hc
    refine (decodeAt_ok_iff b.parameters j (shortAt hc)).mp ?_
    cases decoded : decodeAt b.parameters j c with
    | ok v => exact ⟨v, rfl⟩
    | error f => exact absurd ⟨c, hc, decoded⟩ (earlier j hj f)
  · rintro ⟨enough, accepted, i, a, ha, badly, earlier⟩
    have here : FailsAt b.parameters args i .unhashableKey :=
      ⟨a, ha, (decodeAt_unhashable_iff _ _ (shortAt ha)).mpr badly⟩
    refine (Decodes.failed enough accepted here fun j hj f fails => ?_).eq
    obtain ⟨c, hc, undecoded⟩ := fails
    obtain ⟨v, decoded⟩ := (decodeAt_ok_iff _ _ (shortAt hc)).mpr (earlier j hj c hc)
    rw [decoded] at undecoded
    cases undecoded

/-- A function with one parameter. -/
private def taking (kind : Kind) : Binding :=
  { Binding.function "f" (.ofFunction fun _ => .ok .null) .any none with
    parameters := [⟨kind, false⟩] }

/-- An object whose key is tagged as a string but is a list. -/
private def keyedByList : Native :=
  .table [(.text "Object", .list [.list
    [.table [(.text "String", .list [.int 1])], .table [(.text "Integer", .int 1)]]])]

/-- The second argument has no parameter; its key is found to be a list all the same. -/
theorem refusals_of_arguments_keyed :
    let args := [.wire (.table [(.text "Boolean", .null)]), .wire keyedByList]
    (∀ a ∈ args, a.Short) ∧
      (taking .string).decodeArguments args = .error .unhashableKey ∧
      ∃ (i : Nat) (a : Incoming), args[i]? = some a ∧ a.BadlyKeyed ∧
        ∀ j < i, ∀ c, args[j]? = some c → c.Sound := by
  intro args
  have keyed : keyedByList.Short := by
    repeat' first
      | exact List.forall_mem_nil _
      | exact Native.short_int (by decide)
      | refine List.forall_mem_cons.mpr ⟨?_, ?_⟩
      | refine .node trivial ?_
  have yes : (Native.table [(.text "Boolean", .null)]).Short :=
    .ofEntries trivial (List.forall_mem_singleton.mpr (.leaf trivial rfl))
      (List.forall_mem_singleton.mpr (.leaf trivial rfl))
  have short : ∀ a ∈ args, a.Short :=
    List.forall_mem_cons.mpr ⟨yes, List.forall_mem_singleton.mpr keyed⟩
  have undecoded : (taking .string).decodeArguments args = .error .unhashableKey := by rfl
  obtain ⟨_, _, first⟩ := (refusals_of_arguments (taking .string) short).2.mp undecoded
  exact ⟨short, undecoded, first⟩

/-- A list as a key, and a number over the digit limit for a string, are neither decoded nor refused
with a failure of the bridge's own. -/
theorem refused_otherwise :
    ((taking .any).decodeArguments [.wire keyedByList] = .error .unhashableKey ∧
      ¬ Failure.unhashableKey.OfArguments) ∧
    (taking .string).decodeArguments [.wire (.table [(.text "Integer", .int tooLarge)])] =
      .error .tooManyDigits ∧ ¬ Failure.tooManyDigits.OfArguments := by
  have untold : Json.intText tooLarge = .error .tooManyDigits := by
    unfold Json.intText decimalText?
    rw [Int.natAbs_natCast, if_neg (Nat.lt_irrefl _)]
  let long := Incoming.wire (.table [(.text "Integer", .int tooLarge)])
  have undecoded : decodeAt (taking .string).parameters 0 long = .error .tooManyDigits := by
    have bare : long.unwrap = .ok (.int tooLarge) := by rfl
    change (do (← long.unwrap).coerce .string) = _
    rw [bare, Attempt.ok_bind, Native.coerce, Native.toText, untold]
    rfl
  have accepted : ∀ j, ¬ RefusedAt (taking .string).parameters [long] j := by
    rintro (_ | j) ⟨p, a, hp, _, numeric, _⟩
    · cases hp
      simp at numeric
    · cases hp
  have earlier : ∀ j < 0, ∀ f, ¬ FailsAt (taking .string).parameters [long] j f :=
    fun j hj => absurd hj (Nat.not_lt_zero j)
  exact ⟨⟨by rfl, id⟩,
    (Decodes.failed (by decide) accepted ⟨long, rfl, undecoded⟩ earlier).eq, id⟩

end HostBridge
