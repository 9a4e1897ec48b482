import HostBridge.Proofs.ArgumentFailures

namespace HostBridge

namespace Native

/-- No key with parts holds a whole number over the digit limit. -/
def ShortKeys : Native → Prop
  | .table entries => ∀ e ∈ entries, e.1.isContainer = true → e.1.Short
  | _ => True

theorem toItems_shortKeys {v : Native} (h : v.Everywhere ShortKeys) :
    ∀ i ∈ v.toItems, i.Everywhere ShortKeys := by
  cases v with
  | list items | tuple items => exact fun i hi => h.inside hi
  | table entries => exact List.forall_mem_map.mpr fun e he => (h.entry he).2
  | _ => exact List.forall_mem_singleton.mpr h

theorem toEntries_shortKeys {v : Native} (h : v.Everywhere ShortKeys) :
    (table v.toEntries).Everywhere ShortKeys := by
  have numbered (items : List Native) (short : ∀ i ∈ items, i.Everywhere ShortKeys) :
      (table (numbered 0 items)).Everywhere ShortKeys := by
    have texts {e : Native × Native} (he : e ∈ numbered 0 items) : ∃ s, e.1 = .text s := by
      obtain ⟨⟨n, _, key⟩, _⟩ := numbered_mem he
      exact ⟨_, key⟩
    refine .ofEntries (fun e he composite => ?_) (fun e he => ?_) fun e he => ?_
    · obtain ⟨s, key⟩ := texts he
      rw [key] at composite
      cases composite
    · obtain ⟨s, key⟩ := texts he
      rw [key]
      exact .leaf trivial rfl
    · exact short e.2 (numbered_mem he).2
  have items := toItems_shortKeys h
  cases v with
  | table => exact h
  | _ => exact numbered _ items

theorem coerce_shortKeys {v c : Native} {kind : Kind} (h : v.Everywhere ShortKeys)
    (coerced : v.coerce kind = .ok c) : c.Everywhere ShortKeys := by
  rcases coerce_cases coerced with single | rfl | rfl | rfl
  · cases c with
    | list | tuple | table => cases single
    | _ => exact .leaf trivial rfl
  · exact .node trivial (toItems_shortKeys h)
  · exact toEntries_shortKeys h
  · exact h

theorem tag_isComposite (v : Native) : v.tag.isComposite = v.isContainer := by
  cases v with
  | float x => exact tagFloat_not_composite x
  | _ => rfl

/-- A tag holds the whole numbers of the value, and those that it makes of doubles. -/
theorem tag_short {v : Native} (short : v.Short) : v.tag.Short := by
  induction v with
  | float x =>
    rw [tag]
    rcases tagFloat_cases x with ⟨n, whole, he⟩ | ⟨_, he⟩ | he <;> rw [he]
    · exact .scalar (.leaf (Binary64.toInt_short whole) rfl)
    · exact .scalar (.leaf trivial rfl)
    · exact .scalar (.leaf trivial rfl)
  | list items ih | tuple items ih =>
    rw [tag, tagItems_eq_map]
    exact .array trivial (List.forall_mem_map.mpr fun v hv => ih v hv (short.inside hv))
  | table entries ih =>
    rw [tag, tagEntries_eq_map]
    refine .object trivial (List.forall_mem_map.mpr fun e he => ?_)
      (List.forall_mem_map.mpr fun e he => ?_)
    · exact (ih e he).1 (short.entry he).1
    · exact (ih e he).2 (short.entry he).2
  | int n => exact .scalar short
  | null | bool | text | bytes => exact .scalar (.leaf trivial rfl)

theorem nativeKey_tag {k bare : Native} (short : k.isContainer = true → k.Short)
    (unwrapped : k.tag.unwrap = .ok bare) : ∃ key, k.tag.nativeKey bare = .ok key := by
  rw [Tagged.nativeKey, tag_isComposite]
  cases composite : k.isContainer with
  | false => exact ⟨bare, rfl⟩
  | true =>
    have written := Tagged.unwrap_short (tag_short (short composite)) unwrapped
    obtain ⟨text, written⟩ := (rendered written).canonicalText
    exact ⟨.text text, by rw [if_pos rfl, written]; rfl⟩

theorem unwrap_tag_error {v : Native} {e : Failure} (failed : v.tag.unwrap = .error e) :
    ¬ v.Everywhere ShortKeys := by
  intro short
  induction v with
  | null | bool | int | text | bytes => cases failed
  | float x =>
    rw [tag] at failed
    rcases tagFloat_cases x with ⟨n, _, he⟩ | ⟨_, he⟩ | he <;> rw [he] at failed <;> cases failed
  | list items ih | tuple items ih =>
    rw [tag, tagItems_eq_map] at failed
    obtain ⟨t, ht, failed⟩ := unwrapItems_error (Attempt.bind_pure_error.mp failed)
    obtain ⟨v, hv, rfl⟩ := List.mem_map.mp ht
    exact ih v hv failed (short.inside hv)
  | table entries ih =>
    rw [tag, tagEntries_eq_map] at failed
    obtain ⟨d, hd, failed⟩ := unwrapPairs_error (Attempt.bind_pure_error.mp failed)
    obtain ⟨e, he, rfl⟩ := List.mem_map.mp hd
    -- A key can fail in its parts or at its text; as a tag of a value it can always be a key.
    rcases failed with failed | failed | ⟨bare, unwrapped, unnamed | ⟨key, keyed, unfit, _⟩⟩
    · exact (ih e he).1 failed (short.entry he).1
    · exact (ih e he).2 failed (short.entry he).2
    · obtain ⟨key, keyed⟩ := nativeKey_tag (short.here e he) unwrapped
      rw [keyed] at unnamed
      cases unnamed
    · rw [hashable_nativeKey (tag_shapeNormal e.1) unwrapped keyed] at unfit
      cases unfit

/-- The tag of a value has a native form, unless a key with parts holds a number that is too
long. -/
theorem unwrap_tag {v : Native} (h : v.Everywhere ShortKeys) : ∃ n, v.tag.unwrap = .ok n := by
  cases result : v.tag.unwrap with
  | ok n => exact ⟨n, rfl⟩
  | error e => exact absurd h (unwrap_tag_error result)

theorem intText_long {n : Int} (long : tooLarge ≤ n.natAbs) :
    Json.intText n = .error .tooManyDigits := by
  unfold Json.intText decimalText?
  rw [if_neg (Nat.not_lt.mpr long)]

/-- A whole number over the digit limit has no text, neither alone nor as a part of a key. -/
theorem long_refused {n : Int} (long : tooLarge ≤ n.natAbs) (v : Native) :
    (int n).coerce .string = .error .tooManyDigits ∧
      (int n).wrap .string = .error .tooManyDigits ∧
      ∃ t, (table [(.tuple [.int n], v)]).wrap .any = .ok t ∧
        t.unwrap = .error .tooManyDigits := by
  have coerced : (int n).coerce .string = .error .tooManyDigits := by
    rw [coerce, toText, intText_long long]
    rfl
  have unnamed : (list [.int n]).canonicalText = .error .tooManyDigits := by
    have written : Json.writeItems Json.compact 1 [.int n] = .error .tooManyDigits := by
      rw [Json.writeItems, Json.writeAt, intText_long long]
      rfl
    have image : (list [.int n]).jsonImage = .ok (list [.int n]) := rfl
    rw [canonicalText, image, Attempt.ok_bind, Json.write, Json.writeAt, written]
    rfl
  refine ⟨coerced, by rw [wrap, coerced]; rfl, _, rfl, ?_⟩
  have unwrapped : Tagged.unwrap (tag (.tuple [.int n])) = .ok (.list [.int n]) := rfl
  have unkeyed : Tagged.nativeKey (tag (.tuple [.int n])) (.list [.int n]) =
      .error .tooManyDigits := by
    have composite : (tag (.tuple [.int n])).isComposite = true := rfl
    rw [Tagged.nativeKey, if_pos composite, unnamed]
    rfl
  rw [tag, tagEntries, tagEntries, Tagged.unwrap, Tagged.unwrapPairs, unwrapped, Attempt.ok_bind,
    unkeyed]
  rfl

/-- The least number over the digit limit. -/
theorem tooLarge_refused :
    (int tooLarge).coerce .string = .error .tooManyDigits ∧
      (int tooLarge).wrap .string = .error .tooManyDigits ∧
      ∃ t, (table [(.tuple [.int tooLarge], .null)]).wrap .any = .ok t ∧
        t.unwrap = .error .tooManyDigits :=
  long_refused (Nat.le_of_eq (Int.natAbs_natCast _).symm) .null

theorem coerce_total (v : Native) {kind : Kind} (other : kind ≠ .string) :
    ∃ c, v.coerce kind = .ok c := by
  cases kind with
  | string => exact absurd rfl other
  | _ => exact ⟨_, rfl⟩

theorem Short.shortKeys {v : Native} (h : v.Short) : v.Everywhere ShortKeys := by
  induction v with
  | list items ih | tuple items ih => exact .node trivial fun u hu => ih u hu (h.inside hu)
  | table entries ih =>
    refine .ofEntries (fun e he _ => (h.entry he).1) (fun e he => ?_) fun e he => ?_
    · exact (ih e he).1 (h.entry he).1
    · exact (ih e he).2 (h.entry he).2
  | _ => exact .leaf trivial rfl

theorem wrap_of_coerce {v c : Native} {kind : Kind} (h : v.coerce kind = .ok c) :
    v.wrap kind = .ok c.tag := by
  rw [wrap, h]
  rfl

theorem marshal_error {v : Native} {kind : Kind} {e : Failure} (h : v.marshal kind = .error e) :
    v.wrap kind = .error e ∨ e = .tooManyDigits := by
  rcases Attempt.bind_error.mp h with failed | ⟨t, wrapped, failed⟩
  · exact .inl failed
  · obtain ⟨c, _, he⟩ := Attempt.bind_ok.mp wrapped
    cases he
    exact .inr (unwrap_error (tag_shapeNormal c) failed).1

/-- Values that are not made strings can always be wrapped, and what is wrapped can be unwrapped
but for keys with parts that hold long numbers. Without long numbers nothing fails, and nothing
fails for another cause. A name that is none counts as any kind. -/
theorem marshalling_total (v target : Native) :
    (kindOrAny target ≠ .string →
      ∃ c t, v.coerce (kindOrAny target) = .ok c ∧ v.wrap (kindOrAny target) = .ok t) ∧
    (v.Everywhere ShortKeys →
      ∀ t, v.wrap (kindOrAny target) = .ok t → ∃ n, t.unwrap = .ok n) ∧
    (v.Short → ∃ c t n, v.coerce (kindOrAny target) = .ok c ∧
      v.wrap (kindOrAny target) = .ok t ∧ t.unwrap = .ok n) ∧
    ∀ e, v.coerce (kindOrAny target) = .error e ∨ v.wrap (kindOrAny target) = .error e ∨
      v.marshal (kindOrAny target) = .error e → e = .tooManyDigits := by
  generalize kindOrAny target = kind
  have wrapped {e : Failure} (h : v.wrap kind = .error e) : e = .tooManyDigits :=
    coerce_error (Attempt.bind_pure_error.mp h)
  refine ⟨fun other => ?_, fun short t h => ?_, fun short => ?_, ?_⟩
  · obtain ⟨c, coerced⟩ := coerce_total v other
    exact ⟨c, c.tag, coerced, wrap_of_coerce coerced⟩
  · obtain ⟨c, coerced, he⟩ := Attempt.bind_ok.mp h
    cases he
    exact unwrap_tag (coerce_shortKeys short coerced)
  · obtain ⟨c, coerced⟩ := coerce_short short kind
    obtain ⟨n, unwrapped⟩ := unwrap_tag (coerce_shortKeys short.shortKeys coerced)
    exact ⟨c, c.tag, n, coerced, wrap_of_coerce coerced, unwrapped⟩
  · rintro e (failed | failed | failed)
    · exact coerce_error failed
    · exact wrapped failed
    · exact (marshal_error failed).elim wrapped id

/-- A long number is no obstacle beside a key with parts. -/
theorem keyed_marshalled :
    let v := table [(.tuple [.int 1], .int tooLarge)]
    let w := table [(.tuple [.int 1], .float (.nan .fresh))]
    kindOrAny (.text "Object") ≠ .string ∧ v.Everywhere ShortKeys ∧
      (∃ t n, v.wrap (kindOrAny (.text "Object")) = .ok t ∧ t.unwrap = .ok n) ∧
      w.Short ∧ ∃ c t n, w.coerce (kindOrAny (.text "String")) = .ok c ∧
        w.wrap (kindOrAny (.text "String")) = .ok t ∧ t.unwrap = .ok n := by
  intro v w
  have one : (tuple [.int 1]).Short :=
    .node trivial (List.forall_mem_singleton.mpr (short_int (by decide)))
  have keys : v.Everywhere ShortKeys :=
    .ofEntry (List.forall_mem_singleton.mpr fun _ => one) one.shortKeys (.leaf trivial rfl)
  have short : w.Short := .ofEntry trivial one (.leaf trivial rfl)
  have other : kindOrAny (.text "Object") ≠ .string := by decide
  obtain ⟨wrappable, unwrappable, _⟩ := marshalling_total v (.text "Object")
  obtain ⟨c, t, _, wrapped⟩ := wrappable other
  obtain ⟨n, unwrapped⟩ := unwrappable keys t wrapped
  obtain ⟨_, _, total, _⟩ := marshalling_total w (.text "String")
  exact ⟨other, keys, ⟨t, n, wrapped, unwrapped⟩, short, total short⟩

end Native

end HostBridge
