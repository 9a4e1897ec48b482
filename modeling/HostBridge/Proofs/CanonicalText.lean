import HostBridge.Canonical

namespace HostBridge

namespace Json

/-- A value that is written in every style, unless a whole number in it is too long. -/
def Writable (v : Native) : Prop :=
  ∀ (style : Style) (depth : Nat) (e : Failure),
    writeAt style depth v = .error e → e = .tooManyDigits

/-- A key that can be the name of a member, unless it is a whole number that is too long. -/
def Nameable (k : Native) : Prop :=
  ∀ e, memberName k = .error e → e = .tooManyDigits

theorem intText_error {n : Int} {e : Failure} (h : intText n = .error e) : e = .tooManyDigits := by
  unfold intText at h
  split at h <;> cases h
  rfl

theorem writeItems_error {items : List Native} (h : ∀ v ∈ items, Writable v) {style : Style}
    {depth : Nat} {e : Failure} (failed : writeItems style depth items = .error e) :
    e = .tooManyDigits := by
  induction items with
  | nil => cases failed
  | cons v vs ih =>
    obtain ⟨hv, hvs⟩ := List.forall_mem_cons.mp h
    rcases Attempt.bind_error.mp failed with first | ⟨text, _, later⟩
    · exact hv style depth e first
    · exact ih hvs (Attempt.bind_pure_error.mp later)

theorem writeMembers_error {entries : List (Native × Native)}
    (h : ∀ e ∈ entries, Nameable e.1 ∧ Writable e.2) {style : Style} {depth : Nat} {e : Failure}
    (failed : writeMembers style depth entries = .error e) : e = .tooManyDigits := by
  induction entries with
  | nil => cases failed
  | cons d ds ih =>
    obtain ⟨⟨hk, hv⟩, hds⟩ := List.forall_mem_cons.mp h
    rcases Attempt.bind_error.mp failed with unnamed | ⟨name, _, later⟩
    · exact hk e unnamed
    · rcases Attempt.bind_error.mp later with first | ⟨text, _, later⟩
      · exact hv style depth e first
      · exact ih hds (Attempt.bind_pure_error.mp later)

theorem writable_int (n : Int) : Writable (.int n) := by
  intro style depth e failed
  rw [writeAt] at failed
  exact intText_error failed

theorem nameable_int (n : Int) : Nameable (.int n) := by
  intro e failed
  rw [memberName] at failed
  exact intText_error failed

theorem writable_list {items : List Native} (h : ∀ v ∈ items, Writable v) :
    Writable (.list items) := by
  intro style depth e failed
  exact writeItems_error h (Attempt.bind_pure_error.mp failed)

theorem writable_table {entries : List (Native × Native)}
    (h : ∀ e ∈ entries, Nameable e.1 ∧ Writable e.2) : Writable (.table entries) := by
  intro style depth e failed
  exact writeMembers_error h (Attempt.bind_pure_error.mp failed)

end Json

namespace Native

open Json (Writable Nameable)

/-- A value that has an image and then a text, unless a whole number in it is too long. -/
structure Expressible (v : Native) : Prop where
  fails : ∀ e, v.jsonImage = .error e → e = .tooManyDigits
  writes : ∀ image, v.jsonImage = .ok image → Writable image

theorem Expressible.canonicalText {v : Native} (h : v.Expressible) {e : Failure}
    (failed : v.canonicalText = .error e) : e = .tooManyDigits := by
  rcases Attempt.bind_error.mp failed with first | ⟨image, made, written⟩
  · exact h.fails e first
  · exact h.writes image made _ _ e written

/-- The key that stands for another among the members of an image. -/
def jsonKey : Native → Attempt Native
  | .float x => .ok (.text (numberText x))
  | .bytes bs => .ok (.text (Text.quotedBytes bs))
  | .null => .ok .null
  | .bool b => .ok (.bool b)
  | .int n => .ok (.int n)
  | .text s => .ok (.text s)
  | k => do return .text (← k.canonicalText)

theorem jsonEntries_cons (k v : Native) (es : List (Native × Native)) :
    jsonEntries ((k, v) :: es) = (do
      let key ← jsonKey k
      let image ← jsonImage v
      return (key, image) :: (← jsonEntries es)) := by
  cases k <;> simp [jsonEntries, jsonKey, canonicalText, bind_assoc]

theorem jsonKey_error {k : Native} (h : k.Expressible) {e : Failure}
    (failed : k.jsonKey = .error e) : e = .tooManyDigits := by
  cases k with
  | list items | tuple items | table entries =>
    exact h.canonicalText (Attempt.bind_pure_error.mp failed)
  | _ => cases failed

theorem jsonKey_nameable {k key : Native} (h : k.jsonKey = .ok key) : Nameable key := by
  cases k with
  | int n =>
    cases h
    exact Json.nameable_int n
  | list items | tuple items | table entries =>
    obtain ⟨text, _, he⟩ := Attempt.bind_ok.mp h
    cases he
    intro e failed
    cases failed
  | _ =>
    cases h
    intro e failed
    cases failed

theorem jsonItems_error {items : List Native} (h : ∀ v ∈ items, v.Expressible) {e : Failure}
    (failed : jsonItems items = .error e) : e = .tooManyDigits := by
  induction items with
  | nil => cases failed
  | cons v vs ih =>
    obtain ⟨hv, hvs⟩ := List.forall_mem_cons.mp h
    rcases Attempt.bind_error.mp failed with first | ⟨image, _, later⟩
    · exact hv.fails e first
    · exact ih hvs (Attempt.bind_pure_error.mp later)

theorem jsonItems_writable {items images : List Native} (h : ∀ v ∈ items, v.Expressible)
    (made : jsonItems items = .ok images) : ∀ i ∈ images, Writable i := by
  induction items generalizing images with
  | nil =>
    cases made
    simp
  | cons v vs ih =>
    obtain ⟨hv, hvs⟩ := List.forall_mem_cons.mp h
    obtain ⟨image, hi, made⟩ := Attempt.bind_ok.mp made
    obtain ⟨rest, hr, he⟩ := Attempt.bind_ok.mp made
    cases he
    exact List.forall_mem_cons.mpr ⟨hv.writes image hi, ih hvs hr⟩

theorem jsonEntries_error {entries : List (Native × Native)}
    (h : ∀ e ∈ entries, e.1.Expressible ∧ e.2.Expressible) {e : Failure}
    (failed : jsonEntries entries = .error e) : e = .tooManyDigits := by
  induction entries with
  | nil => cases failed
  | cons d ds ih =>
    obtain ⟨⟨hk, hv⟩, hds⟩ := List.forall_mem_cons.mp h
    rw [jsonEntries_cons] at failed
    rcases Attempt.bind_error.mp failed with unnamed | ⟨key, _, later⟩
    · exact jsonKey_error hk unnamed
    · rcases Attempt.bind_error.mp later with first | ⟨image, _, later⟩
      · exact hv.fails e first
      · exact ih hds (Attempt.bind_pure_error.mp later)

theorem jsonEntries_writable {entries images : List (Native × Native)}
    (h : ∀ e ∈ entries, e.1.Expressible ∧ e.2.Expressible)
    (made : jsonEntries entries = .ok images) : ∀ e ∈ images, Nameable e.1 ∧ Writable e.2 := by
  induction entries generalizing images with
  | nil =>
    cases made
    simp
  | cons d ds ih =>
    obtain ⟨⟨_, hv⟩, hds⟩ := List.forall_mem_cons.mp h
    rw [jsonEntries_cons] at made
    obtain ⟨key, hk, made⟩ := Attempt.bind_ok.mp made
    obtain ⟨image, hi, made⟩ := Attempt.bind_ok.mp made
    obtain ⟨rest, hr, he⟩ := Attempt.bind_ok.mp made
    cases he
    exact List.forall_mem_cons.mpr ⟨⟨jsonKey_nameable hk, hv.writes image hi⟩, ih hds hr⟩

/-- The image of a double is a whole number, the finite double or null. -/
theorem expressible_float (x : Binary64) : Expressible (.float x) := by
  refine ⟨fun e failed => ?_, fun image made => ?_⟩
  · simp [jsonImage] at failed
  · simp only [jsonImage, Except.ok.injEq] at made
    subst image
    intro style depth e failed
    cases hi : x.toInt? with
    | some n =>
      simp only [hi] at failed
      exact Json.writable_int n style depth e failed
    | none =>
      cases x with
      | finite negative m p canonical =>
        simp [hi, Json.writeAt, Json.floatText] at failed
      | nan | infinite => simp [hi, Json.writeAt] at failed

theorem expressible (v : Native) : v.Expressible := by
  induction v with
  | float x => exact expressible_float x
  | list items ih | tuple items ih =>
    refine ⟨fun e failed => ?_, fun image made => ?_⟩
    · exact jsonItems_error ih (Attempt.bind_pure_error.mp failed)
    · obtain ⟨images, inside, he⟩ := Attempt.bind_ok.mp made
      cases he
      exact Json.writable_list (jsonItems_writable ih inside)
  | table entries ih =>
    refine ⟨fun e failed => ?_, fun image made => ?_⟩
    · exact jsonEntries_error ih (Attempt.bind_pure_error.mp failed)
    · obtain ⟨images, inside, he⟩ := Attempt.bind_ok.mp made
      cases he
      exact Json.writable_table (Ordered.forall_ofList (jsonEntries_writable ih inside))
  | int n =>
    refine ⟨fun e failed => (by cases failed), fun image made => ?_⟩
    cases made
    exact Json.writable_int n
  | null | bool | text | bytes =>
    refine ⟨fun e failed => (by cases failed), fun image made => ?_⟩
    cases made
    intro style depth e failed
    cases failed

/-- Every value has a canonical text, unless a whole number in it is over the digit limit. -/
theorem canonicalText_error {v : Native} {e : Failure} (h : v.canonicalText = .error e) :
    e = .tooManyDigits :=
  v.expressible.canonicalText h

end Native

end HostBridge
