import HostBridge.Proofs.CanonicalText
import HostBridge.Proofs.JsonReading
import HostBridge.Proofs.JsonSpelling
import HostBridge.Proofs.Reproduction
import HostBridge.Proofs.WireGrammar

namespace HostBridge

namespace Native

/-- The name of a member, for the key that it stands for. -/
def label : Native → String
  | .text s => s
  | .null => "null"
  | .bool b => if b then "true" else "false"
  | .int n => decimalText n
  | .float x => numberText x
  | .bytes bs => Text.quotedBytes bs
  | k => k.canonicalText.toOption.getD ""

mutual

def jsonForm : Native → Native
  | .bytes bs => .text (Text.quotedBytes bs)
  | .float x => match x.toInt? with
    | some n => .int n
    | none => match x with
      | .finite .. => .float x
      | _ => .null
  | .list items | .tuple items => .list (formItems items)
  | .table entries => .table (formEntries entries)
  | v => v

def formItems : List Native → List Native
  | [] => []
  | v :: vs => jsonForm v :: formItems vs

def formEntries : List (Native × Native) → List (Native × Native)
  | [] => []
  | (k, v) :: es => (.text k.label, jsonForm v) :: formEntries es

end

/-- No two keys of a table have one name. -/
def DistinctNames : Native → Prop
  | .table entries => (entries.map fun e => e.1.label).Nodup
  | _ => True

end Native

namespace Binary64

theorem units_lt {negative : Bool} {m p : Nat} {canonical : Canonical m p} {u : Int}
    (h : (finite negative m p canonical).units? = some u) : u.natAbs < 2 ^ (53 + p) := by
  have size : u.natAbs = m * 2 ^ p := by
    simp only [units?, Option.some.injEq, Nat.pow_eq] at h
    rw [← h]
    split
    · rw [Int.natAbs_neg, Int.natAbs_natCast]
    · rw [Int.natAbs_natCast]
  rw [size, Nat.pow_add]
  exact Nat.mul_lt_mul_of_pos_right canonical.1 (Nat.two_pow_pos p)

/-- No double is a whole number over the digit limit. -/
theorem toInt_short {x : Binary64} {n : Int} (h : x.toInt? = some n) : n.natAbs < tooLarge := by
  have whole := units_of_toInt h
  cases x with
  | nan | infinite => cases whole
  | finite negative m p canonical =>
    have units := units_lt whole
    rw [Int.natAbs_mul, Int.natAbs_natCast] at units
    have positive : 0 < unitsPerOne := by decide +kernel
    have limit : 53 + p ≤ digitLimit :=
      Nat.le_trans (Nat.add_le_add_left canonical.2.1 53) (by decide)
    unfold tooLarge
    generalize digitLimit = most at limit ⊢
    calc n.natAbs ≤ n.natAbs * unitsPerOne := Nat.le_mul_of_pos_right _ positive
      _ < 2 ^ (53 + p) := units
      _ ≤ 10 ^ (53 + p) := Nat.pow_le_pow_left (by decide) _
      _ ≤ 10 ^ most := Nat.pow_le_pow_right (by decide) limit

end Binary64

namespace Native

/-- A value that is written in every style. -/
def Writes (image : Native) : Prop :=
  ∀ style depth, ∃ text, Json.writeAt style depth image = .ok text

theorem writes_int {n : Int} (h : n.natAbs < tooLarge) : (int n).Writes := by
  intro style depth
  rw [Json.writeAt]
  exact Json.intText_ok.mpr h

theorem writes_list {items : List Native} (h : ∀ i ∈ items, i.Writes) : (list items).Writes := by
  intro style depth
  rw [Json.writeAt, Json.exists_map_ok, Json.writeItems_ok]
  exact fun i hi => h i hi style (depth + 1)

theorem writes_table {entries : List (Native × Native)}
    (h : ∀ e ∈ entries, (∃ name, Json.memberName e.1 = .ok name) ∧ e.2.Writes) :
    (table entries).Writes := by
  intro style depth
  rw [Json.writeAt, Json.exists_map_ok, Json.writeMembers_ok]
  exact fun e he => ⟨(h e he).1, (h e he).2 style (depth + 1)⟩

/-- A value with an image that is written in every style. -/
def Rendered (v : Native) : Prop :=
  ∃ image, v.jsonImage = .ok image ∧ image.Writes

theorem Rendered.canonicalText {v : Native} (h : v.Rendered) :
    ∃ text, v.canonicalText = .ok text := by
  obtain ⟨image, made, writes⟩ := h
  obtain ⟨text, written⟩ := writes Json.compact 0
  exact ⟨text, Attempt.bind_ok.mpr ⟨image, made, written⟩⟩

theorem composite_label {k : Native} {text : String} (h : k.canonicalText = .ok text)
    (composite : k.isContainer = true) : k.label = text := by
  cases k with
  | list | tuple | table => simp only [label, h]; rfl
  | _ => cases composite

/-- A key becomes itself, if it is null, a boolean or a whole number, and its name otherwise. -/
theorem jsonKey_cases {k key : Native} (h : k.jsonKey = .ok key) :
    (key = k ∧ (k = .null ∨ (∃ b, k = .bool b) ∨ ∃ n, k = .int n)) ∨ key = .text k.label := by
  cases k with
  | null | bool | int =>
    cases h
    exact .inl ⟨rfl, by simp⟩
  | float | text | bytes =>
    cases h
    exact .inr rfl
  | list | tuple | table =>
    obtain ⟨text, written, he⟩ := Attempt.bind_ok.mp h
    cases he
    rw [composite_label written rfl]
    exact .inr rfl

theorem intText_short {n : Int} (h : n.natAbs < tooLarge) :
    Json.intText n = .ok (decimalText n) := by
  unfold Json.intText decimalText?
  rw [if_pos h]

theorem jsonKey_name {k key : Native} (short : k.Short) (h : k.jsonKey = .ok key) :
    Json.memberName key = .ok k.label := by
  rcases jsonKey_cases h with ⟨rfl, rfl | ⟨b, rfl⟩ | ⟨n, rfl⟩⟩ | rfl
  · rfl
  · rfl
  · have small : n.natAbs < tooLarge := short.here
    rw [Json.memberName, intText_short small]
    rfl
  · rfl

theorem jsonKey_rendered {k : Native} (h : k.Rendered) : ∃ key, k.jsonKey = .ok key := by
  cases k with
  | list | tuple | table =>
    obtain ⟨text, written⟩ := h.canonicalText
    exact ⟨.text text, Attempt.bind_ok.mpr ⟨text, written, rfl⟩⟩
  | _ => exact ⟨_, rfl⟩

theorem jsonItems_rendered {items : List Native} (h : ∀ v ∈ items, v.Rendered) :
    ∃ images, jsonItems items = .ok images ∧ ∀ i ∈ images, i.Writes := by
  induction items with
  | nil => exact ⟨[], rfl, List.forall_mem_nil _⟩
  | cons v vs ih =>
    obtain ⟨⟨image, made, writes⟩, others⟩ := List.forall_mem_cons.mp h
    obtain ⟨images, after, later⟩ := ih others
    exact ⟨image :: images, by rw [jsonItems, made, after]; rfl,
      List.forall_mem_cons.mpr ⟨writes, later⟩⟩

theorem jsonEntries_rendered {entries : List (Native × Native)}
    (h : ∀ e ∈ entries, (e.1.Short ∧ e.1.Rendered) ∧ e.2.Rendered) :
    ∃ images, jsonEntries entries = .ok images ∧
      ∀ i ∈ images, (∃ name, Json.memberName i.1 = .ok name) ∧ i.2.Writes := by
  induction entries with
  | nil => exact ⟨[], rfl, List.forall_mem_nil _⟩
  | cons e es ih =>
    obtain ⟨⟨⟨short, named⟩, image, made, writes⟩, others⟩ := List.forall_mem_cons.mp h
    obtain ⟨images, after, later⟩ := ih others
    obtain ⟨key, keyed⟩ := jsonKey_rendered named
    refine ⟨(key, image) :: images, ?_, List.forall_mem_cons.mpr ⟨⟨?_, writes⟩, later⟩⟩
    · rw [jsonEntries_cons, keyed, made, after]
      rfl
    · exact ⟨_, jsonKey_name short keyed⟩

theorem rendered_float (x : Binary64) : (float x).Rendered := by
  refine ⟨_, rfl, ?_⟩
  cases whole : x.toInt? with
  | some n => exact writes_int (Binary64.toInt_short whole)
  | none => cases x <;> exact fun _ _ => ⟨_, rfl⟩

/-- A value without too long numbers has a canonical text. -/
theorem rendered {v : Native} (h : v.Short) : v.Rendered := by
  induction v with
  | null | bool | text | bytes => exact ⟨_, rfl, fun _ _ => ⟨_, rfl⟩⟩
  | int n => exact ⟨_, rfl, writes_int h.here⟩
  | float x => exact rendered_float x
  | list items ih | tuple items ih =>
    obtain ⟨images, made, writes⟩ := jsonItems_rendered fun v hv => ih v hv (h.inside hv)
    exact ⟨.list images, by rw [jsonImage, made]; rfl, writes_list writes⟩
  | table entries ih =>
    obtain ⟨images, made, writes⟩ := jsonEntries_rendered fun e he =>
      ⟨⟨(h.entry he).1, (ih e he).1 (h.entry he).1⟩, (ih e he).2 (h.entry he).2⟩
    refine ⟨.table (Ordered.ofList images), by rw [jsonImage, made]; rfl, writes_table ?_⟩
    exact Ordered.forall_ofList (P := fun k => ∃ name, Json.memberName k = .ok name) writes

theorem forall_of_forall₂ {α β : Type} {R : α → β → Prop} {p : β → Prop} {xs : List α}
    {ys : List β} (h : List.Forall₂ R xs ys) (each : ∀ x ∈ xs, ∀ y, R x y → p y) :
    ∀ y ∈ ys, p y := by
  induction h with
  | nil => exact List.forall_mem_nil _
  | cons first _ ih =>
    obtain ⟨here, others⟩ := List.forall_mem_cons.mp each
    exact List.forall_mem_cons.mpr ⟨here _ first, ih others⟩

/-- What keeps members of a list apart keeps those apart that they are related to. -/
theorem pairwise_of_forall₂ {α β : Type} {R : α → β → Prop} {S : α → α → Prop}
    {T : β → β → Prop} {xs : List α} {ys : List β} (h : List.Forall₂ R xs ys)
    (apart : xs.Pairwise S) (step : ∀ a b c d, R a c → R b d → S a b → T c d) :
    ys.Pairwise T := by
  induction h with
  | nil => exact .nil
  | cons first others ih =>
    obtain ⟨here, rest⟩ := List.pairwise_cons.mp apart
    refine List.pairwise_cons.mpr ⟨forall_of_forall₂ others ?_, ih rest⟩
    intro b hb d related
    exact step _ b _ d first related (here b hb)

theorem jsonItems_ok {items images : List Native} (h : jsonItems items = .ok images) :
    List.Forall₂ (fun v i => v.jsonImage = .ok i) items images := by
  induction items generalizing images with
  | nil =>
    cases h
    exact .nil
  | cons v vs ih =>
    obtain ⟨image, made, h⟩ := Attempt.bind_ok.mp h
    obtain ⟨rest, after, he⟩ := Attempt.bind_ok.mp h
    cases he
    exact .cons made (ih after)

theorem jsonEntries_ok {entries images : List (Native × Native)}
    (h : jsonEntries entries = .ok images) :
    List.Forall₂ (fun e i => e.1.jsonKey = .ok i.1 ∧ e.2.jsonImage = .ok i.2) entries images := by
  induction entries generalizing images with
  | nil =>
    cases h
    exact .nil
  | cons e es ih =>
    rw [jsonEntries_cons] at h
    obtain ⟨key, keyed, h⟩ := Attempt.bind_ok.mp h
    obtain ⟨image, made, h⟩ := Attempt.bind_ok.mp h
    obtain ⟨rest, after, he⟩ := Attempt.bind_ok.mp h
    cases he
    exact .cons ⟨keyed, made⟩ (ih after)

/-- Keys that differ, and whose names differ, still differ as keys of an image. -/
theorem jsonKey_apart {k l a b : Native} (ha : k.jsonKey = .ok a) (hb : l.jsonKey = .ok b)
    (apart : (k == l) = false) (names : k.label ≠ l.label) : (a == b) = false := by
  rcases jsonKey_cases ha with ⟨rfl, plain⟩ | rfl
  · rcases jsonKey_cases hb with ⟨rfl, _⟩ | rfl
    · exact apart
    · rcases plain with rfl | ⟨_, rfl⟩ | ⟨_, rfl⟩ <;> rfl
  · rcases jsonKey_cases hb with ⟨rfl, plain⟩ | rfl
    · rcases plain with rfl | ⟨_, rfl⟩ | ⟨_, rfl⟩ <;> rfl
    · exact Json.text_apart names

theorem jsonKeys_distinct {entries images : List (Native × Native)}
    (keyed : List.Forall₂ (fun e i => e.1.jsonKey = .ok i.1) entries images)
    (distinct : Ordered.Distinct entries) (names : (entries.map fun e => e.1.label).Nodup) :
    Ordered.Distinct images := by
  refine pairwise_of_forall₂ keyed (distinct.and (List.pairwise_map.mp names)) ?_
  intro _ _ _ _ first second apart
  exact jsonKey_apart first second apart.1 apart.2

/-- A value is the image of another: its text is read as the form of that one, and no two members of
a table in it have one name. -/
structure ImageOf (v image : Native) : Prop where
  form : Json.rereadValue false image = v.jsonForm
  apart : image.Everywhere Json.NamesApart

theorem rereadItems_form {items images : List Native} (h : List.Forall₂ ImageOf items images) :
    Json.rereadItems false images = formItems items := by
  induction h with
  | nil => rfl
  | cons first _ ih => rw [Json.rereadItems, formItems, first.form, ih]

theorem rereadMembers_form {entries images : List (Native × Native)}
    (h : List.Forall₂ (fun e i => Json.memberText i.1 = e.1.label ∧ ImageOf e.2 i.2)
      entries images) : Json.rereadMembers false images = formEntries entries := by
  induction h with
  | nil => rfl
  | @cons e i es is first _ ih =>
    rw [Json.rereadMembers, formEntries, first.1, first.2.form, ih, Json.rereadText_plain]

theorem memberTexts_form {entries images : List (Native × Native)}
    (h : List.Forall₂ (fun e i => Json.memberText i.1 = e.1.label ∧ ImageOf e.2 i.2)
      entries images) :
    (images.map fun i => Json.memberText i.1) = entries.map fun e => e.1.label := by
  induction h with
  | nil => rfl
  | cons first _ ih => rw [List.map_cons, List.map_cons, first.1, ih]

theorem imageOf_float (x : Binary64) {image : Native} (h : (float x).jsonImage = .ok image) :
    ImageOf (.float x) image := by
  simp only [jsonImage, Except.ok.injEq] at h
  subst image
  cases whole : x.toInt? with
  | some n => exact ⟨by simp only [jsonForm, whole]; rfl, .leaf trivial rfl⟩
  | none => cases x <;> exact ⟨by simp only [jsonForm, whole]; rfl, .leaf trivial rfl⟩

theorem imageOf_list {items images : List Native} (h : List.Forall₂ ImageOf items images) :
    Json.rereadValue false (.list images) = .list (formItems items) ∧
      (list images).Everywhere Json.NamesApart :=
  ⟨congrArg Native.list (rereadItems_form h),
    .node trivial (forall_of_forall₂ h fun _ _ _ made => made.apart)⟩

theorem key_apart {k key : Native} (h : k.jsonKey = .ok key) :
    key.Everywhere Json.NamesApart := by
  rcases jsonKey_cases h with ⟨rfl, rfl | ⟨b, rfl⟩ | ⟨n, rfl⟩⟩ | rfl
  all_goals exact .leaf trivial rfl

theorem imageOf_table {entries images : List (Native × Native)}
    (keyed : List.Forall₂ (fun e i => e.1.jsonKey = .ok i.1) entries images)
    (made : List.Forall₂ (fun e i => Json.memberText i.1 = e.1.label ∧ ImageOf e.2 i.2)
      entries images) (names : (entries.map fun e => e.1.label).Nodup) :
    ImageOf (.table entries) (.table images) := by
  have apart : (images.map fun i => Json.memberText i.1).Nodup := by
    rw [memberTexts_form made]
    exact names
  refine ⟨?_, .ofEntries apart ?_ ?_⟩
  · have distinct := Json.rereadMembers_distinct apart
    rw [rereadMembers_form made] at distinct
    rw [Json.rereadValue, rereadMembers_form made, Json.ofList_distinct distinct, jsonForm]
  · exact forall_of_forall₂ keyed fun _ _ _ key => key_apart key
  · exact forall_of_forall₂ made fun _ _ _ image => image.2.apart

theorem imageOf {v : Native} (formed : v.WellFormed) (short : v.Short)
    (names : v.Everywhere DistinctNames) {image : Native} (h : v.jsonImage = .ok image) :
    ImageOf v image := by
  induction v generalizing image with
  | null | bool | int =>
    cases h
    exact ⟨rfl, .leaf trivial rfl⟩
  | float x => exact imageOf_float x h
  | text s =>
    cases h
    exact ⟨congrArg Native.text (Json.rereadText_plain s), .leaf trivial rfl⟩
  | bytes bs =>
    cases h
    exact ⟨congrArg Native.text (Json.rereadText_plain _), .leaf trivial rfl⟩
  | list items ih | tuple items ih =>
    obtain ⟨images, made, he⟩ := Attempt.bind_ok.mp h
    cases he
    have each : ∀ v ∈ items, ∀ i, v.jsonImage = .ok i → ImageOf v i := by
      intro v hv i
      refine ih v hv ?_ (short.inside hv) (names.inside hv)
      cases formed with
      | scalar h => cases h
      | _ h => exact h v hv
    have related := (List.forall₂_and_left items images).mpr ⟨each, jsonItems_ok made⟩
    obtain ⟨form, apart⟩ := imageOf_list (related.imp fun _ _ both => both.1 _ both.2)
    exact ⟨form, apart⟩
  | table entries ih =>
    obtain ⟨images, made, he⟩ := Attempt.bind_ok.mp h
    cases he
    cases formed with
    | scalar h => cases h
    | table keys values distinct =>
      have each : ∀ e ∈ entries, (∀ key, e.1.jsonKey = .ok key →
          Json.memberText key = e.1.label) ∧ ∀ i, e.2.jsonImage = .ok i → ImageOf e.2 i := by
        intro e he
        refine ⟨fun key keyed => ?_, fun i => ?_⟩
        · rw [Json.memberText, jsonKey_name (short.entry he).1 keyed]
          rfl
        · exact (ih e he).2 (values e he) (short.entry he).2 (names.entry he).2
      have parts := jsonEntries_ok made
      have keyed := parts.imp fun _ _ both => both.1
      have related := (List.forall₂_and_left entries images).mpr ⟨each, parts⟩
      rw [Json.ofList_distinct (jsonKeys_distinct keyed distinct names.here)]
      exact imageOf_table keyed
        (related.imp fun _ _ both => ⟨both.1.1 _ both.2.1, both.1.2 _ both.2.2⟩) names.here

/-- The name of a member is what its key is as a string. -/
theorem coerce_string_label {k : Native} (short : k.Short) :
    k.coerce .string = .ok (.text k.label) := by
  cases k with
  | int n =>
    have small : n.natAbs < tooLarge := short.here
    rw [coerce, toText, intText_short small]
    rfl
  | list | tuple | table =>
    obtain ⟨text, written⟩ := (rendered short).canonicalText
    simp only [composite_label written rfl, coerce, toText, written]
    rfl
  | _ => rfl

/-- The canonical text of a value has no blanks but those in its strings. All readers of the grammar
agree on it: it means the form of the value and nothing else. -/
theorem canonicalText_faithful {v : Native} (formed : v.WellFormed) (short : v.Short)
    (names : v.Everywhere DistinctNames) :
    ∃ text, v.canonicalText = .ok text ∧ Json.Compact text v.jsonForm ∧
      (∀ w, Json.Means text w ↔ w = v.jsonForm) ∧ Json.read text = .ok v.jsonForm := by
  obtain ⟨image, made, writes⟩ := rendered short
  obtain ⟨text, written⟩ := writes Json.compact 0
  obtain ⟨form, apart⟩ := imageOf formed short names made
  have spelled : ∀ gap, Json.Spells gap text.toList v.jsonForm := by
    intro gap
    rw [← form]
    exact Json.spells_written apart written
  have read : Json.read text = .ok v.jsonForm := by
    rw [← form]
    exact (Json.read_write Json.compact_oneLine written).2
  refine ⟨text, Attempt.bind_ok.mpr ⟨image, made, written⟩, spelled _, fun w => ?_, read⟩
  constructor
  · exact Json.Means.unique read
  · rintro rfl
    exact .ofSpells (spelled _)

/-- A table with a tuple and null as keys. -/
private def sampleTable : Native :=
  .table [(.tuple [.text "a", .null], .list [.float (.nan .fresh), .bytes [104]]),
    (.null, .bool true)]

theorem canonicalText_faithful_sample :
    sampleTable.WellFormed ∧ sampleTable.Short ∧ sampleTable.Everywhere DistinctNames ∧
      ∃ text, sampleTable.canonicalText = .ok text ∧ Json.Compact text sampleTable.jsonForm ∧
        (∀ w, Json.Means text w ↔ w = sampleTable.jsonForm) ∧
        Json.read text = .ok sampleTable.jsonForm := by
  have formed : sampleTable.WellFormed := by
    refine .table ?_ ?_ (List.pairwise_pair.mpr rfl)
    · rintro e (_ | ⟨_, _ | ⟨_, ⟨⟩⟩⟩)
      · exact .tuple (by rintro v (_ | ⟨_, _ | ⟨_, ⟨⟩⟩⟩) <;> exact .scalar rfl)
      · exact .scalar rfl
    · rintro e (_ | ⟨_, _ | ⟨_, ⟨⟩⟩⟩)
      · exact .list (by rintro v (_ | ⟨_, _ | ⟨_, ⟨⟩⟩⟩) <;> exact .scalar rfl)
      · exact .scalar rfl
  have everywhere (p : Native → Prop) (plain : ∀ v, (∀ es, v ≠ .table es) → (∀ n, v ≠ .int n) → p v)
      (here : p sampleTable) : sampleTable.Everywhere p := by
    refine .ofEntries here ?_ ?_
    · rintro e (_ | ⟨_, _ | ⟨_, ⟨⟩⟩⟩)
      · refine .node (plain _ nofun nofun) ?_
        rintro v (_ | ⟨_, _ | ⟨_, ⟨⟩⟩⟩) <;> exact .leaf (plain _ nofun nofun) rfl
      · exact .leaf (plain _ nofun nofun) rfl
    · rintro e (_ | ⟨_, _ | ⟨_, ⟨⟩⟩⟩)
      · refine .node (plain _ nofun nofun) ?_
        rintro v (_ | ⟨_, _ | ⟨_, ⟨⟩⟩⟩) <;> exact .leaf (plain _ nofun nofun) rfl
      · exact .leaf (plain _ nofun nofun) rfl
  have short : sampleTable.Short := everywhere _ (fun v _ number => by
    cases v <;> first | exact absurd rfl (number _) | trivial) trivial
  have names : sampleTable.Everywhere DistinctNames := everywhere _ (fun v table _ => by
    cases v <;> first | exact absurd rfl (table _) | trivial) (by
      change (_ : List String).Nodup
      decide +kernel)
  exact ⟨formed, short, names, canonicalText_faithful formed short names⟩

example : sampleTable.canonicalText =
    .ok "\x7b\"[\\\"a\\\",null]\":[null,\"b'h'\"],\"null\":true\x7d" := rfl

end Native

end HostBridge
