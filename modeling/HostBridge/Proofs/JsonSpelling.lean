import HostBridge.Proofs.JsonText

namespace HostBridge.Json

variable {gap : Char → Prop}

theorem spells_int {n : Int} {text : String} (h : intText n = .ok text) :
    Spells gap text.toList (.int n) := by
  unfold intText decimalText? at h
  split at h
  · rename_i s short
    cases h
    split at short
    · cases short
      have spelled := digitsOf_spells (decide (n < 0)) n.natAbs
      rw [signed_natAbs] at spelled
      rw [decimalText, signed_toList, String.toList_ofList]
      exact .number (decide (n < 0)) spelled
    · cases short
  · cases h

theorem spells_float {x : Binary64} {text : String} (h : floatText x = .ok text) :
    Spells gap text.toList (.float x) := by
  cases x with
  | nan | infinite => cases h
  | finite negative m p canonical =>
    cases h
    obtain ⟨n, chars, value⟩ := Binary64.text_spelled negative canonical
    rw [chars, ← value]
    exact .number negative (spelling_spells negative n)

theorem spells_text (s : String) :
    Spells gap (stringText false s).toList (.text (rereadText false s)) := by
  rw [stringText_toList]
  exact .text (stringChars_spells s.toList)

/-- Texts are the items of a list, with nothing around them. -/
theorem exists_items {parts : List String} {vs : List Native}
    (h : List.Forall₂ (fun part v => Spells gap part.toList v) parts vs) :
    ∃ items : List Item, items.map Item.chars = parts.map String.toList ∧
      items.map Item.value = vs ∧ ∀ i ∈ items, i.Spaced gap ∧ Spells gap i.text i.value := by
  induction h with
  | nil => exact ⟨[], rfl, rfl, List.forall_mem_nil _⟩
  | @cons part v parts vs first _ ih =>
    obtain ⟨items, chars, values, spelled⟩ := ih
    refine ⟨⟨[], part.toList, [], v⟩ :: items, ?_, by rw [List.map_cons, values], ?_⟩
    · rw [List.map_cons, List.map_cons, chars, Item.chars, List.nil_append, List.append_nil]
    · exact List.forall_mem_cons.mpr
        ⟨⟨⟨List.forall_mem_nil _, List.forall_mem_nil _⟩, first⟩, spelled⟩

theorem spells_list {depth : Nat} {parts : List String} {vs : List Native}
    (h : List.Forall₂ (fun part v => Spells gap part.toList v) parts vs) :
    Spells gap (enclose compact depth "[" "]" parts).toList (.list vs) := by
  have chars := (@enclose_one compact compact_oneLine depth "[" "]" '[' ']' rfl rfl parts).1
  rw [chars]
  obtain ⟨items, texts, rfl, spelled⟩ := exists_items h
  cases items with
  | nil =>
    rw [List.map_nil] at texts
    rw [joinParts, ← texts]
    exact .noItems (List.forall_mem_nil _)
  | cons i items =>
    rw [joinParts, ← texts]
    exact .list (List.cons_ne_nil i items) (fun j hj => (spelled j hj).1)
      fun j hj => (spelled j hj).2

/-- A text that spells a member, with nothing around its parts. -/
inductive SpellsMember (gap : Char → Prop) : String → Native × Native → Prop
  | mk (name : String) {text : String} {v : Native} (value : Spells gap text.toList v) :
      SpellsMember gap (stringText false name ++ compact.member ++ text) (.text name, v)

theorem exists_members {parts : List String} {es : List (Native × Native)}
    (h : List.Forall₂ (SpellsMember gap) parts es) :
    ∃ members : List Member, members.map Member.chars = parts.map String.toList ∧
      members.map Member.entry = es ∧ ∀ m ∈ members, m.Spaced gap ∧
        SpellsChars m.written m.name ∧ Spells gap m.item.text m.item.value := by
  induction h with
  | nil => exact ⟨[], rfl, rfl, List.forall_mem_nil _⟩
  | @cons part e parts es first _ ih =>
    obtain ⟨members, chars, entries, spelled⟩ := ih
    obtain ⟨name, value⟩ := first
    rename_i text v
    have blank : ∀ c ∈ ([] : List Char), gap c := List.forall_mem_nil _
    refine ⟨⟨[], stringChars false name.toList, name.toList, [], ⟨[], text.toList, [], v⟩⟩ ::
      members, ?_, ?_, ?_⟩
    · rw [List.map_cons, List.map_cons, chars]
      simp [Member.chars, Item.chars, stringText_toList, compact]
    · rw [List.map_cons, entries, Member.entry, String.ofList_toList]
    · exact List.forall_mem_cons.mpr
        ⟨⟨⟨blank, blank, blank, blank⟩, stringChars_spells _, value⟩, spelled⟩

theorem spells_table {depth : Nat} {parts : List String} {es : List (Native × Native)}
    (h : List.Forall₂ (SpellsMember gap) parts es) (distinct : Ordered.Distinct es) :
    Spells gap (enclose compact depth "\x7b" "\x7d" parts).toList (.table es) := by
  have chars :=
    (@enclose_one compact compact_oneLine depth "\x7b" "\x7d" '\x7b' '\x7d' rfl rfl parts).1
  rw [chars]
  obtain ⟨members, texts, rfl, spelled⟩ := exists_members h
  cases members with
  | nil =>
    rw [List.map_nil] at texts
    rw [joinParts, ← texts]
    exact .noMembers (List.forall_mem_nil _)
  | cons m members =>
    rw [joinParts, ← texts]
    exact .table (List.cons_ne_nil m members) (fun d hd => (spelled d hd).1)
      (fun d hd => (spelled d hd).2.1) (fun d hd => (spelled d hd).2.2) distinct

/-- No two members of a table are written by one name. -/
def NamesApart : Native → Prop
  | .table entries => (entries.map fun e => memberText e.1).Nodup
  | _ => True

theorem text_apart {s t : String} (h : s ≠ t) : (Native.text s == Native.text t) = false := by
  change (s == t) = false
  exact beq_eq_false_iff_ne.mpr h

theorem rereadMembers_distinct {entries : List (Native × Native)}
    (h : (entries.map fun e => memberText e.1).Nodup) :
    Ordered.Distinct (rereadMembers false entries) := by
  have texts : rereadMembers false entries =
      entries.map fun e => (.text (memberText e.1), rereadValue false e.2) := by
    clear h
    induction entries with
    | nil => rfl
    | cons e es ih =>
      rw [rereadMembers, ih, rereadText_plain]
      rfl
  rw [texts]
  exact List.pairwise_map.mpr ((List.pairwise_map.mp h).imp text_apart)

theorem spells_items {items : List Native}
    (all : ∀ v ∈ items, ∀ depth text, writeAt compact depth v = .ok text →
      Spells gap text.toList (rereadValue false v))
    {depth : Nat} {parts : List String} (h : writeItems compact depth items = .ok parts) :
    List.Forall₂ (fun part v => Spells gap part.toList v) parts (rereadItems false items) := by
  induction items generalizing parts with
  | nil =>
    cases h
    exact .nil
  | cons v vs ih =>
    obtain ⟨first, others⟩ := List.forall_mem_cons.mp all
    obtain ⟨text, here, h⟩ := Attempt.bind_ok.mp h
    obtain ⟨texts, after, he⟩ := Attempt.bind_ok.mp h
    cases he
    exact .cons (first depth text here) (ih others after)

theorem spells_members {entries : List (Native × Native)}
    (all : ∀ e ∈ entries, ∀ depth text, writeAt compact depth e.2 = .ok text →
      Spells gap text.toList (rereadValue false e.2))
    {depth : Nat} {parts : List String} (h : writeMembers compact depth entries = .ok parts) :
    List.Forall₂ (SpellsMember gap) parts (rereadMembers false entries) := by
  induction entries generalizing parts with
  | nil =>
    cases h
    exact .nil
  | cons e es ih =>
    obtain ⟨first, others⟩ := List.forall_mem_cons.mp all
    obtain ⟨name, named, h⟩ := Attempt.bind_ok.mp h
    obtain ⟨text, here, h⟩ := Attempt.bind_ok.mp h
    obtain ⟨texts, after, he⟩ := Attempt.bind_ok.mp h
    cases he
    have member : memberText e.1 = name := by rw [memberText, named]; rfl
    rw [rereadMembers, member, rereadText_plain]
    exact .cons (.mk name (first depth text here)) (ih others after)

/-- What is written without spaces spells what it is read as. -/
theorem spells_written {v : Native} (apart : v.Everywhere NamesApart) {depth : Nat}
    {text : String} (h : writeAt compact depth v = .ok text) :
    Spells gap text.toList (rereadValue false v) := by
  induction v generalizing depth text with
  | null =>
    cases h
    exact .null
  | bool b =>
    cases h
    exact .bool b
  | int n => exact spells_int h
  | float x => exact spells_float h
  | text s =>
    cases h
    exact spells_text s
  | bytes bs =>
    rw [writeAt] at h
    rw [rereadValue, ← Except.ok.inj h]
    exact spells_text (Text.quotedBytes bs)
  | list items ih | tuple items ih =>
    obtain ⟨parts, written, he⟩ := Attempt.bind_ok.mp h
    cases he
    exact spells_list (spells_items (fun v hv _ _ => ih v hv (apart.inside hv)) written)
  | table entries ih =>
    obtain ⟨parts, written, he⟩ := Attempt.bind_ok.mp h
    cases he
    have distinct := rereadMembers_distinct apart.here
    rw [rereadValue, ofList_distinct distinct]
    exact spells_table
      (spells_members (fun e he _ _ => (ih e he).2 (apart.entry he).2) written) distinct

end HostBridge.Json
