import HostBridge.Proofs.JsonText

namespace HostBridge.Json

/-- A reading gives the result, if it does not meet a whole number over the digit limit. -/
def Yields {α : Type} (r : Reading α) (a : α) : Prop :=
  r = .ok a ∨ r = .error .tooManyDigits

theorem Yields.bind {α β : Type} {r : Reading α} {a : α} {f : α → Reading β} {b : β}
    (h : Yields r a) (next : Yields (f a) b) : Yields (r >>= f) b := by
  rcases h with rfl | rfl
  · exact next
  · exact .inr rfl

theorem Yields.pure {α : Type} (a : α) : Yields (pure a : Reading α) a :=
  .inl rfl

/-- What is read is the only thing that is yielded. -/
theorem Yields.eq_of_ok {α : Type} {a b : α} (h : Yields (.ok a) b) : a = b := by
  rcases h with h | h
  · exact Except.ok.inj h
  · cases h

/-- Characters that are read as a value where a value is expected. They do not begin with a blank or
with what closes a list. -/
structure ReadsAs (text : List Char) (v : Native) : Prop where
  begins : ∃ c cs, text = c :: cs ∧ isSpace c = false ∧ c ≠ ']'
  reads : ∀ fuel rest, 2 * text.length ≤ fuel → Ends rest →
    Yields (readValue fuel (text ++ rest)) (v, rest)

theorem ends_append {blanks rest : List Char} (blank : ∀ c ∈ blanks, isSpace c = true)
    (ends : Ends rest) : Ends (blanks ++ rest) := by
  cases blanks with
  | nil => exact ends
  | cons c blanks =>
    rintro _ ⟨⟩
    exact .inl (blank c List.mem_cons_self)

theorem readsAs_null : ReadsAs "null".toList .null :=
  ⟨denotes_null.begins,
    fun fuel rest enough ends => .inl (denotes_null.reads fuel rest enough ends)⟩

theorem readsAs_bool (b : Bool) : ReadsAs (if b then "true" else "false").toList (.bool b) :=
  ⟨(denotes_bool b).begins,
    fun fuel rest enough ends => .inl ((denotes_bool b).reads fuel rest enough ends)⟩

theorem SpellsNumber.begins {negative : Bool} {cs : List Char} {v : Native}
    (h : SpellsNumber negative cs v) : ∃ c ds, cs = c :: ds ∧ c.isDigit := by
  cases h with
  | whole whole => exact whole.begins
  | decimal whole =>
    obtain ⟨c, ds, rfl, hc⟩ := whole.begins
    exact ⟨c, _, rfl, hc⟩

theorem readUnsigned_yields {negative : Bool} {cs rest : List Char} {v : Native}
    (h : SpellsNumber negative cs v) (ends : Ends rest) :
    Yields (readUnsigned negative (cs ++ rest)) (v, rest) := by
  cases h with
  | @whole ds whole =>
    rw [readUnsigned_whole negative whole ends]
    refine Yields.bind ?_ (.pure _)
    unfold wholeNumber
    split
    · exact .inl rfl
    · exact .inr rfl
  | decimal whole pointed powered marked numeral =>
    exact .inl (readUnsigned_decimal negative whole pointed powered marked numeral ends)

theorem readsAs_number {negative : Bool} {cs : List Char} {v : Native}
    (h : SpellsNumber negative cs v) : ReadsAs (signChars negative ++ cs) v := by
  obtain ⟨c, ds, rfl, hc⟩ := h.begins
  refine ⟨?_, fun fuel rest enough ends => ?_⟩
  · cases negative
    · exact ⟨c, ds, rfl, isSpace_digit hc, ne_of_digit hc rfl⟩
    · exact ⟨'-', c :: ds, rfl, by decide, by decide⟩
  · rw [List.length_append, List.length_cons] at enough
    obtain ⟨n, rfl⟩ := Nat.exists_eq_succ_of_ne_zero (by omega : fuel ≠ 0)
    have number : readValue (n + 1) (signChars negative ++ c :: ds ++ rest) =
        readUnsigned negative (c :: ds ++ rest) := by
      rw [List.append_assoc, List.cons_append, ← readNumber_signed negative hc]
      cases negative
      · exact readValue_number (.inl hc) n _
      · exact readValue_number (.inr rfl) n _
    rw [number]
    exact readUnsigned_yields h ends

theorem readsAs_text {cs ds : List Char} (h : SpellsChars cs ds) :
    ReadsAs ('"' :: (cs ++ ['"'])) (.text (String.ofList ds)) := by
  refine ⟨⟨'"', _, rfl, rfl, by decide⟩, fun fuel rest enough _ => ?_⟩
  obtain ⟨n, rfl⟩ := Nat.exists_eq_succ_of_ne_zero (Nat.ne_zero_of_lt enough)
  have read := readString_append h rest (Nat.le_refl _)
  rw [List.cons_append, List.append_assoc, List.singleton_append]
  simp only [readValue, read, Attempt.ok_bind]
  exact .pure _

theorem Item.skipSpace_chars {i : Item} (spaced : i.Spaced (isSpace · = true))
    (value : ReadsAs i.text i.value) (rest : List Char) :
    skipSpace (i.chars ++ rest) = i.text ++ (i.after ++ rest) := by
  obtain ⟨c, cs, begins, visible, _⟩ := value.begins
  rw [Item.chars, List.append_assoc, skipSpace_append spaced.1, List.append_assoc, begins]
  exact skipSpace_self visible _

/-- Reading an item, and skipping to the mark that follows it. -/
theorem Item.reads {i : Item} (spaced : i.Spaced (isSpace · = true))
    (value : ReadsAs i.text i.value) {c : Char} (mark : c = ',' ∨ c = ']' ∨ c = '\x7d')
    (rest : List Char) {n : Nat} (enough : 2 * i.chars.length ≤ n) :
    Yields (readValue n (skipSpace (i.chars ++ c :: rest))) (i.value, i.after ++ c :: rest) ∧
      skipSpace (i.after ++ c :: rest) = c :: rest := by
  have visible : isSpace c = false := by
    rcases mark with rfl | rfl | rfl <;> rfl
  constructor
  · rw [Item.skipSpace_chars spaced value]
    refine value.reads n _ ?_ (ends_append spaced.2 (ends_cons mark rest))
    simp only [Item.chars, List.length_append] at enough
    omega
  · rw [skipSpace_append spaced.2, skipSpace_self visible]

theorem readItems_separated {i : Item} {items : List Item}
    (spaced : ∀ j ∈ i :: items, j.Spaced (isSpace · = true))
    (values : ∀ j ∈ i :: items, ReadsAs j.text j.value) {fuel : Nat} (rest : List Char)
    (enough : 2 * (separated ((i :: items).map Item.chars)).length < fuel) :
    Yields (readItems fuel (skipSpace (separated ((i :: items).map Item.chars) ++ ']' :: rest)))
      ((i :: items).map Item.value, rest) := by
  induction items generalizing i fuel with
  | nil =>
    obtain ⟨n, rfl⟩ := Nat.exists_eq_succ_of_ne_zero (Nat.ne_zero_of_lt enough)
    rw [List.map_singleton, separated_single] at enough ⊢
    obtain ⟨read, mark⟩ := Item.reads (spaced i List.mem_cons_self) (values i List.mem_cons_self)
      (.inr (.inl rfl)) rest (by omega : _ ≤ n)
    refine read.bind ?_
    simp only [mark]
    exact .pure _
  | cons j items ih =>
    obtain ⟨here, gaps⟩ := List.forall_mem_cons.mp spaced
    obtain ⟨value, others⟩ := List.forall_mem_cons.mp values
    obtain ⟨n, rfl⟩ := Nat.exists_eq_succ_of_ne_zero (Nat.ne_zero_of_lt enough)
    rw [List.map_cons, List.map_cons, separated_cons, ← List.map_cons] at enough ⊢
    rw [List.length_append, List.length_cons] at enough
    rw [List.append_assoc, List.cons_append]
    obtain ⟨read, mark⟩ := Item.reads here value (.inl rfl)
      (separated ((j :: items).map Item.chars) ++ ']' :: rest) (by omega : _ ≤ n)
    have later := ih gaps others (by omega : _ < n)
    refine read.bind ?_
    simp only [mark]
    exact later.bind (.pure _)

/-- A list of items begins with the first of them. -/
theorem separated_begins (text : List Char) (texts : List (List Char)) :
    ∃ tail, separated (text :: texts) = text ++ tail := by
  cases texts with
  | nil => exact ⟨[], by rw [separated_single, List.append_nil]⟩
  | cons next texts => exact ⟨_, separated_cons text next texts⟩

theorem readsAs_list {i : Item} {items : List Item}
    (spaced : ∀ j ∈ i :: items, j.Spaced (isSpace · = true))
    (values : ∀ j ∈ i :: items, ReadsAs j.text j.value) :
    ReadsAs ('[' :: (separated ((i :: items).map Item.chars) ++ [']']))
      (.list ((i :: items).map Item.value)) := by
  refine ⟨⟨'[', _, rfl, rfl, by decide⟩, fun fuel rest enough _ => ?_⟩
  obtain ⟨n, rfl⟩ := Nat.exists_eq_succ_of_ne_zero (Nat.ne_zero_of_lt enough)
  rw [List.length_cons, List.length_append] at enough
  have read := readItems_separated spaced values rest (by omega : _ < n)
  obtain ⟨tail, first⟩ := separated_begins i.chars (items.map Item.chars)
  obtain ⟨c, cs, begins, _, open_left⟩ := (values i List.mem_cons_self).begins
  have skipped := Item.skipSpace_chars (spaced i List.mem_cons_self)
    (values i List.mem_cons_self) (tail ++ ']' :: rest)
  rw [begins, List.cons_append, ← List.append_assoc i.chars, ← first] at skipped
  rw [List.map_cons, skipped] at read
  rw [List.map_cons, List.cons_append, List.append_assoc, List.singleton_append]
  simp only [readValue, skipped]
  split
  · rename_i closed
    exact absurd (List.cons.inj closed).1 open_left
  · exact read.bind (.pure _)

theorem readsAs_noItems {cs : List Char} (blank : ∀ c ∈ cs, isSpace c = true) :
    ReadsAs ('[' :: (cs ++ [']'])) (.list []) := by
  refine ⟨⟨'[', _, rfl, rfl, by decide⟩, fun fuel rest enough _ => ?_⟩
  obtain ⟨n, rfl⟩ := Nat.exists_eq_succ_of_ne_zero (Nat.ne_zero_of_lt enough)
  have skipped : skipSpace (cs ++ ']' :: rest) = ']' :: rest := by
    rw [skipSpace_append blank, skipSpace_self rfl]
  rw [List.cons_append, List.append_assoc, List.singleton_append]
  simp only [readValue, skipped]
  exact .pure _

theorem Member.skipSpace_chars {m : Member} (spaced : m.Spaced (isSpace · = true))
    (rest : List Char) :
    skipSpace (m.chars ++ rest) =
      '"' :: (m.written ++ '"' :: (m.after ++ ':' :: (m.item.chars ++ rest))) := by
  have text : m.chars ++ rest = m.before ++
      '"' :: (m.written ++ '"' :: (m.after ++ ':' :: (m.item.chars ++ rest))) := by
    simp [Member.chars]
  rw [text, skipSpace_append spaced.1, skipSpace_self rfl]

/-- Reading a member, and going on after the mark that follows it. -/
theorem Member.reads {m : Member} (spaced : m.Spaced (isSpace · = true))
    (name : SpellsChars m.written m.name) (value : ReadsAs m.item.text m.item.value) {c : Char}
    (mark : c = ',' ∨ c = ']' ∨ c = '\x7d') (rest : List Char) {n : Nat}
    (enough : 2 * m.chars.length ≤ n) {result : List (Native × Native) × List Char}
    (next : Yields (match c :: rest with
      | '\x7d' :: rest => .ok ([m.entry], rest)
      | ',' :: rest => do
        let (members, rest) ← readMembers n (skipSpace rest)
        return (m.entry :: members, rest)
      | _ => .error .syntaxError) result) :
    Yields (readMembers (n + 1) (skipSpace (m.chars ++ c :: rest))) result := by
  have named :=
    readString_append name (m.after ++ ':' :: (m.item.chars ++ c :: rest)) (Nat.le_refl _)
  have colon : skipSpace (m.after ++ ':' :: (m.item.chars ++ c :: rest)) =
      ':' :: (m.item.chars ++ c :: rest) := by
    rw [skipSpace_append spaced.2.1, skipSpace_self rfl]
  obtain ⟨read, marked⟩ := Item.reads spaced.2.2 value mark rest (n := n) (by
    simp only [Member.chars, List.length_append, List.length_cons] at enough
    omega)
  rw [Member.skipSpace_chars spaced]
  simp only [readMembers, named, Attempt.ok_bind, colon]
  refine read.bind ?_
  simp only [marked]
  exact next

theorem readMembers_separated {m : Member} {members : List Member}
    (spaced : ∀ d ∈ m :: members, d.Spaced (isSpace · = true))
    (names : ∀ d ∈ m :: members, SpellsChars d.written d.name)
    (values : ∀ d ∈ m :: members, ReadsAs d.item.text d.item.value) {fuel : Nat}
    (rest : List Char) (enough : 2 * (separated ((m :: members).map Member.chars)).length < fuel) :
    Yields
      (readMembers fuel
        (skipSpace (separated ((m :: members).map Member.chars) ++ '\x7d' :: rest)))
      ((m :: members).map Member.entry, rest) := by
  induction members generalizing m fuel with
  | nil =>
    obtain ⟨n, rfl⟩ := Nat.exists_eq_succ_of_ne_zero (Nat.ne_zero_of_lt enough)
    rw [List.map_singleton, separated_single] at enough ⊢
    exact Member.reads (spaced m List.mem_cons_self) (names m List.mem_cons_self)
      (values m List.mem_cons_self) (.inr (.inr rfl)) rest (by omega) (.pure _)
  | cons d members ih =>
    obtain ⟨here, gaps⟩ := List.forall_mem_cons.mp spaced
    obtain ⟨name, others⟩ := List.forall_mem_cons.mp names
    obtain ⟨value, rests⟩ := List.forall_mem_cons.mp values
    obtain ⟨n, rfl⟩ := Nat.exists_eq_succ_of_ne_zero (Nat.ne_zero_of_lt enough)
    rw [List.map_cons, List.map_cons, separated_cons, ← List.map_cons] at enough ⊢
    rw [List.length_append, List.length_cons] at enough
    rw [List.append_assoc, List.cons_append]
    have later := ih gaps others rests (by omega : _ < n)
    exact Member.reads here name value (.inl rfl) _ (by omega) (later.bind (.pure _))

theorem readsAs_table {m : Member} {members : List Member}
    (spaced : ∀ d ∈ m :: members, d.Spaced (isSpace · = true))
    (names : ∀ d ∈ m :: members, SpellsChars d.written d.name)
    (values : ∀ d ∈ m :: members, ReadsAs d.item.text d.item.value)
    (distinct : Ordered.Distinct ((m :: members).map Member.entry)) :
    ReadsAs ('\x7b' :: (separated ((m :: members).map Member.chars) ++ ['\x7d']))
      (.table ((m :: members).map Member.entry)) := by
  refine ⟨⟨'\x7b', _, rfl, rfl, by decide⟩, fun fuel rest enough _ => ?_⟩
  obtain ⟨n, rfl⟩ := Nat.exists_eq_succ_of_ne_zero (Nat.ne_zero_of_lt enough)
  rw [List.length_cons, List.length_append] at enough
  have read := readMembers_separated spaced names values rest (by omega : _ < n)
  obtain ⟨tail, first⟩ := separated_begins m.chars (members.map Member.chars)
  have skipped := Member.skipSpace_chars (spaced m List.mem_cons_self) (tail ++ '\x7d' :: rest)
  rw [← List.append_assoc m.chars, ← first] at skipped
  rw [List.map_cons, skipped] at read
  rw [List.map_cons, List.cons_append, List.append_assoc, List.singleton_append]
  simp only [readValue, skipped]
  refine read.bind ?_
  simp only [ofList_distinct distinct]
  exact .pure _

theorem readsAs_noMembers {cs : List Char} (blank : ∀ c ∈ cs, isSpace c = true) :
    ReadsAs ('\x7b' :: (cs ++ ['\x7d'])) (.table []) := by
  refine ⟨⟨'\x7b', _, rfl, rfl, by decide⟩, fun fuel rest enough _ => ?_⟩
  obtain ⟨n, rfl⟩ := Nat.exists_eq_succ_of_ne_zero (Nat.ne_zero_of_lt enough)
  have skipped : skipSpace (cs ++ '\x7d' :: rest) = '\x7d' :: rest := by
    rw [skipSpace_append blank, skipSpace_self rfl]
  rw [List.cons_append, List.append_assoc, List.singleton_append]
  simp only [readValue, skipped]
  exact .pure _

theorem Spells.readsAs {cs : List Char} {v : Native} (h : Spells (isSpace · = true) cs v) :
    ReadsAs cs v := by
  induction h with
  | null => exact readsAs_null
  | bool b => exact readsAs_bool b
  | number negative number => exact readsAs_number number
  | text chars => exact readsAs_text chars
  | noItems blank => exact readsAs_noItems blank
  | list some_left spaced values ih =>
    obtain ⟨i, items, rfl⟩ := List.exists_cons_of_ne_nil some_left
    exact readsAs_list spaced ih
  | noMembers blank => exact readsAs_noMembers blank
  | table some_left spaced names values distinct ih =>
    obtain ⟨m, members, rfl⟩ := List.exists_cons_of_ne_nil some_left
    exact readsAs_table spaced names ih distinct

/-- A text of the grammar is read as what it spells, if its whole numbers keep to the limit. -/
theorem Means.read {text : String} {v : Native} (h : Means text v) : Yields (read text) v := by
  obtain ⟨i, chars, rfl, spaced, spelled⟩ := h
  have value := spelled.readsAs
  have skipped := Item.skipSpace_chars spaced value []
  rw [List.append_nil, List.append_nil, chars] at skipped
  have ended : skipSpace i.after = [] := by
    have blank := skipSpace_append spaced.2 []
    rwa [List.append_nil] at blank
  have ends := ends_append spaced.2 ends_nil
  rw [List.append_nil] at ends
  have read := value.reads (2 * (i.text ++ i.after).length + 1) i.after
    (by rw [List.length_append]; omega) ends
  simp only [Json.read, skipped]
  refine read.bind ?_
  simp only [ended, List.isEmpty_nil, ↓reduceIte]
  exact .pure _

/-- What is read of a text is all that it can mean. -/
theorem Means.unique {text : String} {v w : Native} (h : Json.read text = .ok v)
    (means : Means text w) : w = v := by
  have yields := means.read
  rw [h] at yields
  exact yields.eq_of_ok.symm

end HostBridge.Json
