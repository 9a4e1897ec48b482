import HostBridge.Proofs.JsonNumbers
import HostBridge.Proofs.JsonStrings
import Mathlib.Data.List.Forall2

namespace HostBridge.Json

/-- All on one line, with blanks at most after commas and colons. -/
structure Style.OneLine (style : Style) : Prop where
  indent : style.indent = none
  item : ∃ n, style.item.toList = ',' :: List.replicate n ' '
  member : ∃ n, style.member.toList = ':' :: List.replicate n ' '

theorem compact_oneLine : compact.OneLine :=
  ⟨rfl, ⟨0, rfl⟩, ⟨0, rfl⟩⟩

theorem spaced_oneLine : spaced.OneLine :=
  ⟨rfl, ⟨1, rfl⟩, ⟨1, rfl⟩⟩

/-- A text that is read as a value where a value is expected. It does not begin with a blank or with
what closes a list. -/
structure Denotes (text : String) (v : Native) : Prop where
  begins : ∃ c cs, text.toList = c :: cs ∧ isSpace c = false ∧ c ≠ ']'
  line : '\n' ∉ text.toList
  reads : ∀ fuel rest, 2 * text.toList.length ≤ fuel → Ends rest →
    readValue fuel (text.toList ++ rest) = .ok (v, rest)

theorem skipSpace_self {c : Char} (h : isSpace c = false) (cs : List Char) :
    skipSpace (c :: cs) = c :: cs := by
  rw [skipSpace, List.dropWhile_cons, h]
  rfl

theorem skipSpace_append {blanks : List Char} (blank : ∀ c ∈ blanks, isSpace c = true)
    (cs : List Char) : skipSpace (blanks ++ cs) = skipSpace cs :=
  List.dropWhile_append_of_pos blank

theorem skipSpace_blanks {c : Char} (h : isSpace c = false) (n : Nat) (cs : List Char) :
    skipSpace (List.replicate n ' ' ++ c :: cs) = c :: cs := by
  have blank : ∀ c ∈ List.replicate n ' ', isSpace c = true := by
    intro c hc
    rw [List.eq_of_mem_replicate hc]
    rfl
  rw [skipSpace_append blank, skipSpace_self h]

theorem ends_nil : Ends [] := by
  intro c hc
  cases hc

theorem ends_cons {c : Char} (h : c = ',' ∨ c = ']' ∨ c = '\x7d') (rest : List Char) :
    Ends (c :: rest) := by
  rintro _ ⟨⟩
  exact .inr h

theorem Denotes.read {text : String} {v : Native} (h : Denotes text v) : read text = .ok v := by
  obtain ⟨c, cs, chars, visible, _⟩ := h.begins
  have same : skipSpace text.toList = text.toList := by
    rw [chars]
    exact skipSpace_self visible cs
  have value := h.reads (2 * text.toList.length + 1) [] (Nat.le_succ _) ends_nil
  rw [List.append_nil] at value
  simp only [Json.read, same, value]
  rfl

theorem ne_of_digit {c d : Char} (digit : c.isDigit = true) (other : d.isDigit = false) :
    c ≠ d := by
  rintro rfl
  rw [other] at digit
  cases digit

theorem isSpace_digit {c : Char} (digit : c.isDigit = true) : isSpace c = false := by
  simp only [isSpace, Bool.or_eq_false_iff, beq_eq_false_iff_ne]
  refine ⟨⟨⟨?_, ?_⟩, ?_⟩, ?_⟩ <;> exact ne_of_digit digit (by decide)

theorem readValue_number {c : Char} (h : c.isDigit ∨ c = '-') (n : Nat) (cs : List Char) :
    readValue (n + 1) (c :: cs) = readNumber (c :: cs) := by
  have not_begins : ∀ d, d.isDigit = false → '-' ≠ d → c ≠ d := by
    intro d other unsigned
    rcases h with digit | rfl
    · exact ne_of_digit digit other
    · exact unsigned
  unfold readValue
  split
  case h_7 => rfl
  all_goals
    rename_i same
    exact absurd (List.cons.inj same).1 (not_begins _ (by decide) (by decide))

theorem readUnsigned_no_list {negative : Bool} {cs rest : List Char} {items : List Native} :
    readUnsigned negative cs ≠ .ok (.list items, rest) := by
  intro h
  unfold readUnsigned at h
  split at h
  · cases h
  · dsimp only at h
    split at h
    · unfold wholeNumber at h
      split at h <;> cases h
    · split at h <;> cases h

theorem readNumber_no_list {cs rest : List Char} {items : List Native} :
    readNumber cs ≠ .ok (.list items, rest) := by
  unfold readNumber
  split
  · nofun
  · nofun
  · nofun
  · exact readUnsigned_no_list
  · exact readUnsigned_no_list

/-- What begins with a minus sign is at most a number. -/
theorem read_list_unsigned {text : String} {items : List Native}
    (h : read text = .ok (.list items)) : text.toList.head? ≠ some '-' := by
  intro signed
  obtain ⟨cs, chars⟩ := List.head?_eq_some_iff.mp signed
  have same : skipSpace ('-' :: cs) = '-' :: cs := skipSpace_self rfl cs
  simp only [Json.read, chars, same, readValue_number (.inr rfl)] at h
  cases number : readNumber ('-' :: cs) with
  | error e =>
    rw [number] at h
    cases h
  | ok result =>
    obtain ⟨v, rest⟩ := result
    rw [number, Attempt.ok_bind] at h
    dsimp only at h
    split at h
    · cases h
      exact readNumber_no_list number
    · cases h

theorem denotes_null : Denotes "null" .null := by
  refine ⟨⟨'n', _, rfl, rfl, by decide⟩, by decide, fun fuel rest enough _ => ?_⟩
  obtain ⟨n, rfl⟩ := Nat.exists_eq_succ_of_ne_zero (Nat.ne_zero_of_lt enough)
  rfl

theorem denotes_bool (b : Bool) : Denotes (if b then "true" else "false") (.bool b) := by
  cases b
  · refine ⟨⟨'f', _, rfl, rfl, by decide⟩, by decide, fun fuel rest enough _ => ?_⟩
    obtain ⟨n, rfl⟩ := Nat.exists_eq_succ_of_ne_zero (Nat.ne_zero_of_lt enough)
    rfl
  · refine ⟨⟨'t', _, rfl, rfl, by decide⟩, by decide, fun fuel rest enough _ => ?_⟩
    obtain ⟨n, rfl⟩ := Nat.exists_eq_succ_of_ne_zero (Nat.ne_zero_of_lt enough)
    rfl

/-- A sign and what is read as a number without one. -/
theorem denotes_number (negative : Bool) (cs : List Char) {text : String} {v : Native}
    (chars : text.toList = signChars negative ++ cs) (digit : ∃ c ds, cs = c :: ds ∧ c.isDigit)
    (line : '\n' ∉ cs)
    (reads : ∀ rest, Ends rest → readUnsigned negative (cs ++ rest) = .ok (v, rest)) :
    Denotes text v := by
  obtain ⟨c, ds, rfl, hc⟩ := digit
  refine ⟨?_, ?_, fun fuel rest enough ends => ?_⟩
  · rw [chars]
    cases negative
    · exact ⟨c, ds, rfl, isSpace_digit hc, ne_of_digit hc (by decide)⟩
    · exact ⟨'-', c :: ds, rfl, by decide, by decide⟩
  · rw [chars]
    cases negative
    · exact line
    · exact List.not_mem_cons_of_ne_of_not_mem (by decide) line
  · have some_left : 0 < text.toList.length := by
      rw [chars, List.length_append, List.length_cons]
      omega
    obtain ⟨n, rfl⟩ := Nat.exists_eq_succ_of_ne_zero (by omega : fuel ≠ 0)
    rw [chars, List.append_assoc]
    have number : readValue (n + 1) (signChars negative ++ (c :: ds ++ rest)) =
        readNumber (signChars negative ++ (c :: ds ++ rest)) := by
      cases negative
      · exact readValue_number (.inl hc) n _
      · exact readValue_number (.inr rfl) n _
    exact number.trans ((readNumber_signed negative hc _).trans (reads rest ends))

theorem signed_natAbs (n : Int) :
    (if decide (n < 0) = true then -(n.natAbs : Int) else n.natAbs) = n := by
  rcases Int.lt_or_le n 0 with below | above
  · rw [decide_eq_true below, if_pos rfl]
    omega
  · rw [decide_eq_false (Int.not_lt.mpr above), if_neg Bool.false_ne_true]
    omega

theorem denotes_int {n : Int} (short : n.natAbs < tooLarge) :
    Denotes (decimalText n) (.int n) := by
  refine denotes_number (decide (n < 0)) (digitsOf n.natAbs) ?_ (digitsOf_whole _).begins ?_ ?_
  · rw [decimalText, signed_toList, String.toList_ofList]
  · intro broken
    exact absurd (digitsOf_digits _ _ broken) (by decide)
  · intro rest ends
    rw [readUnsigned_digitsOf _ short ends, signed_natAbs]

theorem digits_line {ds : List Char} (digits : ∀ c ∈ ds, c.isDigit) : '\n' ∉ ds := fun broken =>
  absurd (digits _ broken) (by decide)

theorem spelling_line (n : Spelling) : '\n' ∉ n.text := by
  have pointed : '\n' ∉ n.pointed := by
    unfold Spelling.pointed
    split
    · exact List.not_mem_nil
    · exact List.not_mem_cons_of_ne_of_not_mem (by decide) (digits_line n.fractionDigits)
  have power : '\n' ∉ n.power := by
    unfold Spelling.power
    split
    · exact List.not_mem_nil
    · refine List.not_mem_cons_of_ne_of_not_mem (by decide)
        (List.not_mem_cons_of_ne_of_not_mem ?_ (digits_line (Numeral.padded_digits 2 _)))
      split <;> decide
  simp only [Spelling.text, List.mem_append, not_or]
  exact ⟨⟨digits_line n.wholeDigits, pointed⟩, power⟩

theorem spelling_begins (n : Spelling) : ∃ c cs, n.text = c :: cs ∧ c.isDigit := by
  obtain ⟨c, cs, whole, digit⟩ := (spelling_whole n).begins
  exact ⟨c, _, by rw [Spelling.text, whole]; rfl, digit⟩

theorem denotes_float {x : Binary64} {text : String} (h : floatText x = .ok text) :
    Denotes text (.float x) := by
  cases x with
  | nan | infinite => cases h
  | finite negative m p canonical =>
    cases h
    obtain ⟨n, chars, value⟩ := Binary64.text_spelled negative canonical
    refine denotes_number negative n.text chars (spelling_begins n) (spelling_line n) ?_
    intro rest ends
    rw [readUnsigned_spelled negative n ends, value]

def rereadText (ascii : Bool) (s : String) : String :=
  String.ofList (reread ascii s.toList)

theorem stringText_toList (ascii : Bool) (s : String) :
    (stringText ascii s).toList = '"' :: stringChars ascii s.toList ++ ['"'] :=
  String.toList_ofList

theorem readString_stringText (ascii : Bool) (s : String) (rest : List Char) :
    ∃ cs, (stringText ascii s).toList ++ rest = '"' :: cs ∧
      readString cs.length cs = .ok ((rereadText ascii s).toList, rest) := by
  refine ⟨stringChars ascii s.toList ++ '"' :: rest, ?_, ?_⟩
  · rw [stringText_toList]
    simp
  · rw [rereadText, String.toList_ofList]
    exact readString_written ascii s.toList rest (Nat.le_refl _)

theorem stringText_line (ascii : Bool) (s : String) : '\n' ∉ (stringText ascii s).toList := by
  rw [stringText_toList]
  simp [stringChars_line]

theorem denotes_text (ascii : Bool) (s : String) :
    Denotes (stringText ascii s) (.text (rereadText ascii s)) := by
  refine ⟨⟨'"', _, stringText_toList ascii s, rfl, by decide⟩, stringText_line ascii s, ?_⟩
  intro fuel rest enough _
  rw [stringText_toList] at enough
  obtain ⟨n, rfl⟩ := Nat.exists_eq_succ_of_ne_zero (Nat.ne_zero_of_lt enough)
  obtain ⟨cs, chars, read⟩ := readString_stringText ascii s rest
  rw [chars, readValue]
  simp [read]

/-- The parts of a list or a table with what stands between them. -/
def joinParts (item : String) (parts : List String) : List Char :=
  item.toList.intercalate (parts.map String.toList)

theorem joinParts_single (item part : String) : joinParts item [part] = part.toList :=
  List.intercalate_singleton

theorem joinParts_cons (item part next : String) (parts : List String) :
    joinParts item (part :: next :: parts) =
      part.toList ++ (item.toList ++ joinParts item (next :: parts)) := by
  simp only [joinParts, List.map_cons, List.intercalate_cons_cons, List.append_assoc]

theorem enclose_toList {style : Style} (one : style.OneLine) (depth : Nat)
    (opening closing : String) (parts : List String) :
    (enclose style depth opening closing parts).toList =
      opening.toList ++ joinParts style.item parts ++ closing.toList := by
  have gap : ∀ d, lineBreak style d = "" := fun d => by rw [lineBreak, one.indent]
  unfold enclose
  cases parts with
  | nil => simp [joinParts]
  | cons part parts => simp [gap, joinParts, String.toList_intercalate]

theorem joinParts_line {item : String} (separator : '\n' ∉ item.toList) {parts : List String}
    (lines : ∀ part ∈ parts, '\n' ∉ part.toList) : '\n' ∉ joinParts item parts := by
  induction parts with
  | nil => exact List.not_mem_nil
  | cons part parts ih =>
    obtain ⟨first, others⟩ := List.forall_mem_cons.mp lines
    cases parts with
    | nil => rwa [joinParts_single]
    | cons next parts =>
      rw [joinParts_cons, List.mem_append, List.mem_append, not_or, not_or]
      exact ⟨first, separator, ih others⟩

theorem joinParts_begins {part : String} {c : Char} {cs : List Char}
    (begins : part.toList = c :: cs) (item : String) (parts : List String) :
    ∃ ds, joinParts item (part :: parts) = c :: ds := by
  cases parts with
  | nil => exact ⟨cs, by rw [joinParts_single, begins]⟩
  | cons next parts => exact ⟨_, by rw [joinParts_cons, begins]; rfl⟩

theorem readItems_denotes {style : Style} (one : style.OneLine) {part : String} {v : Native}
    {parts : List String} {vs : List Native} (first : Denotes part v)
    (others : List.Forall₂ Denotes parts vs) {fuel : Nat} (rest : List Char)
    (enough : 2 * (joinParts style.item (part :: parts)).length < fuel) :
    readItems fuel (joinParts style.item (part :: parts) ++ ']' :: rest) = .ok (v :: vs, rest) := by
  obtain ⟨gap, item⟩ := one.item
  obtain ⟨n, rfl⟩ := Nat.exists_eq_succ_of_ne_zero (Nat.ne_zero_of_lt enough)
  induction others generalizing part v n with
  | nil =>
    rw [joinParts_single] at enough ⊢
    have read := first.reads n (']' :: rest) (by omega) (ends_cons (.inr (.inl rfl)) rest)
    simp only [readItems, read]
    rfl
  | @cons next w parts vs second others ih =>
    obtain ⟨c, _, begins, visible, _⟩ := second.begins
    obtain ⟨cs, joined⟩ := joinParts_begins begins style.item parts
    rw [joinParts_cons] at enough ⊢
    simp only [List.length_append, item, List.length_cons] at enough
    obtain ⟨m, rfl⟩ := Nat.exists_eq_succ_of_ne_zero (by omega : n ≠ 0)
    have later := ih second m (by omega)
    have skipped : skipSpace (List.replicate gap ' ' ++
        (joinParts style.item (next :: parts) ++ ']' :: rest)) =
        joinParts style.item (next :: parts) ++ ']' :: rest := by
      rw [joined]
      exact skipSpace_blanks visible gap _
    have read := first.reads (m + 1) (',' :: (List.replicate gap ' ' ++
      (joinParts style.item (next :: parts) ++ ']' :: rest))) (by omega)
      (ends_cons (.inl rfl) _)
    have comma : ∀ cs, skipSpace (',' :: cs) = ',' :: cs := skipSpace_self rfl
    simp only [List.append_assoc, item, List.cons_append]
    rw [readItems, read, Attempt.ok_bind]
    simp only [comma, skipped, later, Attempt.ok_bind]
    rfl

/-- What encloses parts: two brackets around a line. -/
theorem enclose_one {style : Style} (one : style.OneLine) (depth : Nat) (opening closing : String)
    {a b : Char} (opens : opening.toList = [a]) (closes : closing.toList = [b])
    (parts : List String) :
    (enclose style depth opening closing parts).toList = a :: (joinParts style.item parts ++ [b]) ∧
      (enclose style depth opening closing parts).toList.length =
        (joinParts style.item parts).length + 2 := by
  have chars := enclose_toList one depth opening closing parts
  rw [opens, closes, List.append_assoc] at chars
  refine ⟨chars, ?_⟩
  rw [chars]
  simp

theorem enclosed_line {style : Style} (one : style.OneLine) {a b : Char} (ha : '\n' ≠ a)
    (hb : '\n' ≠ b) {parts : List String} (lines : ∀ part ∈ parts, '\n' ∉ part.toList) :
    '\n' ∉ a :: (joinParts style.item parts ++ [b]) := by
  have separator : '\n' ∉ style.item.toList := by
    obtain ⟨gap, item⟩ := one.item
    simp [item]
  simp [ha, hb, joinParts_line separator lines]

theorem denotes_list {style : Style} (one : style.OneLine) (depth : Nat) {parts : List String}
    {vs : List Native} (h : List.Forall₂ Denotes parts vs) :
    Denotes (enclose style depth "[" "]" parts) (.list vs) := by
  obtain ⟨chars, length⟩ := @enclose_one style one depth "[" "]" '[' ']' rfl rfl parts
  have lines := ((List.forall₂_and_left parts vs).mp (h.imp fun _ _ part => ⟨part.line, part⟩)).1
  refine ⟨⟨'[', _, chars, rfl, by decide⟩, ?_, ?_⟩
  · rw [chars]
    exact enclosed_line one (by decide) (by decide) lines
  · intro fuel rest enough _
    rw [length] at enough
    obtain ⟨n, rfl⟩ := Nat.exists_eq_succ_of_ne_zero (Nat.ne_zero_of_lt enough)
    rw [chars, List.cons_append, List.append_assoc]
    cases h with
    | nil => rfl
    | @cons part v parts vs first others =>
      obtain ⟨c, _, begins, visible, not_closed⟩ := first.begins
      obtain ⟨cs, joined⟩ := joinParts_begins begins style.item parts
      have read := readItems_denotes one first others rest (by omega : _ < n)
      rw [joined] at read ⊢
      simp only [List.cons_append, List.nil_append] at read ⊢
      simp [readValue, skipSpace_self visible, not_closed, read]

/-- A text that is read as a member of a table. -/
inductive MemberOf (style : Style) : String → Native × Native → Prop
  | mk (name : String) {text : String} {v : Native} (value : Denotes text v) :
      MemberOf style (stringText style.ascii name ++ style.member ++ text)
        (.text (rereadText style.ascii name), v)

theorem MemberOf.begins {style : Style} {part : String} {e : Native × Native}
    (h : MemberOf style part e) : ∃ cs, part.toList = '"' :: cs := by
  cases h with
  | @mk name text v value =>
    refine ⟨stringChars style.ascii name.toList ++ ['"'] ++ style.member.toList ++ text.toList, ?_⟩
    simp [stringText_toList]

theorem MemberOf.line {style : Style} (one : style.OneLine) {part : String} {e : Native × Native}
    (h : MemberOf style part e) : '\n' ∉ part.toList := by
  obtain ⟨gap, member⟩ := one.member
  cases h with
  | mk name value => simp [member, stringText_line, value.line]

/-- Reading a member, and what follows it. -/
theorem MemberOf.read {style : Style} (one : style.OneLine) {part : String} {e : Native × Native}
    (h : MemberOf style part e) {n : Nat} {rest : List Char}
    (enough : 2 * part.toList.length ≤ n) (ends : Ends rest) :
    readMembers (n + 1) (part.toList ++ rest) = match skipSpace rest with
      | '\x7d' :: rest => .ok ([e], rest)
      | ',' :: rest => do
        let (members, rest) ← readMembers n (skipSpace rest)
        return (e :: members, rest)
      | _ => .error .syntaxError := by
  obtain ⟨gap, member⟩ := one.member
  cases h with
  | @mk name text v value =>
    obtain ⟨c, cs, begins, visible, _⟩ := value.begins
    obtain ⟨ds, chars, read⟩ := readString_stringText style.ascii name
      (':' :: (List.replicate gap ' ' ++ (text.toList ++ rest)))
    have skipped : skipSpace (List.replicate gap ' ' ++ (text.toList ++ rest)) =
        text.toList ++ rest := by
      rw [begins]
      exact skipSpace_blanks visible gap _
    have colon : ∀ cs, skipSpace (':' :: cs) = ':' :: cs := skipSpace_self rfl
    have reads := value.reads n rest (by
      simp only [String.toList_append, List.length_append] at enough
      omega) ends
    have whole :
        (stringText style.ascii name ++ style.member ++ text).toList ++ rest = '"' :: ds := by
      rw [← chars]
      simp [member]
    rw [whole, readMembers, read, Attempt.ok_bind]
    simp only [colon, skipped, reads, Attempt.ok_bind, String.ofList_toList]
    rfl

theorem readMembers_denotes {style : Style} (one : style.OneLine) {part : String}
    {e : Native × Native} {parts : List String} {es : List (Native × Native)}
    (first : MemberOf style part e) (others : List.Forall₂ (MemberOf style) parts es) {fuel : Nat}
    (rest : List Char) (enough : 2 * (joinParts style.item (part :: parts)).length < fuel) :
    readMembers fuel (joinParts style.item (part :: parts) ++ '\x7d' :: rest) =
      .ok (e :: es, rest) := by
  obtain ⟨gap, item⟩ := one.item
  obtain ⟨n, rfl⟩ := Nat.exists_eq_succ_of_ne_zero (Nat.ne_zero_of_lt enough)
  have closed : ∀ cs, skipSpace ('\x7d' :: cs) = '\x7d' :: cs := skipSpace_self rfl
  have comma : ∀ cs, skipSpace (',' :: cs) = ',' :: cs := skipSpace_self rfl
  induction others generalizing part e n with
  | nil =>
    rw [joinParts_single] at enough ⊢
    rw [first.read one (by omega) (ends_cons (.inr (.inr rfl)) rest), closed]
    rfl
  | @cons next f parts es second others ih =>
    obtain ⟨cs, begins⟩ := second.begins
    obtain ⟨ds, joined⟩ := joinParts_begins begins style.item parts
    rw [joinParts_cons] at enough ⊢
    simp only [List.length_append, item, List.length_cons] at enough
    obtain ⟨m, rfl⟩ := Nat.exists_eq_succ_of_ne_zero (by omega : n ≠ 0)
    have later := ih second m (by omega)
    have skipped : skipSpace (List.replicate gap ' ' ++
        (joinParts style.item (next :: parts) ++ '\x7d' :: rest)) =
        joinParts style.item (next :: parts) ++ '\x7d' :: rest := by
      rw [joined]
      exact skipSpace_blanks rfl gap _
    simp only [List.append_assoc, item, List.cons_append]
    rw [first.read one (by omega) (ends_cons (.inl rfl) _), comma]
    simp only [skipped, later, Attempt.ok_bind]
    rfl

theorem denotes_table {style : Style} (one : style.OneLine) (depth : Nat) {parts : List String}
    {es : List (Native × Native)} (h : List.Forall₂ (MemberOf style) parts es) :
    Denotes (enclose style depth "\x7b" "\x7d" parts) (.table (Ordered.ofList es)) := by
  obtain ⟨chars, length⟩ := @enclose_one style one depth "\x7b" "\x7d" '\x7b' '\x7d' rfl rfl parts
  have lines :=
    ((List.forall₂_and_left parts es).mp (h.imp fun _ _ part => ⟨part.line one, part⟩)).1
  refine ⟨⟨'\x7b', _, chars, rfl, by decide⟩, ?_, ?_⟩
  · rw [chars]
    exact enclosed_line one (by decide) (by decide) lines
  · intro fuel rest enough _
    rw [length] at enough
    obtain ⟨n, rfl⟩ := Nat.exists_eq_succ_of_ne_zero (Nat.ne_zero_of_lt enough)
    rw [chars, List.cons_append, List.append_assoc]
    cases h with
    | nil => rfl
    | @cons part e parts es first others =>
      obtain ⟨cs, begins⟩ := first.begins
      obtain ⟨ds, joined⟩ := joinParts_begins begins style.item parts
      have read := readMembers_denotes one first others rest (by omega : _ < n)
      have quote : ∀ cs, skipSpace ('"' :: cs) = '"' :: cs := skipSpace_self rfl
      rw [joined] at read ⊢
      simp only [List.cons_append, List.nil_append] at read ⊢
      simp [readValue, quote, read]

/-- The name that a key is written by. -/
def memberText (k : Native) : String :=
  (memberName k).toOption.getD ""

mutual

/-- What the text of a value is read as. -/
def rereadValue (ascii : Bool) : Native → Native
  | .text s => .text (rereadText ascii s)
  | .bytes bs => .text (rereadText ascii (Text.quotedBytes bs))
  | .list items | .tuple items => .list (rereadItems ascii items)
  | .table entries => .table (Ordered.ofList (rereadMembers ascii entries))
  | v => v

def rereadItems (ascii : Bool) : List Native → List Native
  | [] => []
  | v :: vs => rereadValue ascii v :: rereadItems ascii vs

def rereadMembers (ascii : Bool) : List (Native × Native) → List (Native × Native)
  | [] => []
  | (k, v) :: es =>
    (.text (rereadText ascii (memberText k)), rereadValue ascii v) :: rereadMembers ascii es

end

/-- Whatever is written of a value is read as the value has it. -/
def Written (style : Style) (v : Native) : Prop :=
  ∀ depth text, writeAt style depth v = .ok text → Denotes text (rereadValue style.ascii v)

theorem written_int {n : Int} {text : String} (h : intText n = .ok text) :
    Denotes text (.int n) := by
  unfold intText decimalText? at h
  split at h
  · rename_i s short
    cases h
    split at short
    · rename_i small
      cases short
      exact denotes_int small
    · cases short
  · cases h

theorem written_items {style : Style} {items : List Native} (all : ∀ v ∈ items, Written style v)
    {depth : Nat} {parts : List String} (h : writeItems style depth items = .ok parts) :
    List.Forall₂ Denotes parts (rereadItems style.ascii items) := by
  induction items generalizing parts with
  | nil =>
    cases h
    exact .nil
  | cons v vs ih =>
    obtain ⟨first, others⟩ := List.forall_mem_cons.mp all
    obtain ⟨text, here, h⟩ := Attempt.bind_ok.mp h
    obtain ⟨texts, after, he⟩ := Attempt.bind_ok.mp h
    cases he
    exact .cons (first depth text here) (ih others after)

theorem written_members {style : Style} {entries : List (Native × Native)}
    (all : ∀ e ∈ entries, Written style e.2) {depth : Nat} {parts : List String}
    (h : writeMembers style depth entries = .ok parts) :
    List.Forall₂ (MemberOf style) parts (rereadMembers style.ascii entries) := by
  induction entries generalizing parts with
  | nil =>
    cases h
    exact .nil
  | cons e es ih =>
    obtain ⟨first, others⟩ := List.forall_mem_cons.mp all
    obtain ⟨name, named, h⟩ := Attempt.bind_ok.mp h
    obtain ⟨text, here, h⟩ := Attempt.bind_ok.mp h
    obtain ⟨texts, after, he⟩ := Attempt.bind_ok.mp h
    cases he
    have member : memberText e.1 = name := by rw [memberText, named]; rfl
    rw [rereadMembers, member]
    exact .cons (.mk name (first depth text here)) (ih others after)

theorem written {style : Style} (one : style.OneLine) (v : Native) : Written style v := by
  induction v with
  | null =>
    intro depth text h
    cases h
    exact denotes_null
  | bool b =>
    intro depth text h
    cases h
    exact denotes_bool b
  | int n => exact fun depth text h => written_int h
  | float x => exact fun depth text h => denotes_float h
  | text s =>
    intro depth text h
    cases h
    exact denotes_text style.ascii s
  | bytes bs =>
    intro depth text h
    rw [writeAt] at h
    rw [rereadValue, ← Except.ok.inj h]
    exact denotes_text style.ascii (Text.quotedBytes bs)
  | list items ih | tuple items ih =>
    intro depth text h
    obtain ⟨parts, written, he⟩ := Attempt.bind_ok.mp h
    cases he
    exact denotes_list one depth (written_items ih written)
  | table entries ih =>
    intro depth text h
    obtain ⟨parts, written, he⟩ := Attempt.bind_ok.mp h
    cases he
    exact denotes_table one depth (written_members (fun e he => (ih e he).2) written)

/-- What is written on one line is one line, and it is read. -/
theorem read_write {style : Style} (one : style.OneLine) {v : Native} {text : String}
    (h : write style v = .ok text) :
    '\n' ∉ text.toList ∧ read text = .ok (rereadValue style.ascii v) :=
  ⟨(written one v 0 text h).line, (written one v 0 text h).read⟩

/-- The values that are in JSON texts: no byte strings and no tuples, and tables of names. -/
def Formed : Native → Prop
  | .bytes _ | .tuple _ => False
  | .table entries => (∀ e ∈ entries, ∃ name, e.1 = .text name) ∧ Ordered.Distinct entries
  | _ => True

/-- A whole number within the digit limit, a finite double, or no number. -/
def Bounded : Native → Prop
  | .int n => n.natAbs < tooLarge
  | .float (.nan _) | .float (.infinite _) => False
  | _ => True

/-- Texts in which no unit stands right before its partner. -/
def Unjoined : Native → Prop
  | .text s => Apart s.toList
  | _ => True

instance : DecidablePred Unjoined := fun v =>
  match v with
  | .text s => inferInstanceAs (Decidable (Apart s.toList))
  | .null | .bool _ | .int _ | .float _ | .bytes _ | .list _ | .tuple _ | .table _ =>
    .isTrue trivial

theorem ofList_distinct {entries : List (Native × Native)} (h : Ordered.Distinct entries) :
    Ordered.ofList entries = entries := by
  suffices ∀ m : Ordered Native Native, Ordered.Distinct (m ++ entries) →
      entries.foldl (fun m e => Ordered.insert m e.1 e.2) m = m ++ entries from this [] h
  clear h
  induction entries with
  | nil => simp
  | cons e es ih =>
    intro m h
    have absent : ∀ d ∈ m, (d.1 == e.1) = false := fun d hd =>
      (List.pairwise_append.mp h).2.2 d hd e List.mem_cons_self
    rw [List.foldl_cons, Ordered.insert_absent e.2 absent, ih, List.append_assoc]
    · rfl
    · rwa [List.append_assoc]

theorem rereadText_self {ascii : Bool} {s : String} (h : ascii = true → Apart s.toList) :
    rereadText ascii s = s := by
  rw [rereadText, reread_apart h, String.ofList_toList]

theorem rereadText_plain (s : String) : rereadText false s = s :=
  rereadText_self fun ascii => absurd ascii Bool.false_ne_true

theorem rereadItems_self {ascii : Bool} {items : List Native}
    (h : ∀ v ∈ items, rereadValue ascii v = v) : rereadItems ascii items = items := by
  induction items with
  | nil => rfl
  | cons v vs ih =>
    obtain ⟨first, others⟩ := List.forall_mem_cons.mp h
    rw [rereadItems, first, ih others]

theorem rereadMembers_self {ascii : Bool} {entries : List (Native × Native)}
    (h : ∀ e ∈ entries, (∃ name, e.1 = .text name ∧ rereadText ascii name = name) ∧
      rereadValue ascii e.2 = e.2) : rereadMembers ascii entries = entries := by
  induction entries with
  | nil => rfl
  | cons e es ih =>
    obtain ⟨⟨⟨name, key, same⟩, value⟩, others⟩ := List.forall_mem_cons.mp h
    have member : memberText e.1 = name := by rw [key]; rfl
    rw [rereadMembers, member, same, ← key, value, ih others]

theorem rereadValue_self {ascii : Bool} {v : Native} (formed : v.Everywhere Formed)
    (apart : ascii = true → v.Everywhere Unjoined) : rereadValue ascii v = v := by
  induction v with
  | null | bool | int | float => rfl
  | text s => exact congrArg Native.text (rereadText_self fun h => (apart h).here)
  | bytes | tuple => exact formed.here.elim
  | list items ih =>
    refine congrArg Native.list (rereadItems_self fun v hv => ?_)
    exact ih v hv (formed.inside hv) fun h => (apart h).inside hv
  | table entries ih =>
    obtain ⟨names, distinct⟩ := formed.here
    have members : rereadMembers ascii entries = entries := by
      refine rereadMembers_self fun e he => ⟨?_, ?_⟩
      · obtain ⟨name, key⟩ := names e he
        refine ⟨name, key, rereadText_self fun h => ?_⟩
        have whole := ((apart h).entry he).1.here
        rwa [key] at whole
      · exact (ih e he).2 (formed.entry he).2 fun h => ((apart h).entry he).2
    rw [rereadValue, members, ofList_distinct distinct]

theorem bounded_int {n : Int} : Bounded (.int n) ↔ n.natAbs < tooLarge := Iff.rfl

theorem intText_ok {n : Int} : (∃ text, intText n = .ok text) ↔ n.natAbs < tooLarge := by
  unfold intText decimalText?
  split <;> simp_all

theorem writeItems_ok {style : Style} {depth : Nat} {items : List Native} :
    (∃ parts, writeItems style depth items = .ok parts) ↔
      ∀ v ∈ items, ∃ text, writeAt style depth v = .ok text := by
  induction items with
  | nil => simp [writeItems]
  | cons v vs ih =>
    rw [List.forall_mem_cons, ← ih]
    constructor
    · rintro ⟨parts, h⟩
      obtain ⟨text, here, h⟩ := Attempt.bind_ok.mp h
      obtain ⟨texts, after, _⟩ := Attempt.bind_ok.mp h
      exact ⟨⟨text, here⟩, texts, after⟩
    · rintro ⟨⟨text, here⟩, texts, after⟩
      exact ⟨_, Attempt.bind_ok.mpr ⟨text, here, Attempt.bind_ok.mpr ⟨texts, after, rfl⟩⟩⟩

theorem writeMembers_ok {style : Style} {depth : Nat} {entries : List (Native × Native)} :
    (∃ parts, writeMembers style depth entries = .ok parts) ↔
      ∀ e ∈ entries, (∃ name, memberName e.1 = .ok name) ∧
        ∃ text, writeAt style depth e.2 = .ok text := by
  induction entries with
  | nil => simp [writeMembers]
  | cons e es ih =>
    rw [List.forall_mem_cons, ← ih]
    constructor
    · rintro ⟨parts, h⟩
      obtain ⟨name, named, h⟩ := Attempt.bind_ok.mp h
      obtain ⟨text, here, h⟩ := Attempt.bind_ok.mp h
      obtain ⟨texts, after, _⟩ := Attempt.bind_ok.mp h
      exact ⟨⟨⟨name, named⟩, text, here⟩, texts, after⟩
    · rintro ⟨⟨⟨name, named⟩, text, here⟩, texts, after⟩
      exact ⟨_, Attempt.bind_ok.mpr ⟨name, named, Attempt.bind_ok.mpr ⟨text, here,
        Attempt.bind_ok.mpr ⟨texts, after, rfl⟩⟩⟩⟩

theorem exists_map_ok {α β : Type} {x : Attempt α} {f : α → β} :
    (∃ b, (x >>= fun a => pure (f a)) = .ok b) ↔ ∃ a, x = .ok a := by
  cases x <;> simp

/-- Such a value has a text exactly where all its numbers have one. -/
theorem writeAt_ok {style : Style} {depth : Nat} {v : Native} (formed : v.Everywhere Formed) :
    (∃ text, writeAt style depth v = .ok text) ↔ v.Everywhere Bounded := by
  induction v generalizing depth with
  | null | bool | text => exact ⟨fun _ => .leaf trivial rfl, fun _ => ⟨_, rfl⟩⟩
  | int n =>
    rw [writeAt, intText_ok, ← bounded_int]
    exact ⟨fun short => .leaf short rfl, fun h => h.here⟩
  | float x =>
    cases x with
    | nan | infinite => exact ⟨nofun, fun h => h.here.elim⟩
    | finite => exact ⟨fun _ => .leaf trivial rfl, fun _ => ⟨_, rfl⟩⟩
  | bytes | tuple => exact formed.here.elim
  | list items ih =>
    rw [writeAt, exists_map_ok, writeItems_ok]
    constructor
    · intro h
      exact .node trivial fun u hu => (ih u hu (formed.inside hu)).mp (h u hu)
    · intro h u hu
      exact (ih u hu (formed.inside hu)).mpr (h.inside hu)
  | table entries ih =>
    have names := formed.here.1
    rw [writeAt, exists_map_ok, writeMembers_ok]
    constructor
    · intro h
      refine .ofEntries trivial (fun e he => ?_) fun e he => ?_
      · obtain ⟨name, key⟩ := names e he
        rw [key]
        exact .leaf trivial rfl
      · exact ((ih e he).2 (formed.entry he).2).mp (h e he).2
    · intro h e he
      obtain ⟨name, key⟩ := names e he
      refine ⟨⟨name, by rw [key]; rfl⟩, ?_⟩
      exact ((ih e he).2 (formed.entry he).2).mpr (h.entry he).2

end HostBridge.Json
