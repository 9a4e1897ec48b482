import HostBridge.Proofs.JsonGrammar

namespace HostBridge.Json

/-- What may follow a value in a text. -/
def Ends (rest : List Char) : Prop :=
  ∀ c ∈ rest.head?, isSpace c = true ∨ c = ',' ∨ c = ']' ∨ c = '\x7d'

theorem takeDigits_while {ds rest : List Char} (digits : ∀ c ∈ ds, c.isDigit)
    (stop : ∀ c ∈ rest.head?, c.isDigit = false) :
    (ds ++ rest).takeWhile isDigit = ds ∧ (ds ++ rest).dropWhile isDigit = rest := by
  have stopped : rest.takeWhile isDigit = [] ∧ rest.dropWhile isDigit = rest := by
    cases rest with
    | nil => exact ⟨rfl, rfl⟩
    | cons c rest =>
      have hc : isDigit c = false := stop c rfl
      exact ⟨by rw [List.takeWhile_cons, hc]; rfl, by rw [List.dropWhile_cons, hc]; rfl⟩
  have taken : ∀ c ∈ ds, isDigit c := digits
  rw [List.takeWhile_append_of_pos taken, List.dropWhile_append_of_pos taken, stopped.1,
    stopped.2, List.append_nil]
  exact ⟨rfl, rfl⟩

theorem takeWhole_append {whole rest : List Char} (h : IsWhole whole)
    (stop : ∀ c ∈ rest.head?, c.isDigit = false) :
    takeWhole? (whole ++ rest) = some (whole, rest) := by
  obtain ⟨taken, left⟩ := takeDigits_while h.digits stop
  rcases h.leading with rfl | ⟨c, cs, rfl, hc⟩
  · rfl
  · have hd : isDigit c = true := h.digits c List.mem_cons_self
    rw [List.cons_append] at taken left ⊢
    simp only [takeWhole?, hc, hd, taken, left, ↓reduceIte]

theorem Ends.stop {rest : List Char} (h : Ends rest) :
    ∀ c ∈ rest.head?, c.isDigit = false ∧ c ≠ '.' ∧ c ≠ 'e' ∧ c ≠ 'E' := by
  intro c hc
  have blank : ∀ c, isSpace c = true → c = ' ' ∨ c = '\t' ∨ c = '\n' ∨ c = '\r' := by
    intro c
    simp [isSpace, or_assoc]
  rcases h c hc with space | rfl | rfl | rfl
  · rcases blank c space with rfl | rfl | rfl | rfl <;> decide
  all_goals decide

theorem takeExponent_append {power rest : List Char} (h : IsPower power) (ends : Ends rest) :
    takeExponent (power ++ rest) = (power, rest) := by
  cases h with
  | none =>
    cases rest with
    | nil => rfl
    | cons c rest =>
      obtain ⟨_, _, small, large⟩ := ends.stop c rfl
      simp only [List.nil_append, takeExponent, small, large, or_self, ↓reduceIte]
  | @some e sign ds mark signs digits some_left =>
    obtain ⟨taken, left⟩ := takeDigits_while digits fun c hc => (ends.stop c hc).1
    have unfinished : ds.isEmpty = false := List.isEmpty_eq_false_iff.mpr some_left
    rcases signs with rfl | rfl | rfl
    · obtain ⟨d, ds, rfl⟩ := List.exists_cons_of_ne_nil some_left
      have hd := digits d List.mem_cons_self
      have unsigned : ∀ c, c.isDigit = false → d ≠ c := by
        rintro c other rfl
        rw [hd] at other
        cases other
      have plus := unsigned '+' rfl
      have minus := unsigned '-' rfl
      simp_all [takeExponent]
    all_goals simp [takeExponent, mark, taken, left, unfinished]

theorem takeFraction_append {fraction rest : List Char} (h : IsFraction fraction)
    (stop : ∀ c ∈ rest.head?, c.isDigit = false ∧ c ≠ '.') :
    takeFraction (fraction ++ rest) = (fraction, rest) := by
  cases h with
  | none =>
    cases rest with
    | nil => rfl
    | cons c rest =>
      obtain ⟨_, unpointed⟩ := stop c rfl
      rw [List.nil_append]
      unfold takeFraction
      split
      · rename_i same
        cases same
        exact absurd rfl unpointed
      · rfl
  | @some ds digits some_left =>
    obtain ⟨d, ds, rfl⟩ := List.exists_cons_of_ne_nil some_left
    obtain ⟨taken, left⟩ := takeDigits_while digits fun c hc => (stop c hc).1
    have hd : isDigit d = true := digits d List.mem_cons_self
    rw [List.cons_append] at taken left
    simp only [List.cons_append, takeFraction, hd, taken, left, ↓reduceIte]

theorem IsPower.stop {power rest : List Char} (h : IsPower power) (ends : Ends rest) :
    ∀ c ∈ (power ++ rest).head?, c.isDigit = false ∧ c ≠ '.' := by
  cases h with
  | none => exact fun c hc => ⟨(ends.stop c hc).1, (ends.stop c hc).2.1⟩
  | some mark =>
    rintro c ⟨⟩
    rcases mark with rfl | rfl <;> decide

theorem IsFraction.stop {fraction rest : List Char} (h : IsFraction fraction)
    (stop : ∀ c ∈ rest.head?, c.isDigit = false) :
    ∀ c ∈ (fraction ++ rest).head?, c.isDigit = false := by
  cases h with
  | none => exact stop
  | some =>
    rintro c ⟨⟩
    decide

/-- Digits alone are a whole number, within the limit. -/
theorem readUnsigned_whole (negative : Bool) {ds rest : List Char} (whole : IsWhole ds)
    (ends : Ends rest) :
    readUnsigned negative (ds ++ rest) = do return (← wholeNumber negative ds, rest) := by
  have taken := takeWhole_append whole fun c hc => (ends.stop c hc).1
  have fraction := takeFraction_append .none fun c hc => ⟨(ends.stop c hc).1, (ends.stop c hc).2.1⟩
  have exponent := takeExponent_append .none ends
  rw [List.nil_append] at fraction exponent
  simp only [readUnsigned, taken, fraction, exponent, List.isEmpty_nil, Bool.and_self, ↓reduceIte]

/-- Digits with a point or a power are the double nearest to their numeral. -/
theorem readUnsigned_decimal (negative : Bool) {ds fraction power rest : List Char} {n : Numeral}
    (whole : IsWhole ds) (pointed : IsFraction fraction) (powered : IsPower power)
    (marked : fraction ≠ [] ∨ power ≠ [])
    (numeral : Numeral.ofChars? (ds ++ fraction ++ power) = some n) (ends : Ends rest) :
    readUnsigned negative (ds ++ fraction ++ power ++ rest) =
      .ok (.float { n with negative }.toFloat, rest) := by
  have taken := takeWhole_append whole
    (pointed.stop fun c hc => (powered.stop ends c hc).1)
  have fraction_taken := takeFraction_append pointed (powered.stop ends)
  have power_taken := takeExponent_append powered ends
  have decimal : (fraction.isEmpty && power.isEmpty) = false := by
    rw [Bool.and_eq_false_iff, List.isEmpty_eq_false_iff, List.isEmpty_eq_false_iff]
    exact marked
  rw [List.append_assoc, List.append_assoc]
  simp only [readUnsigned, taken, fraction_taken, power_taken, decimal, Bool.false_eq_true,
    ↓reduceIte, numeral]

theorem digitsOf_whole (k : Nat) : IsWhole (digitsOf k) := by
  refine ⟨digitsOf_digits k, ?_⟩
  rcases Nat.eq_zero_or_pos k with rfl | positive
  · exact .inl rfl
  · exact .inr (digitsOf_leading positive)

theorem digitsOf_spells (negative : Bool) (k : Nat) :
    SpellsNumber negative (digitsOf k) (.int (if negative then -(k : Int) else k)) := by
  have spelled := @SpellsNumber.whole negative _ (digitsOf_whole k)
  rwa [digitsOf, Nat.ofDigitChars_ten_toDigits] at spelled

theorem length_digitsOf_le {k : Nat} (short : k < tooLarge) :
    (digitsOf k).length ≤ digitLimit := by
  have some_left : 0 < digitLimit := by decide
  unfold tooLarge at short
  generalize digitLimit = limit at short some_left ⊢
  exact (Nat.length_toDigits_le_iff (by decide) some_left).mpr short

theorem readUnsigned_digitsOf (negative : Bool) {k : Nat} (short : k < tooLarge) {rest : List Char}
    (ends : Ends rest) :
    readUnsigned negative (digitsOf k ++ rest) =
      .ok (.int (if negative then -(k : Int) else k), rest) := by
  have limit := length_digitsOf_le short
  have value : Nat.ofDigitChars 10 (digitsOf k) 0 = k := Nat.ofDigitChars_ten_toDigits
  rw [readUnsigned_whole negative (digitsOf_whole k) ends]
  simp only [wholeNumber, limit, value, ↓reduceIte]
  rfl

theorem spelling_whole (n : Spelling) : IsWhole n.whole :=
  ⟨n.wholeDigits, n.leading⟩

theorem spelling_pointed (n : Spelling) : IsFraction n.pointed := by
  unfold Spelling.pointed
  split
  · exact .none
  · rename_i some_left
    exact .some n.fractionDigits fun none => some_left (List.isEmpty_iff.mpr none)

theorem spelling_power (n : Spelling) : IsPower n.power := by
  unfold Spelling.power
  split
  · exact .none
  · rename_i e _
    refine @IsPower.some 'e' [if e < 0 then '-' else '+'] _ (.inl rfl) ?_
      (Numeral.padded_digits 2 e.natAbs) (Numeral.padded_ne_nil 2 _)
    split
    · exact .inr (.inr rfl)
    · exact .inr (.inl rfl)

theorem spelling_marked (n : Spelling) : n.pointed ≠ [] ∨ n.power ≠ [] := by
  unfold Spelling.pointed Spelling.power
  rcases n.marked with pointed | powered
  · refine .inl ?_
    rw [if_neg fun none => pointed (List.isEmpty_iff.mp none)]
    exact List.cons_ne_nil _ _
  · obtain ⟨e, he⟩ := Option.ne_none_iff_exists'.mp powered
    rw [he]
    exact .inr (List.cons_ne_nil _ _)

theorem spelling_nearest (negative : Bool) (n : Spelling) :
    { n.numeral with negative }.toFloat = n.decimal.nearest negative :=
  congrArg (Decimal.nearest negative) n.numeral_decimal

theorem spelling_spells (negative : Bool) (n : Spelling) :
    SpellsNumber negative n.text (.float (n.decimal.nearest negative)) := by
  rw [← spelling_nearest]
  exact .decimal (spelling_whole n) (spelling_pointed n) (spelling_power n) (spelling_marked n)
    n.ofChars_text

theorem readUnsigned_spelled (negative : Bool) (n : Spelling) {rest : List Char}
    (ends : Ends rest) :
    readUnsigned negative (n.text ++ rest) =
      .ok (.float (n.decimal.nearest negative), rest) := by
  rw [← spelling_nearest]
  exact readUnsigned_decimal negative (spelling_whole n) (spelling_pointed n) (spelling_power n)
    (spelling_marked n) n.ofChars_text ends

theorem readNumber_signed (negative : Bool) {c : Char} (hc : c.isDigit) (cs : List Char) :
    readNumber (signChars negative ++ c :: cs) = readUnsigned negative (c :: cs) := by
  cases negative with
  | false =>
    change readNumber (c :: cs) = _
    unfold readNumber
    split
    case h_5 => rfl
    all_goals
      rename_i same
      cases same
      exact absurd hc (by decide)
  | true =>
    change readNumber ('-' :: c :: cs) = _
    unfold readNumber
    split
    case h_4 same =>
      cases same
      rfl
    case h_5 other => exact absurd rfl (other (c :: cs))
    all_goals
      rename_i same
      cases same
    exact absurd hc (by decide)

end HostBridge.Json
