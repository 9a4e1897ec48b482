import HostBridge.Proofs.JsonText
import Mathlib.Data.List.TakeWhile

namespace HostBridge.Json

/-- More digits in a row than a whole number may have. -/
def LongRun (cs : List Char) : Prop :=
  ∃ ds, ds <:+: cs ∧ (∀ c ∈ ds, isDigit c = true) ∧ digitLimit < ds.length

theorem LongRun.of_suffix {rest cs : List Char} (h : LongRun rest) (tail : rest <:+ cs) :
    LongRun cs := by
  obtain ⟨ds, inside, digits, long⟩ := h
  exact ⟨ds, inside.trans tail.isInfix, digits, long⟩

/-- A reading from the beginning of some characters: it leaves an end of them, and meets the digit
limit only where they hold a long run. -/
structure Consumes {α : Type} (cs : List Char) (r : Reading (α × List Char)) : Prop where
  leaves : ∀ a rest, r = .ok (a, rest) → rest <:+ cs
  limit : r = .error .tooManyDigits → LongRun cs

namespace Consumes

variable {α β : Type} {cs rest : List Char}

theorem ok {a : α} (tail : rest <:+ cs) : Consumes cs (.ok (a, rest)) := by
  refine ⟨fun b left h => ?_, fun h => ?_⟩
  · cases h
    exact tail
  · cases h

theorem syntaxError : Consumes (α := α) cs (.error .syntaxError) := by
  refine ⟨fun _ _ h => ?_, fun h => ?_⟩ <;> cases h

theorem of_suffix {r : Reading (α × List Char)} (h : Consumes rest r) (tail : rest <:+ cs) :
    Consumes cs r :=
  ⟨fun a left read => (h.leaves a left read).trans tail, fun met => (h.limit met).of_suffix tail⟩

theorem bind {r : Reading (α × List Char)} {f : α × List Char → Reading (β × List Char)}
    (h : Consumes cs r) (next : ∀ a rest, rest <:+ cs → Consumes rest (f (a, rest))) :
    Consumes cs (r >>= f) := by
  cases r with
  | error e =>
    refine ⟨fun _ _ read => ?_, fun met => h.limit ?_⟩
    · cases read
    · cases met
      rfl
  | ok result =>
    obtain ⟨a, rest⟩ := result
    have tail := h.leaves a rest rfl
    exact (next a rest tail).of_suffix tail

/-- A reading that goes on behind some characters, and keeps what it reads in another form. -/
theorem further {r : Reading (α × List Char)} (h : Consumes rest r) (tail : rest <:+ cs)
    (f : α → β) :
    Consumes cs (do
      let (a, rest) ← r
      return (f a, rest)) :=
  (h.bind (f := fun (a, rest) => .ok (f a, rest))
    fun _ rest _ => .ok (List.suffix_refl rest)).of_suffix tail

end Consumes

theorem skipSpace_suffix (cs : List Char) : skipSpace cs <:+ cs :=
  List.dropWhile_suffix _

/-- What stands behind a mark that blanks may come before. -/
theorem suffix_of_mark {cs after : List Char} {c : Char} (mark : skipSpace cs = c :: after) :
    after <:+ cs := by
  have tail := skipSpace_suffix cs
  rw [mark] at tail
  exact (List.suffix_cons c after).trans tail

theorem takeUnit_suffix {cs rest : List Char} {n : Nat} (h : takeUnit? cs = some (n, rest)) :
    rest <:+ cs := by
  unfold takeUnit? at h
  split at h
  · rename_i a b c d after
    simp only [Option.bind_eq_bind, Option.bind_eq_some_iff] at h
    obtain ⟨vs, _, h⟩ := h
    split at h
    · cases h
      exact ⟨[a, b, c, d], rfl⟩
    · cases h
  · cases h

theorem takeEscapedUnit_suffix {cs rest : List Char} {c : Char}
    (h : takeEscapedUnit? cs = some (c, rest)) : rest <:+ cs := by
  obtain ⟨⟨unit, after⟩, taken, h⟩ := Option.bind_eq_some_iff.mp h
  have tail := takeUnit_suffix taken
  dsimp only at h
  split at h
  · split at h
    · obtain ⟨⟨low, left⟩, second, h⟩ := Option.bind_eq_some_iff.mp h
      split at h
      · obtain ⟨_, rfl⟩ := Prod.mk.inj (Option.some.inj h)
        exact (takeUnit_suffix second).trans (List.IsSuffix.trans ⟨['\\', 'u'], rfl⟩ tail)
      · cases h
        exact tail
    · cases h
      exact tail
  · split at h
    · cases h
      exact tail
    · cases h
      exact tail

theorem readString_consumes (n : Nat) (cs : List Char) : Consumes cs (readString n cs) := by
  induction n, cs using readString.induct with
  | case1 | case2 | case4 | case6 | case8 => simp_all [readString, Consumes.syntaxError]
  | case3 n rest => exact .ok (List.suffix_cons _ _)
  | case5 n cs c rest taken ih =>
    rw [readString, taken]
    exact ih.further ((takeEscapedUnit_suffix taken).trans ⟨['\\', 'u'], rfl⟩) (c :: ·)
  | case7 n c cs other d meaning ih =>
    rw [readString, meaning]
    · exact ih.further ⟨['\\', c], rfl⟩ (d :: ·)
    · exact other
  | case9 n c cs unquoted unit escaped plain ih =>
    rw [readString, if_neg plain]
    · exact ih.further (List.suffix_cons c cs) (c :: ·)
    · exact unquoted
    · exact unit
    · exact escaped

theorem takeWhole_prefix {cs whole rest : List Char} (h : takeWhole? cs = some (whole, rest)) :
    whole ++ rest = cs ∧ ∀ c ∈ whole, isDigit c = true := by
  unfold takeWhole? at h
  split at h
  · cases h
  · split at h
    · rename_i zero
      cases h
      subst zero
      exact ⟨rfl, List.forall_mem_singleton.mpr rfl⟩
    · split at h
      · cases h
        exact ⟨List.takeWhile_append_dropWhile, fun c => List.mem_takeWhile_imp⟩
      · cases h

theorem takeFraction_suffix (cs : List Char) : (takeFraction cs).2 <:+ cs := by
  unfold takeFraction
  split
  · split
    · exact (List.dropWhile_suffix _).trans (List.suffix_cons _ _)
    · exact List.suffix_refl _
  · exact List.suffix_refl _

theorem takeExponent_suffix (cs : List Char) : (takeExponent cs).2 <:+ cs := by
  unfold takeExponent
  split
  · rename_i e rest
    split
    · split
      rename_i sign digits signed
      have tail : digits <:+ rest := by
        split at signed <;> cases signed
        · exact List.suffix_cons _ _
        · exact List.suffix_cons _ _
        · exact List.suffix_refl _
      split
      · exact List.suffix_refl _
      · exact (List.dropWhile_suffix _).trans (tail.trans (List.suffix_cons e rest))
    · exact List.suffix_refl _
  · exact List.suffix_refl _

theorem readUnsigned_consumes (negative : Bool) (cs : List Char) :
    Consumes cs (readUnsigned negative cs) := by
  unfold readUnsigned
  split
  · exact .syntaxError
  · rename_i whole rest taken
    obtain ⟨rfl, digits⟩ := takeWhole_prefix taken
    have tail : (takeExponent (takeFraction rest).2).2 <:+ whole ++ rest :=
      (takeExponent_suffix _).trans ((takeFraction_suffix _).trans (List.suffix_append _ _))
    dsimp only
    split
    · unfold wholeNumber
      split
      · exact .ok tail
      · rename_i long
        refine ⟨fun _ _ read => ?_, fun _ => ?_⟩
        · cases read
        · exact ⟨whole, (List.prefix_append whole rest).isInfix, digits, Nat.lt_of_not_le long⟩
    · split
      · exact .ok tail
      · exact .syntaxError

theorem readNumber_consumes (cs : List Char) : Consumes cs (readNumber cs) := by
  unfold readNumber
  split
  · exact .ok ⟨"NaN".toList, rfl⟩
  · exact .ok ⟨"Infinity".toList, rfl⟩
  · exact .ok ⟨"-Infinity".toList, rfl⟩
  · exact (readUnsigned_consumes true _).of_suffix (List.suffix_cons _ _)
  · exact readUnsigned_consumes false cs

theorem readValue_consumes {n : Nat} (items : ∀ cs, Consumes cs (readItems n cs))
    (members : ∀ cs, Consumes cs (readMembers n cs)) (cs : List Char) :
    Consumes cs (readValue (n + 1) cs) := by
  unfold readValue
  split
  · exact (readString_consumes _ _).further (List.suffix_cons _ _)
      fun text => Native.text (String.ofList text)
  · rename_i rest
    split
    · rename_i closed
      exact .ok ((suffix_of_mark closed).trans (List.suffix_cons _ rest))
    · exact (items _).further ((skipSpace_suffix rest).trans (List.suffix_cons _ rest)) Native.list
  · rename_i rest
    split
    · rename_i closed
      exact .ok ((suffix_of_mark closed).trans (List.suffix_cons _ rest))
    · exact (members _).further ((skipSpace_suffix rest).trans (List.suffix_cons _ rest))
        fun entries => Native.table (Ordered.ofList entries)
  · exact .ok ⟨"null".toList, rfl⟩
  · exact .ok ⟨"true".toList, rfl⟩
  · exact .ok ⟨"false".toList, rfl⟩
  · exact readNumber_consumes cs

theorem readItems_consumes {n : Nat} (values : ∀ cs, Consumes cs (readValue n cs))
    (items : ∀ cs, Consumes cs (readItems n cs)) (cs : List Char) :
    Consumes cs (readItems (n + 1) cs) := by
  unfold readItems
  refine (values cs).bind fun item rest _ => ?_
  dsimp only
  split
  · rename_i mark
    exact .ok (suffix_of_mark mark)
  · rename_i mark
    exact (items _).further ((skipSpace_suffix _).trans (suffix_of_mark mark)) (item :: ·)
  · exact .syntaxError

theorem readMembers_consumes {n : Nat} (values : ∀ cs, Consumes cs (readValue n cs))
    (members : ∀ cs, Consumes cs (readMembers n cs)) (cs : List Char) :
    Consumes cs (readMembers (n + 1) cs) := by
  unfold readMembers
  split
  · rename_i rest
    refine ((readString_consumes rest.length rest).bind fun name after _ => ?_).of_suffix
      (List.suffix_cons _ rest)
    dsimp only
    split
    · rename_i colon
      refine ((values _).bind fun value left _ => ?_).of_suffix
        ((skipSpace_suffix _).trans (suffix_of_mark colon))
      dsimp only
      split
      · rename_i mark
        exact .ok (suffix_of_mark mark)
      · rename_i mark
        exact (members _).further ((skipSpace_suffix _).trans (suffix_of_mark mark))
          ((_, value) :: ·)
      · exact .syntaxError
    · exact .syntaxError
  · exact .syntaxError

/-- Values, items and members call each other with the fuel that is left. -/
theorem parts_consume (n : Nat) :
    (∀ cs, Consumes cs (readValue n cs)) ∧ (∀ cs, Consumes cs (readItems n cs)) ∧
      ∀ cs, Consumes cs (readMembers n cs) := by
  induction n with
  | zero =>
    refine ⟨fun cs => ?_, fun cs => ?_, fun cs => ?_⟩
    · rw [readValue]
      exact .syntaxError
    · rw [readItems]
      exact .syntaxError
    · rw [readMembers]
      exact .syntaxError
  | succ n ih =>
    obtain ⟨values, items, members⟩ := ih
    exact ⟨readValue_consumes items members, readItems_consumes values items,
      readMembers_consumes values members⟩

/-- A text in which the digit limit is met holds a long run of digits. -/
theorem read_limit {s : String} (h : read s = .error .tooManyDigits) : LongRun s.toList := by
  have value := (parts_consume (2 * (skipSpace s.toList).length + 1)).1 (skipSpace s.toList)
  refine (value.limit ?_).of_suffix (skipSpace_suffix _)
  simp only [read] at h
  generalize readValue (2 * (skipSpace s.toList).length + 1) (skipSpace s.toList) = result at h ⊢
  cases result with
  | error e =>
    cases h
    rfl
  | ok result =>
    rw [Attempt.ok_bind] at h
    split at h <;> cases h

/-- A list of one number with too many digits meets the limit. -/
theorem read_longItem {ds : List Char} (whole : IsWhole ds) (long : digitLimit < ds.length) :
    read (String.ofList ('[' :: (ds ++ [']']))) = .error .tooManyDigits := by
  obtain ⟨c, cs, rfl, digit⟩ := whole.begins
  have visible := isSpace_digit digit
  have begins : skipSpace ('[' :: (c :: cs ++ [']'])) = '[' :: (c :: cs ++ [']']) :=
    skipSpace_self rfl _
  have opened : skipSpace (c :: cs ++ [']']) = c :: cs ++ [']'] := skipSpace_self visible _
  have refused : wholeNumber false (c :: cs) = .error .tooManyDigits := by
    rw [wholeNumber, if_neg (Nat.not_le.mpr long)]
  have number (n : Nat) : readValue (n + 1) (c :: cs ++ [']']) = .error .tooManyDigits := by
    have signed := readNumber_signed false digit (cs ++ [']'])
    have spelled := readUnsigned_whole false whole (ends_cons (.inr (.inl rfl)) [])
    rw [refused] at spelled
    exact (readValue_number (.inl digit) n _).trans (signed.trans spelled)
  have items (n : Nat) : readItems (n + 2) (c :: cs ++ [']']) = .error .tooManyDigits := by
    rw [readItems, number]
    rfl
  have value (n : Nat) : readValue (n + 3) ('[' :: (c :: cs ++ [']'])) = .error .tooManyDigits := by
    rw [readValue, opened]
    split
    · rename_i closed
      exact absurd (List.cons.inj closed).1 (ne_of_digit digit rfl)
    · rw [items]
      rfl
  have fuel : 2 * ('[' :: (c :: cs ++ [']'])).length + 1 = 2 * cs.length + 4 + 3 := by
    simp only [List.length_cons, List.length_append, List.length_nil]
    omega
  rw [read, String.toList_ofList, begins, fuel, value]
  rfl

end HostBridge.Json
