import HostBridge.Proofs.CanonicalImage
import HostBridge.Proofs.WholeNumbers

namespace HostBridge

namespace Attempt

/-- Both attempts fail for the same cause, or both succeed with related results. -/
def Agree {α β : Type} (R : α → β → Prop) (x : Attempt α) (y : Attempt β) : Prop :=
  (∃ a b, x = .ok a ∧ y = .ok b ∧ R a b) ∨ ∃ e, x = .error e ∧ y = .error e

theorem Agree.bind {α β γ δ : Type} {R : α → β → Prop} {S : γ → δ → Prop} {x : Attempt α}
    {y : Attempt β} {f : α → Attempt γ} {g : β → Attempt δ} (h : Agree R x y)
    (next : ∀ a b, R a b → Agree S (f a) (g b)) : Agree S (x >>= f) (y >>= g) := by
  rcases h with ⟨a, b, rfl, rfl, related⟩ | ⟨e, rfl, rfl⟩
  · exact next a b related
  · exact .inr ⟨e, rfl, rfl⟩

theorem Agree.pure {α β : Type} {R : α → β → Prop} {a : α} {b : β} (h : R a b) :
    Agree R (Pure.pure a) (Pure.pure b) :=
  .inl ⟨a, b, rfl, rfl, h⟩

end Attempt

namespace Ordered

variable {κ α : Type} [BEq κ] {R : κ → κ → Prop} {S : α → α → Prop}

/-- Where related keys compare alike, an entry goes to the same place of two related tables. -/
theorem insert_related (compare : ∀ k k' l l', R k k' → R l l' → (k == l) = (k' == l'))
    {m n : Ordered κ α} (tables : List.Forall₂ (fun d e => R d.1 e.1 ∧ S d.2 e.2) m n) {k k' : κ}
    (key : R k k') {v v' : α} (value : S v v') :
    List.Forall₂ (fun d e => R d.1 e.1 ∧ S d.2 e.2) (m.insert k v) (n.insert k' v') := by
  induction tables with
  | nil => exact .cons ⟨key, value⟩ .nil
  | @cons d e m n first rest ih =>
    simp only [insert, compare _ _ _ _ first.1 key]
    split
    · exact .cons ⟨first.1, value⟩ rest
    · exact .cons first ih

theorem ofList_related (compare : ∀ k k' l l', R k k' → R l l' → (k == l) = (k' == l'))
    {xs ys : List (κ × α)} (h : List.Forall₂ (fun d e => R d.1 e.1 ∧ S d.2 e.2) xs ys) :
    List.Forall₂ (fun d e => R d.1 e.1 ∧ S d.2 e.2) (ofList xs) (ofList ys) := by
  suffices ∀ m n : Ordered κ α, List.Forall₂ (fun d e => R d.1 e.1 ∧ S d.2 e.2) m n →
      List.Forall₂ (fun d e => R d.1 e.1 ∧ S d.2 e.2)
        (xs.foldl (fun m e => insert m e.1 e.2) m) (ys.foldl (fun m e => insert m e.1 e.2) n) from
    this [] [] .nil
  induction h with
  | nil => exact fun m n tables => tables
  | cons first _ ih =>
    exact fun m n tables => ih _ _ (insert_related compare tables first.1 first.2)

end Ordered

namespace Json

/-- Two values that are written alike in every style. -/
def WritesAlike (v w : Native) : Prop :=
  ∀ style depth, writeAt style depth v = writeAt style depth w

theorem writeItems_alike {items others : List Native} (h : List.Forall₂ WritesAlike items others)
    (style : Style) (depth : Nat) :
    writeItems style depth items = writeItems style depth others := by
  induction h with
  | nil => rfl
  | cons first _ ih => rw [writeItems, writeItems, first style depth, ih]

theorem writeMembers_alike {entries others : List (Native × Native)}
    (h : List.Forall₂ (fun d e => memberName d.1 = memberName e.1 ∧ WritesAlike d.2 e.2)
      entries others) (style : Style) (depth : Nat) :
    writeMembers style depth entries = writeMembers style depth others := by
  induction h with
  | nil => rfl
  | cons first _ ih => rw [writeMembers, writeMembers, first.1, first.2 style depth, ih]

theorem writesAlike_list {items others : List Native}
    (h : List.Forall₂ WritesAlike items others) : WritesAlike (.list items) (.list others) := by
  intro style depth
  rw [writeAt, writeAt, writeItems_alike h]

theorem writesAlike_table {entries others : List (Native × Native)}
    (h : List.Forall₂ (fun d e => memberName d.1 = memberName e.1 ∧ WritesAlike d.2 e.2)
      entries others) : WritesAlike (.table entries) (.table others) := by
  intro style depth
  rw [writeAt, writeAt, writeMembers_alike h]

end Json

namespace Native

open Attempt (Agree)
open Json (WritesAlike)

/-- No key of a table is the text of a whole number that is another key, held as a double. -/
def WholeNamesApart : Native → Prop
  | .table entries => ∀ d ∈ entries, ∀ e ∈ entries, ∀ x n, d.1 = .float x → x.toInt? = some n →
      e.1 ≠ .text (decimalText n)
  | _ => True

/-- A text is told from a whole number by what it is read as. -/
theorem ne_decimalText {n : Int} (short : n.natAbs < tooLarge) {text : String}
    (other : Json.read text ≠ .ok (.int n)) : text ≠ decimalText n := by
  rintro rfl
  exact other (Json.written_int (intText_short short)).read

theorem numberText_ne {x : Binary64} {n : Int} (short : n.natAbs < tooLarge)
    (fraction : x.toInt? = none) : numberText x ≠ decimalText n := by
  refine ne_decimalText short ?_
  cases x with
  | nan =>
    have unread : Json.read "NaN" = .ok (.float (.nan .json)) := by rfl
    intro read
    cases unread.symm.trans read
  | infinite negative => cases negative <;> intro read <;> cases read
  | finite negative m p canonical =>
    have written : Json.write Json.compact (.float (.finite negative m p canonical)) =
        .ok (numberText (.finite negative m p canonical)) := by
      simp only [numberText, fraction]
      rfl
    rw [(Json.read_write Json.compact_oneLine written).2]
    intro read
    cases read

theorem quotedBytes_ne {n : Int} (short : n.natAbs < tooLarge) (bs : List UInt8) :
    Text.quotedBytes bs ≠ decimalText n := by
  refine ne_decimalText short ?_
  -- No JSON text begins with the letter b.
  have failed : Json.read (Text.quotedBytes bs) = .error .syntaxError := by
    simp only [Json.read, Text.quotedBytes, String.toList_ofList, List.cons_append]
    rfl
  rw [failed]
  intro read
  cases read

theorem canonicalText_ne {k : Native} {n : Int} (short : n.natAbs < tooLarge)
    (composite : k.isContainer = true) {text : String} (h : k.canonicalText = .ok text) :
    text ≠ decimalText n := by
  obtain ⟨image, made, written⟩ := Attempt.bind_ok.mp h
  refine ne_decimalText short ?_
  rw [(Json.read_write Json.compact_oneLine written).2]
  cases k with
  | list | tuple | table =>
    obtain ⟨parts, _, he⟩ := Attempt.bind_ok.mp made
    cases he
    intro read
    cases read
  | _ => cases composite

/-- What a key is in an image, and in the image where whole numbers are held as such. -/
inductive ImageKeys : Native → Native → Native → Prop
  | kept (other : ∀ x n, k = .float x → x.toInt? ≠ some n) (keyed : k.jsonKey = .ok a) :
      ImageKeys k a a
  | number {x : Binary64} {n : Int} (whole : x.toInt? = some n) :
      ImageKeys (.float x) (.text (decimalText n)) (.int n)

theorem ImageKeys.memberName {k a b : Native} (h : ImageKeys k a b) :
    Json.memberName a = Json.memberName b := by
  cases h with
  | kept => rfl
  | number whole =>
    rw [Json.memberName, Json.memberName, intText_short (Binary64.toInt_short whole)]

theorem same_float_comm {x : Binary64} {n : Int} (h : x.toInt? = some n) (k : Native) :
    (k == float x) = (float x == k) := by
  cases k with
  | float y =>
    obtain ⟨left, right⟩ := Binary64.same_units (Binary64.units_of_toInt h) y
    exact right.trans left.symm
  | _ => rfl

theorem decimalText_short_inj {m n : Int} (hm : m.natAbs < tooLarge) (hn : n.natAbs < tooLarge) :
    decimalText m = decimalText n ↔ m = n := by
  refine ⟨fun h => ?_, congrArg decimalText⟩
  by_contra differ
  refine ne_decimalText hn ?_ h
  rw [(Json.written_int (intText_short hm)).read]
  exact fun read => differ (Native.int.inj (Except.ok.inj read))

/-- A whole number and its text are both different from any other key, unless that is the text. -/
theorem number_apart {x : Binary64} {n : Int} (whole : x.toInt? = some n) {k a : Native}
    (other : ∀ y m, k = .float y → y.toInt? ≠ some m) (keyed : k.jsonKey = .ok a)
    (apart : (float x == k) = false) (name : k ≠ .text (decimalText n)) :
    ((text (decimalText n) == a) = false ∧ (int n == a) = false) ∧
      (a == text (decimalText n)) = false ∧ (a == int n) = false := by
  have short := Binary64.toInt_short whole
  have named {s : String} (h : s ≠ decimalText n) :
      ((text (decimalText n) == text s) = false ∧ (int n == text s) = false) ∧
        (text s == text (decimalText n)) = false ∧ (text s == int n) = false :=
    ⟨⟨Json.text_apart h.symm, rfl⟩, Json.text_apart h, rfl⟩
  have compare := same_of_toInt whole k
  cases k with
  | null =>
    cases keyed
    exact ⟨⟨rfl, rfl⟩, rfl, rfl⟩
  | bool | int =>
    cases keyed
    exact ⟨⟨rfl, compare.1.trans apart⟩, rfl,
      compare.2.trans ((same_float_comm whole _).trans apart)⟩
  | float y =>
    cases keyed
    refine named (numberText_ne short ?_)
    exact Option.eq_none_iff_forall_ne_some.mpr fun m => other y m rfl
  | text s =>
    cases keyed
    exact named fun equal => name (congrArg text equal)
  | bytes bs =>
    cases keyed
    exact named (quotedBytes_ne short bs)
  | list | tuple | table =>
    obtain ⟨s, written, he⟩ := Attempt.bind_ok.mp keyed
    cases he
    exact named (canonicalText_ne short rfl written)

/-- Two keys of a table compare alike in both images. -/
theorem ImageKeys.compare {k l a a' b b' : Native} (first : ImageKeys k a a')
    (second : ImageKeys l b b') (apart : k = l ∨ (k == l) = false ∨ (l == k) = false)
    (names : ∀ x n, k = .float x → x.toInt? = some n → l ≠ .text (decimalText n))
    (names' : ∀ x n, l = .float x → x.toInt? = some n → k ≠ .text (decimalText n)) :
    (a == b) = (a' == b') := by
  -- Two numbers are told apart by their texts; what needs the names is a number beside another key.
  cases first with
  | kept other keyed =>
    cases second with
    | kept => rfl
    | @number y n whole =>
      have differ : (float y == k) = false := by
        rcases apart with rfl | apart | apart
        · exact absurd whole (other y n rfl)
        · exact (same_float_comm whole k).symm.trans apart
        · exact apart
      have result := (number_apart whole other keyed differ (names' y n rfl whole)).2
      rw [result.1, result.2]
  | @number x m whole =>
    cases second with
    | kept other keyed =>
      have differ : (float x == l) = false := by
        rcases apart with rfl | apart | apart
        · exact absurd whole (other x m rfl)
        · exact apart
        · exact (same_float_comm whole l).symm.trans apart
      have result := (number_apart whole other keyed differ (names x m rfl whole)).1
      rw [result.1, result.2]
    | @number y n whole' =>
      have texts := decimalText_short_inj (Binary64.toInt_short whole)
        (Binary64.toInt_short whole')
      change (decimalText m == decimalText n) = (some n == some m)
      rw [Bool.eq_iff_iff, beq_iff_eq, texts, beq_iff_eq, Option.some.injEq, eq_comm]

theorem canonicalText_alike {v w : Native} (h : Agree WritesAlike v.jsonImage w.jsonImage) :
    v.canonicalText = w.canonicalText := by
  rcases h with ⟨i, j, made, made', alike⟩ | ⟨e, failed, failed'⟩
  · rw [canonicalText, canonicalText, made, made']
    exact alike Json.compact 0
  · rw [canonicalText, canonicalText, failed, failed']

theorem jsonKey_container {k : Native} (h : k.isContainer = true) :
    k.jsonKey = (do return .text (← k.canonicalText)) := by
  cases k with
  | list | tuple | table => rfl
  | _ => cases h

theorem jsonKey_whole {k : Native} (h : Agree WritesAlike k.jsonImage k.whole.jsonImage) :
    Agree (ImageKeys k) k.jsonKey k.whole.jsonKey := by
  have kept (other : ∀ x n, k = .float x → x.toInt? ≠ some n)
      (equal : k.whole.jsonKey = k.jsonKey) : Agree (ImageKeys k) k.jsonKey k.whole.jsonKey := by
    rw [equal]
    cases keyed : k.jsonKey with
    | ok a => exact .pure (.kept other keyed)
    | error e => exact .inr ⟨e, rfl, rfl⟩
  cases k with
  | float x =>
    cases hi : x.toInt? with
    | some n =>
      have held : whole (.float x) = .int n := by rw [whole, hi]
      have named : numberText x = decimalText n := by simp only [numberText, hi]
      rw [held, jsonKey, named]
      exact .pure (.number hi)
    | none =>
      refine kept ?_ (by rw [whole, hi])
      intro y n he found
      cases he
      rw [hi] at found
      cases found
  | list | tuple | table =>
    refine kept (fun x n he => by cases he) ?_
    rw [jsonKey_container rfl, jsonKey_container rfl, canonicalText_alike h]
  | _ => exact kept (fun x n he => by cases he) rfl

theorem jsonItems_whole {items : List Native}
    (h : ∀ v ∈ items, Agree WritesAlike v.jsonImage v.whole.jsonImage) :
    Agree (List.Forall₂ WritesAlike) (jsonItems items) (jsonItems (items.map whole)) := by
  induction items with
  | nil => exact .pure .nil
  | cons v vs ih =>
    obtain ⟨first, rest⟩ := List.forall_mem_cons.mp h
    exact first.bind fun i j alike => (ih rest).bind fun is js others => .pure (.cons alike others)

/-- The keys stand in a list of their own, which stays while the entries are gone through. -/
theorem jsonEntries_whole {keys : List Native} {entries : List (Native × Native)}
    (within : ∀ e ∈ entries, e.1 ∈ keys)
    (h : ∀ e ∈ entries, Agree WritesAlike e.1.jsonImage e.1.whole.jsonImage ∧
      Agree WritesAlike e.2.jsonImage e.2.whole.jsonImage) :
    Agree (List.Forall₂ fun d e =>
        (∃ k ∈ keys, ImageKeys k d.1 e.1) ∧ WritesAlike d.2 e.2)
      (jsonEntries entries) (jsonEntries (entries.map fun e => (e.1.whole, e.2.whole))) := by
  induction entries with
  | nil => exact .pure .nil
  | cons e es ih =>
    obtain ⟨inside, within⟩ := List.forall_mem_cons.mp within
    obtain ⟨⟨key, value⟩, rest⟩ := List.forall_mem_cons.mp h
    rw [List.map_cons, jsonEntries_cons, jsonEntries_cons]
    refine (jsonKey_whole key).bind fun a b keyed => value.bind fun i j alike => ?_
    refine (ih within rest).bind fun is js others => .pure ?_
    exact .cons ⟨⟨e.1, inside, keyed⟩, alike⟩ others

theorem distinct_cases {entries : Ordered Native Native} (h : Ordered.Distinct entries)
    {d e : Native × Native} (hd : d ∈ entries) (he : e ∈ entries) :
    d.1 = e.1 ∨ (d.1 == e.1) = false ∨ (e.1 == d.1) = false := by
  induction entries with
  | nil => cases hd
  | cons c cs ih =>
    obtain ⟨first, others⟩ := List.pairwise_cons.mp h
    rcases List.mem_cons.mp hd with rfl | laterD
    · rcases List.mem_cons.mp he with rfl | laterE
      · exact .inl rfl
      · exact .inr (.inl (first e laterE))
    · rcases List.mem_cons.mp he with rfl | laterE
      · exact .inr (.inr (first d laterD))
      · exact ih others laterD laterE

theorem jsonImage_scalar {v : Native} (h : v.isContainer = false) :
    Agree WritesAlike v.jsonImage v.whole.jsonImage := by
  have equal : v.whole.jsonImage = v.jsonImage := by
    cases v with
    | float x => cases hi : x.toInt? <;> simp only [whole, jsonImage, hi]
    | list | tuple | table => cases h
    | _ => rfl
  rw [equal]
  cases v.jsonImage with
  | ok image => exact .pure fun _ _ => rfl
  | error e => exact .inr ⟨e, rfl, rfl⟩

theorem jsonImage_whole {v : Native} (formed : v.WellFormed)
    (apart : v.Everywhere WholeNamesApart) : Agree WritesAlike v.jsonImage v.whole.jsonImage := by
  induction formed with
  | scalar single => exact jsonImage_scalar single
  | list _ ih | tuple _ ih =>
    rw [whole, wholeItems_eq_map]
    have items := jsonItems_whole fun v hv => ih v hv (apart.inside hv)
    exact items.bind fun is js alike => .pure (Json.writesAlike_list alike)
  | @table entries _ _ distinct keys values =>
    rw [whole, wholeEntries_eq_map]
    have made := jsonEntries_whole (fun e he => List.mem_map_of_mem he) fun e he =>
      ⟨keys e he (apart.entry he).1, values e he (apart.entry he).2⟩
    refine made.bind fun is js alike => .pure (Json.writesAlike_table ?_)
    -- Keys with parts may still become equal to others, but to the same ones in both images.
    have compare : ∀ a a' b b', (∃ k ∈ entries.map (·.1), ImageKeys k a a') →
        (∃ k ∈ entries.map (·.1), ImageKeys k b b') → (a == b) = (a' == b') := by
      rintro a a' b b' ⟨k, hk, first⟩ ⟨l, hl, second⟩
      obtain ⟨d, hd, rfl⟩ := List.mem_map.mp hk
      obtain ⟨e, he, rfl⟩ := List.mem_map.mp hl
      exact first.compare second (distinct_cases distinct hd he) (apart.here d hd e he)
        (apart.here e he d hd)
    refine (Ordered.ofList_related compare alike).imp fun d e related => ?_
    obtain ⟨⟨k, _, keyed⟩, written⟩ := related
    exact ⟨keyed.memberName, written⟩

/-- The canonical text of a value does not tell how whole numbers in it are held, where none of them
stands beside its text as a key. -/
theorem canonicalText_whole {v : Native} (formed : v.WellFormed)
    (apart : v.Everywhere WholeNamesApart) : v.whole.canonicalText = v.canonicalText :=
  (canonicalText_alike (jsonImage_whole formed apart)).symm

/-- Zeros as a value, as a key, and in a key with parts. -/
theorem zeros_written :
    let v := table [(.float (.zero false), .list [.float (.zero true)]),
      (.tuple [.float (.zero false)], .text "a"), (.text "1", .null)]
    let w := table [(.int 0, .list [.int 0]), (.tuple [.int 0], .text "a"), (.text "1", .null)]
    v.WellFormed ∧ v.Everywhere WholeNamesApart ∧ v.whole = w ∧
      w.canonicalText = v.canonicalText := by
  intro v w
  have held : v.whole = w := by
    simp only [v, w, whole, wholeItems, wholeEntries, Binary64.toInt_zero]
  have formed : v.WellFormed := by
    refine .table ?_ ?_ ?_
    · simp only [List.forall_mem_cons]
      exact ⟨.scalar rfl, .tuple (List.forall_mem_singleton.mpr (.scalar rfl)), .scalar rfl,
        List.forall_mem_nil _⟩
    · simp only [List.forall_mem_cons]
      exact ⟨.list (List.forall_mem_singleton.mpr (.scalar rfl)), .scalar rfl, .scalar rfl,
        List.forall_mem_nil _⟩
    · refine List.pairwise_cons.mpr ⟨?_, List.pairwise_pair.mpr rfl⟩
      simp only [List.forall_mem_cons]
      exact ⟨rfl, rfl, List.forall_mem_nil _⟩
  have apart : v.Everywhere WholeNamesApart := by
    refine .ofEntries ?_ ?_ ?_
    · intro d hd e he x n key whole
      have number : n = 0 := by
        simp only [List.mem_cons, List.not_mem_nil, or_false] at hd
        rcases hd with rfl | rfl | rfl <;> cases key
        exact Option.some.inj (whole.symm.trans (Binary64.toInt_zero false))
      subst number
      simp only [List.mem_cons, List.not_mem_nil, or_false] at he
      rcases he with rfl | rfl | rfl
      · intro equal
        cases equal
      · intro equal
        cases equal
      · exact fun equal => absurd (Native.text.inj equal) (by decide +kernel)
    · simp only [List.forall_mem_cons]
      exact ⟨.leaf trivial rfl, .node trivial (List.forall_mem_singleton.mpr (.leaf trivial rfl)),
        .leaf trivial rfl, List.forall_mem_nil _⟩
    · simp only [List.forall_mem_cons]
      exact ⟨.node trivial (List.forall_mem_singleton.mpr (.leaf trivial rfl)), .leaf trivial rfl,
        .leaf trivial rfl, List.forall_mem_nil _⟩
  have texts := canonicalText_whole formed apart
  rw [held] at texts
  exact ⟨formed, apart, held, texts⟩

/-- A whole number that is held as a double loses its entry to the text beside it. -/
theorem entry_lost {x : Binary64} {n : Int} (whole : x.toInt? = some n) {v image : Native}
    (made : v.jsonImage = .ok image) (w : Native) :
    (table [(.float x, v), (.text (decimalText n), w)]).canonicalText =
      (table [(.text (decimalText n), w)]).canonicalText := by
  have named : numberText x = decimalText n := by simp only [numberText, whole]
  have same : (text (decimalText n) == text (decimalText n)) = true :=
    beq_self_eq_true (decimalText n)
  have lost : (table [(.float x, v), (.text (decimalText n), w)]).jsonImage =
      (table [(.text (decimalText n), w)]).jsonImage := by
    simp only [jsonImage, jsonEntries_cons, jsonKey, named, made, Attempt.ok_bind]
    cases w.jsonImage with
    | ok other =>
      simp only [jsonEntries, Attempt.ok_bind, Attempt.pure_ok, Ordered.ofList, List.foldl_cons,
        List.foldl_nil, Ordered.insert, same, if_true]
    | error e => rfl
  rw [canonicalText, canonicalText, lost]

theorem zero_entry_lost :
    let v := table [(.float (.zero false), .text "a"), (.text "0", .text "b")]
    let w := table [(.int 0, .text "a"), (.text "0", .text "b")]
    v.WellFormed ∧ v.whole = w ∧ v.canonicalText = .ok "\x7b\"0\":\"b\"\x7d" ∧
      w.canonicalText = .ok "\x7b\"0\":\"a\",\"0\":\"b\"\x7d" := by
  intro v w
  have held : v.whole = w := by
    simp only [v, w, whole, wholeEntries, Binary64.toInt_zero]
  have formed : v.WellFormed := by
    refine .table ?_ ?_ (List.pairwise_pair.mpr rfl)
    · exact List.forall_mem_cons.mpr ⟨.scalar rfl, List.forall_mem_singleton.mpr (.scalar rfl)⟩
    · exact List.forall_mem_cons.mpr ⟨.scalar rfl, List.forall_mem_singleton.mpr (.scalar rfl)⟩
  have lost : v.canonicalText = .ok "\x7b\"0\":\"b\"\x7d" :=
    (entry_lost (Binary64.toInt_zero false) rfl _).trans rfl
  have named : Json.intText 0 = .ok "0" :=
    intText_short (Binary64.toInt_short (Binary64.toInt_zero false))
  refine ⟨formed, held, lost, ?_⟩
  have image : w.jsonImage = .ok w := rfl
  have members : Json.writeMembers Json.compact 1
      [(.int 0, .text "a"), (.text "0", .text "b")] =
        .ok ["\"0\":\"a\"", "\"0\":\"b\""] := by
    rw [Json.writeMembers, Json.memberName, named]
    rfl
  rw [canonicalText, image, Attempt.ok_bind, Json.write, Json.writeAt, members]
  rfl

end Native

end HostBridge
