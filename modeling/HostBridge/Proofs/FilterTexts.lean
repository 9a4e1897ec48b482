import HostBridge.Log.Filter
import HostBridge.Proofs.AsciiCase
import HostBridge.Proofs.NamedTables
import Mathlib.Data.List.Forall2
import Mathlib.Data.List.Induction

namespace HostBridge.Log.FilterText

open Text (Ascii Stripped isBlank)

/-- What a segment says: a level for all modules, or a level for one module. -/
inductive Segment where
  | level (text : List Char)
  | entry (module level : List Char)

/-- Characters of ASCII that may stand between commas. -/
def Undivided (cs : List Char) : Prop :=
  ∀ c ∈ cs, c.toNat < 128 ∧ c ≠ ','

structure Word (cs : List Char) : Prop where
  undivided : Undivided cs
  first : ∀ c ∈ cs.head?, isBlank c = false
  last : ∀ c ∈ cs.getLast?, isBlank c = false

def Gap (cs : List Char) : Prop :=
  ∀ c ∈ cs, c.toNat < 128 ∧ isBlank c = true

instance (cs : List Char) : Decidable (Undivided cs) :=
  decidable_of_iff (cs.all fun c => decide (c.toNat < 128) && c != ',') (by simp [Undivided])

instance (cs : List Char) : Decidable (Gap cs) :=
  decidable_of_iff (cs.all fun c => decide (c.toNat < 128) && isBlank c) (by simp [Gap])

theorem word_iff {cs : List Char} :
    Word cs ↔ Undivided cs ∧ cs.head?.all (!isBlank ·) ∧ cs.getLast?.all (!isBlank ·) := by
  simp only [Option.all_eq_true, Bool.not_eq_true']
  exact ⟨fun ⟨h, first, last⟩ => ⟨h, first, last⟩, fun ⟨h, first, last⟩ => ⟨h, first, last⟩⟩

instance (cs : List Char) : Decidable (Word cs) :=
  decidable_of_iff _ word_iff.symm

/-- A segment as it is written, with gaps around its words and around its first equals sign. An
empty segment is a gap. -/
inductive Spelled : List Char → Option Segment → Prop
  | empty {gap : List Char} (blank : Gap gap) : Spelled gap none
  | level {before text after : List Char} (front : Gap before) (word : Word text)
      (some_left : text ≠ []) (plain : '=' ∉ text) (back : Gap after) :
      Spelled (before ++ (text ++ after)) (some (.level text))
  | entry {before module left right level after : List Char} (front : Gap before)
      (name : Word module) (plain : '=' ∉ module) (left_gap : Gap left) (right_gap : Gap right)
      (word : Word level) (back : Gap after) :
      Spelled (before ++ (module ++ left) ++ '=' :: (right ++ (level ++ after)))
        (some (.entry module level))

theorem Gap.blank {cs : List Char} (h : Gap cs) : ∀ c ∈ cs, isBlank c :=
  fun c hc => (h c hc).2

theorem Gap.unmarked {cs : List Char} (h : Gap cs) : '=' ∉ cs :=
  fun mark => absurd (h.blank _ mark) (by decide)

theorem Gap.undivided {cs : List Char} (h : Gap cs) : Undivided cs := by
  intro c hc
  refine ⟨(h c hc).1, ?_⟩
  rintro rfl
  exact absurd (h.blank _ hc) (by decide)

theorem Undivided.append {cs ds : List Char} (h : Undivided cs) (h' : Undivided ds) :
    Undivided (cs ++ ds) :=
  List.forall_mem_append.mpr ⟨h, h'⟩

theorem Spelled.undivided {cs : List Char} {part : Option Segment} (h : Spelled cs part) :
    Undivided cs := by
  cases h with
  | empty blank => exact blank.undivided
  | level front word _ _ back =>
    exact front.undivided.append (word.undivided.append back.undivided)
  | entry front name _ left_gap right_gap word back =>
    have named := front.undivided.append (name.undivided.append left_gap.undivided)
    have levelled := right_gap.undivided.append (word.undivided.append back.undivided)
    refine named.append ?_
    exact List.forall_mem_cons.mpr ⟨by decide, levelled⟩

theorem Word.stripped {before text after : List Char} (word : Word text) (front : Gap before)
    (back : Gap after) : Stripped (before ++ (text ++ after)) text :=
  ⟨before, after, rfl, front.blank, back.blank, word.first, word.last⟩

theorem Gap.trim {cs : List Char} (h : Gap cs) : Text.trim cs = [] := by
  have none : Stripped cs [] :=
    ⟨cs, [], (List.append_nil _).symm, h.blank, by simp, by simp, by simp⟩
  exact none.trim

theorem before_mark {cs : List Char} (plain : '=' ∉ cs) : ∀ c ∈ cs, (c != '=') = true := by
  intro c hc
  have other : c ≠ '=' := fun same => plain (same ▸ hc)
  simpa using other

theorem entry_marked {front : List Char} (plain : '=' ∉ front) (back : List Char) :
    entry? (front ++ '=' :: back) = some (Text.trim front, Text.trim back) := by
  have others := before_mark plain
  have dropped : (front ++ '=' :: back).dropWhile (· != '=') = '=' :: back := by
    rw [List.dropWhile_append_of_pos others]
    rfl
  have taken : (front ++ '=' :: back).takeWhile (· != '=') = front := by
    rw [List.takeWhile_append_of_pos others]
    simp
  unfold entry?
  rw [dropped, taken]

theorem entry_unmarked {cs : List Char} (plain : '=' ∉ cs) : entry? cs = none := by
  have dropped : (cs ++ []).dropWhile (· != '=') = [].dropWhile (· != '=') :=
    List.dropWhile_append_of_pos (before_mark plain)
  rw [List.append_nil, List.dropWhile_nil] at dropped
  unfold entry?
  rw [dropped]

theorem addSegment_gap {gap : List Char} (blank : Gap gap) (f : FilterText) :
    addSegment f gap = f := by
  rw [addSegment, blank.trim]
  rfl

theorem addSegment_level {before text after : List Char} (front : Gap before) (word : Word text)
    (some_left : text ≠ []) (plain : '=' ∉ text) (back : Gap after) (f : FilterText) :
    addSegment f (before ++ (text ++ after)) = { f with level := String.ofList text } := by
  have filled : text.isEmpty = false := by simpa using some_left
  simp only [addSegment, (word.stripped front back).trim, filled, Bool.false_eq_true, ↓reduceIte,
    entry_unmarked plain]

theorem addSegment_entry {before module left right level after : List Char} (front : Gap before)
    (name : Word module) (plain : '=' ∉ module) (left_gap : Gap left) (right_gap : Gap right)
    (word : Word level) (back : Gap after) (f : FilterText) :
    addSegment f (before ++ (module ++ left) ++ '=' :: (right ++ (level ++ after))) =
      { f with modules := f.modules.insert (String.ofList module) (levelOf level) } := by
  have unblank : isBlank '=' = false := by decide
  -- the blanks at the two ends go first, and those beside the sign with the words
  have trimmed := Text.trim_mark unblank (before ++ (module ++ left)) (right ++ (level ++ after))
  have unmarked : '=' ∉ (before ++ (module ++ left)).dropWhile isBlank := by
    intro mark
    have kept := (List.dropWhile_sublist isBlank).subset mark
    simp [front.unmarked, plain, left_gap.unmarked] at kept
  have read := entry_marked unmarked (Text.trimEnd (right ++ (level ++ after)))
  rw [Text.trim_dropBlanks, Text.trim_trimEnd, (name.stripped front left_gap).trim,
    (word.stripped right_gap back).trim, ← trimmed] at read
  have filled : (Text.trim (before ++ (module ++ left) ++
      '=' :: (right ++ (level ++ after)))).isEmpty = false := by
    rw [trimmed]
    simp
  simp only [addSegment, filled, Bool.false_eq_true, ↓reduceIte, read]

theorem toLower_below {c : Char} (ascii : c.toNat < 128) : c.toLower.toNat < 128 := by
  rcases Text.toLower_cases c with ⟨_, small⟩ | ⟨_, same⟩
  · omega
  · rwa [same]

/-- What comes before the small letters does so from itself only. -/
theorem toLower_mark {c m : Char} (before : m.toNat < 97) (h : c.toLower = m) : c = m := by
  rcases Text.toLower_cases c with ⟨_, small⟩ | ⟨_, same⟩
  · rw [h] at small
    omega
  · exact same.symm.trans h

theorem unmarked_lower {cs : List Char} {m : Char} (before : m.toNat < 97) (h : m ∉ cs) :
    m ∉ cs.map Char.toLower := by
  intro mark
  obtain ⟨c, hc, lowered⟩ := List.mem_map.mp mark
  exact h (toLower_mark before lowered ▸ hc)

theorem Undivided.lower {cs : List Char} (h : Undivided cs) :
    Undivided (cs.map Char.toLower) := by
  intro c hc
  obtain ⟨d, hd, rfl⟩ := List.mem_map.mp hc
  obtain ⟨ascii, other⟩ := h d hd
  exact ⟨toLower_below ascii, fun comma => other (toLower_mark (by decide) comma)⟩

theorem blank_below {c : Char} (ascii : c.toNat < 128) (blank : isBlank c = true) :
    c.toNat ≤ 32 := by
  simp only [isBlank, Bool.or_eq_true, Bool.and_eq_true, decide_eq_true_eq, beq_iff_eq] at blank
  omega

theorem Gap.lower {cs : List Char} (h : Gap cs) : Gap (cs.map Char.toLower) := by
  intro c hc
  obtain ⟨d, hd, rfl⟩ := List.mem_map.mp hc
  obtain ⟨ascii, blank⟩ := h d hd
  have low := blank_below ascii blank
  rcases Text.toLower_cases d with ⟨capital, _⟩ | ⟨_, same⟩
  · omega
  · rw [same]
    exact h d hd

theorem unblank_lower {c : Char} (ascii : c.toNat < 128) (h : isBlank c = false) :
    isBlank c.toLower = false := by
  rcases Text.toLower_cases c with ⟨_, small⟩ | ⟨_, same⟩
  · refine Bool.eq_false_iff.mpr fun blank => ?_
    have low := blank_below (toLower_below ascii) blank
    omega
  · rwa [same]

theorem Word.lower {cs : List Char} (h : Word cs) : Word (cs.map Char.toLower) := by
  refine ⟨h.undivided.lower, ?_, ?_⟩
  · intro c hc
    rw [List.head?_map] at hc
    obtain ⟨d, hd, rfl⟩ := Option.map_eq_some_iff.mp hc
    exact unblank_lower (h.undivided d (List.mem_of_head? hd)).1 (h.first d hd)
  · intro c hc
    rw [List.getLast?_map] at hc
    obtain ⟨d, hd, rfl⟩ := Option.map_eq_some_iff.mp hc
    exact unblank_lower (h.undivided d (List.mem_of_getLast? hd)).1 (h.last d hd)

def lowered (cs : List Char) : String :=
  String.ofList (cs.map Char.toLower)

/-- The level that a word gives to a module: none for the word false, in any case of letters. -/
def given (word : List Char) : Option String :=
  if lowered word = "false" then none else some (String.ofList (word.map Char.toUpper))

theorem levelOf_lower {cs : List Char} (h : Undivided cs) :
    levelOf (cs.map Char.toLower) = given cs := by
  have small : Ascii (cs.map Char.toLower) := fun c hc => (h.lower c hc).1
  have raised : Text.upper (cs.map Char.toLower) = cs.map Char.toUpper := by
    rw [Text.upper_ascii small, List.map_map]
    exact List.map_congr_left fun c _ => Text.toUpper_toLower c
  rw [levelOf, raised]
  rfl

/-- What a segment adds to what was read before it. -/
def Segment.addTo (f : FilterText) : Segment → FilterText
  | .level text => { f with level := lowered text }
  | .entry name word => { f with modules := f.modules.insert (lowered name) (given word) }

theorem addSegment_spelled {cs : List Char} {part : Option Segment} (h : Spelled cs part)
    (f : FilterText) :
    addSegment f (cs.map Char.toLower) = part.elim f (Segment.addTo f) := by
  cases h with
  | empty blank => exact addSegment_gap blank.lower f
  | level front word some_left plain back =>
    have left := mt (List.map_eq_nil_iff (f := Char.toLower)).mp some_left
    simp only [List.map_append]
    exact addSegment_level front.lower word.lower left (unmarked_lower (by decide) plain)
      back.lower f
  | entry front name plain left_gap right_gap word back =>
    simp only [List.map_append, List.map_cons]
    refine (addSegment_entry front.lower name.lower (unmarked_lower (by decide) plain)
      left_gap.lower right_gap.lower word.lower back.lower f).trans ?_
    rw [levelOf_lower word.undivided]
    rfl

theorem map_intercalate (f : Char → Char) (m : Char) (texts : List (List Char)) :
    ([m].intercalate texts).map f = [f m].intercalate (texts.map (List.map f)) := by
  induction texts with
  | nil => rfl
  | cons cs texts ih =>
    cases texts with
    | nil => simp only [List.map_cons, List.map_nil, List.intercalate_singleton]
    | cons ds texts =>
      rw [List.intercalate_cons_cons, List.map_append, List.map_append, ih]
      exact List.intercalate_cons_cons.symm

theorem ascii_intercalate {texts : List (List Char)} (undivided : ∀ cs ∈ texts, Undivided cs) :
    Ascii ([','].intercalate texts) := by
  induction texts with
  | nil => exact List.forall_mem_nil _
  | cons cs texts ih =>
    obtain ⟨here, rest⟩ := List.forall_mem_cons.mp undivided
    have first : Ascii cs := fun c hc => (here c hc).1
    cases texts with
    | nil => rwa [List.intercalate_singleton]
    | cons ds texts =>
      rw [List.intercalate_cons_cons]
      have comma : Ascii [','] := List.forall_mem_singleton.mpr (by decide)
      exact List.forall_mem_append.mpr ⟨List.forall_mem_append.mpr ⟨first, comma⟩, ih rest⟩

theorem segments_intercalate {texts : List (List Char)} (undivided : ∀ cs ∈ texts, Undivided cs)
    (some_left : texts ≠ []) : segments ([','].intercalate texts) = texts :=
  List.splitOn_intercalate ',' (fun cs hcs comma => (undivided cs hcs ',' comma).2 rfl) some_left

/-- What is read where nothing is said. -/
def unsaid : FilterText :=
  { level := "info", modules := [] }

theorem foldl_spelled {texts : List (List Char)} {parts : List (Option Segment)}
    (spelled : List.Forall₂ Spelled texts parts) (f : FilterText) :
    (texts.map (List.map Char.toLower)).foldl addSegment f =
      parts.reduceOption.foldl Segment.addTo f := by
  induction spelled generalizing f with
  | nil => rfl
  | @cons cs part texts parts first rest ih =>
    rw [List.map_cons, List.foldl_cons, addSegment_spelled first, ih]
    cases part <;> rfl

theorem spelled_undivided {texts : List (List Char)} {parts : List (Option Segment)}
    (spelled : List.Forall₂ Spelled texts parts) : ∀ cs ∈ texts, Undivided cs := by
  induction spelled with
  | nil => exact List.forall_mem_nil _
  | cons first _ ih => exact List.forall_mem_cons.mpr ⟨first.undivided, ih⟩

/-- The segments that are written are added in turn. -/
theorem ofText_spelled {texts : List (List Char)} {parts : List (Option Segment)}
    (spelled : List.Forall₂ Spelled texts parts) :
    ofText (String.ofList ([','].intercalate texts)) =
      parts.reduceOption.foldl Segment.addTo unsaid := by
  have undivided := spelled_undivided spelled
  have small : Text.lower ([','].intercalate texts) =
      [','].intercalate (texts.map (List.map Char.toLower)) := by
    rw [Text.lower_ascii (ascii_intercalate undivided), map_intercalate]
    rfl
  rw [ofText, String.toList_ofList, small, ← foldl_spelled spelled]
  cases texts with
  | nil => rfl
  | cons cs texts =>
    rw [segments_intercalate]
    · rfl
    · exact List.forall_mem_map.mpr fun cs hcs => (undivided cs hcs).lower
    · exact List.cons_ne_nil _ _

def Segment.level? : Segment → Option String
  | .level text => some (lowered text)
  | .entry .. => none

def Segment.pair? : Segment → Option (String × Option String)
  | .level _ => none
  | .entry name word => some (lowered name, given word)

theorem foldl_addTo (segments : List Segment) :
    (segments.foldl Segment.addTo unsaid).level =
        (segments.filterMap Segment.level?).getLast?.getD "info" ∧
      (segments.foldl Segment.addTo unsaid).modules =
        Ordered.ofList (segments.filterMap Segment.pair?) := by
  induction segments using List.reverseRecOn with
  | nil => exact ⟨rfl, rfl⟩
  | append_singleton segments s ih =>
    obtain ⟨level, modules⟩ := ih
    simp only [List.foldl_append, List.foldl_cons, List.foldl_nil, List.filterMap_append]
    cases s with
    | level text =>
      have levels : [Segment.level text].filterMap Segment.level? = [lowered text] := rfl
      have entries : [Segment.level text].filterMap Segment.pair? = [] := rfl
      rw [levels, entries, List.getLast?_concat, List.append_nil]
      exact ⟨rfl, modules⟩
    | entry name word =>
      have levels : [Segment.entry name word].filterMap Segment.level? = [] := rfl
      have entries : [Segment.entry name word].filterMap Segment.pair? =
          [(lowered name, given word)] := rfl
      rw [levels, entries, List.append_nil, Ordered.ofList_append_singleton, ← modules]
      exact ⟨level, rfl⟩

/-- A text is read as its segments say, for every list of segments however they are written: the
level for all modules is the last that is given, or info where there is none; the table holds each
module that is given a level once, in the order of their first entries; and under it what the last
entry gives. -/
theorem filter_text_read {texts : List (List Char)} {parts : List (Option Segment)}
    (spelled : List.Forall₂ Spelled texts parts) :
    let f := ofText (String.ofList ([','].intercalate texts))
    let levels := parts.reduceOption.filterMap Segment.level?
    let entries := parts.reduceOption.filterMap Segment.pair?
    f.level = levels.getLast?.getD "info" ∧
    f.modules.map (·.1) = (entries.map (·.1)).eraseDups ∧
    ∀ module, f.modules.get? module = (entries.filter (·.1 == module)).getLast?.map (·.2) := by
  intro f levels entries
  have read : f = parts.reduceOption.foldl Segment.addTo unsaid := ofText_spelled spelled
  obtain ⟨level, modules⟩ := foldl_addTo parts.reduceOption
  rw [← read] at level modules
  rw [modules]
  exact ⟨level, Ordered.keys_ofList entries, Ordered.get?_ofList entries⟩

/-- A blank segment, a module without a name, and a second entry for a module, with a second equals
sign. -/
theorem sample_filter_read :
    let texts := [" Debug ".toList, [], "\tHost.Codec =\n FALSE".toList, "= Warning".toList,
      "host.codec==B".toList]
    let parts := [some (.level "Debug".toList), none,
      some (.entry "Host.Codec".toList "FALSE".toList), some (.entry [] "Warning".toList),
      some (.entry "host.codec".toList "=B".toList)]
    let f := ofText " Debug ,,\tHost.Codec =\n FALSE,= Warning,host.codec==B"
    List.Forall₂ Spelled texts parts ∧ f.level = "debug" ∧
    f.modules.map (·.1) = ["host.codec", ""] ∧
    f.modules.get? "host.codec" = some (some "=B") ∧ f.modules.get? "" = some (some "WARNING") := by
  intro texts parts f
  have none_left : Gap [] := by decide
  have blank : Gap [' '] := by decide
  have codec : Word "Host.Codec".toList := by decide
  have spelled : List.Forall₂ Spelled texts parts := by
    refine .cons ?_ (.cons ?_ (.cons ?_ (.cons ?_ (.cons ?_ .nil))))
    · exact .level blank (by decide : Word "Debug".toList) (by decide) (by decide) blank
    · exact .empty none_left
    · exact .entry (by decide : Gap ['\t']) codec (by decide) blank (by decide : Gap ['\n', ' '])
        (by decide : Word "FALSE".toList) none_left
    · exact .entry none_left (by decide : Word []) (by decide) none_left blank
        (by decide : Word "Warning".toList) none_left
    · exact .entry none_left codec.lower (by decide) none_left none_left
        (by decide : Word "=B".toList) none_left
  have text : String.ofList ([','].intercalate texts) =
      " Debug ,,\tHost.Codec =\n FALSE,= Warning,host.codec==B" := by decide
  obtain ⟨level, modules, found⟩ := filter_text_read spelled
  rw [text] at level modules found
  refine ⟨spelled, level.trans (by decide), modules.trans (by decide), ?_, ?_⟩
  · exact (found "host.codec").trans (by decide)
  · exact (found "").trans (by decide)

end HostBridge.Log.FilterText
