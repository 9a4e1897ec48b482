namespace HostBridge.Text

/-- The white space of all scripts, with the four information separators. -/
def isBlank (c : Char) : Bool :=
  let n := c.toNat
  (9 ≤ n && n ≤ 13) || (0x1c ≤ n && n ≤ 0x20) || n == 0x85 || n == 0xa0 || n == 0x1680 ||
    (0x2000 ≤ n && n ≤ 0x200a) || n == 0x2028 || n == 0x2029 || n == 0x202f || n == 0x205f ||
    n == 0x3000

def trimEnd (cs : List Char) : List Char :=
  (cs.reverse.dropWhile isBlank).reverse

/-- A text without the blanks at its ends. -/
def trim (cs : List Char) : List Char :=
  trimEnd (cs.dropWhile isBlank)

/-- The second text is the first without blanks at its ends. -/
def Stripped (cs t : List Char) : Prop :=
  ∃ before after, cs = before ++ (t ++ after) ∧ (∀ c ∈ before, isBlank c) ∧
    (∀ c ∈ after, isBlank c) ∧ (∀ c ∈ t.head?, isBlank c = false) ∧
    ∀ c ∈ t.getLast?, isBlank c = false

theorem dropBlanks_head (cs : List Char) :
    ∀ c ∈ (cs.dropWhile isBlank).head?, isBlank c = false := by
  intro c hc
  have stopped := List.head?_dropWhile_not isBlank cs
  rwa [hc] at stopped

theorem dropBlanks_append {before rest : List Char} (blank : ∀ c ∈ before, isBlank c)
    (stop : ∀ c ∈ rest.head?, isBlank c = false) : (before ++ rest).dropWhile isBlank = rest := by
  rw [List.dropWhile_append_of_pos blank]
  cases rest with
  | nil => rfl
  | cons c rest => rw [List.dropWhile_cons, stop c rfl]; rfl

theorem trimEnd_append {t after : List Char} (blank : ∀ c ∈ after, isBlank c)
    (stop : ∀ c ∈ t.getLast?, isBlank c = false) : trimEnd (t ++ after) = t := by
  have stopped : ∀ c ∈ t.reverse.head?, isBlank c = false := by rwa [List.head?_reverse]
  have reversed : ∀ c ∈ after.reverse, isBlank c := fun c hc => blank c (List.mem_reverse.mp hc)
  rw [trimEnd, List.reverse_append, dropBlanks_append reversed stopped, List.reverse_reverse]

theorem trim_stripped (cs : List Char) : Stripped cs (trim cs) := by
  have blank (ds : List Char) : ∀ c ∈ ds.takeWhile isBlank, isBlank c := fun c hc =>
    List.all_eq_true.mp List.all_takeWhile c hc
  have kept : cs.dropWhile isBlank =
      trim cs ++ ((cs.dropWhile isBlank).reverse.takeWhile isBlank).reverse := by
    rw [trim, trimEnd, ← List.reverse_append, List.takeWhile_append_dropWhile,
      List.reverse_reverse]
  refine ⟨cs.takeWhile isBlank, ((cs.dropWhile isBlank).reverse.takeWhile isBlank).reverse, ?_,
    blank cs, fun c hc => blank _ c (List.mem_reverse.mp hc), ?_, ?_⟩
  · rw [← kept, List.takeWhile_append_dropWhile]
  · intro c hc
    refine dropBlanks_head cs c ?_
    rw [kept, List.head?_append, hc]
    rfl
  · rw [trim, trimEnd, List.getLast?_reverse]
    exact dropBlanks_head _

/-- There is one way to strip a text. -/
theorem Stripped.trim {cs t : List Char} (h : Stripped cs t) : trim cs = t := by
  obtain ⟨before, after, rfl, front, back, first, last⟩ := h
  cases t with
  | nil =>
    have blank : ∀ c ∈ before ++ after, isBlank c := List.forall_mem_append.mpr ⟨front, back⟩
    have stop : ∀ c ∈ ([] : List Char).head?, isBlank c = false := by simp
    have none := dropBlanks_append blank stop
    rw [List.append_nil] at none
    rw [List.nil_append, Text.trim, none]
    rfl
  | cons c cs =>
    have stop : ∀ d ∈ (c :: cs ++ after).head?, isBlank d = false := first
    rw [Text.trim, dropBlanks_append front stop, trimEnd_append back last]

theorem Stripped.blanks_append {before cs t : List Char} (blank : ∀ c ∈ before, isBlank c)
    (h : Stripped cs t) : Stripped (before ++ cs) t := by
  obtain ⟨front, back, rfl, first, last, ends⟩ := h
  exact ⟨before ++ front, back, (List.append_assoc ..).symm,
    List.forall_mem_append.mpr ⟨blank, first⟩, last, ends⟩

theorem Stripped.append_blanks {cs t after : List Char} (h : Stripped cs t)
    (blank : ∀ c ∈ after, isBlank c) : Stripped (cs ++ after) t := by
  obtain ⟨front, back, rfl, first, last, ends⟩ := h
  refine ⟨front, back ++ after, ?_, first, List.forall_mem_append.mpr ⟨last, blank⟩, ends⟩
  simp only [List.append_assoc]

theorem trim_dropBlanks (cs : List Char) : trim (cs.dropWhile isBlank) = trim cs := by
  have blank : ∀ c ∈ cs.takeWhile isBlank, isBlank c := List.all_eq_true.mp List.all_takeWhile
  have whole := (trim_stripped (cs.dropWhile isBlank)).blanks_append blank
  rw [List.takeWhile_append_dropWhile] at whole
  exact whole.trim.symm

theorem trim_trimEnd (cs : List Char) : trim (trimEnd cs) = trim cs := by
  have blank : ∀ c ∈ (cs.reverse.takeWhile isBlank).reverse, isBlank c := fun c hc =>
    List.all_eq_true.mp List.all_takeWhile c (List.mem_reverse.mp hc)
  have whole := (trim_stripped (trimEnd cs)).append_blanks blank
  rw [trimEnd, ← List.reverse_append, List.takeWhile_append_dropWhile, List.reverse_reverse]
    at whole
  exact whole.trim.symm

section Mark

variable {m : Char} (mark : isBlank m = false) (before after : List Char)

include mark

theorem dropBlanks_mark :
    (before ++ m :: after).dropWhile isBlank = before.dropWhile isBlank ++ m :: after := by
  induction before with
  | nil => simp [mark]
  | cons c before ih =>
    rw [List.cons_append, List.dropWhile_cons, List.dropWhile_cons, ih]
    split <;> rfl

theorem trimEnd_mark : trimEnd (before ++ m :: after) = before ++ m :: trimEnd after := by
  have turned : (before ++ m :: after).reverse = after.reverse ++ m :: before.reverse := by simp
  rw [trimEnd, turned, dropBlanks_mark mark]
  simp [trimEnd]

theorem trim_mark :
    trim (before ++ m :: after) = before.dropWhile isBlank ++ m :: trimEnd after := by
  rw [trim, dropBlanks_mark mark, trimEnd_mark mark]

end Mark

/-- Where a carriage return ends a line, alone or before a line feed, a text with a line feed
alone. -/
def unifyBreaks : List Char → List Char
  | [] => []
  | '\r' :: '\n' :: cs => '\n' :: unifyBreaks cs
  | c :: cs => (if c = '\r' then '\n' else c) :: unifyBreaks cs

/-- The characters that end a line: line feed, vertical tab, form feed and carriage return, the
separators of files, groups and records, the next line, and the separators of lines and
paragraphs. -/
def endsLine (c : Char) : Bool :=
  let n := c.toNat
  (10 ≤ n && n ≤ 13) || (0x1c ≤ n && n ≤ 0x1e) || n == 0x85 || n == 0x2028 || n == 0x2029

/-- The text up to the first end of a line, and the lines after it; the last line need not end. -/
def splitLines : List Char → List Char × List (List Char)
  | [] => ([], [])
  | c :: cs =>
    let (line, rest) := splitLines cs
    if !endsLine c then (c :: line, rest)
    else ([], if cs.isEmpty then rest else line :: rest)

def lines (cs : List Char) : List (List Char) :=
  match unifyBreaks cs with
  | [] => []
  | c :: cs => let (line, rest) := splitLines (c :: cs); line :: rest

end HostBridge.Text
