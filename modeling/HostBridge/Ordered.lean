namespace HostBridge

/-- A table as its entries, in the order in which their keys were first inserted; a new value for a
key leaves the key that stands there. Keys are compared by `==`, which need not be lawful. -/
abbrev Ordered (κ α : Type) := List (κ × α)

namespace Ordered

variable {κ α : Type} [BEq κ]

def get? (m : Ordered κ α) (k : κ) : Option α :=
  (m.find? fun e => e.1 == k).map (·.2)

def insert : Ordered κ α → κ → α → Ordered κ α
  | [], k, v => [(k, v)]
  | e :: m, k, v => if e.1 == k then (e.1, v) :: m else e :: insert m k v

def erase (m : Ordered κ α) (k : κ) : Ordered κ α :=
  m.eraseP fun e => e.1 == k

theorem get?_cons (e : κ × α) (m : Ordered κ α) (k : κ) :
    get? (e :: m) k = if e.1 == k then some e.2 else m.get? k := by
  unfold get?
  rw [List.find?_cons]
  cases e.1 == k <;> rfl

def ofList (entries : List (κ × α)) : Ordered κ α :=
  entries.foldl (fun m e => insert m e.1 e.2) []

/-- No key is equal to one that stands before it. -/
def Distinct (m : Ordered κ α) : Prop :=
  m.Pairwise fun d e => (d.1 == e.1) = false

theorem insert_absent {m : Ordered κ α} {k : κ} (v : α) (h : ∀ e ∈ m, (e.1 == k) = false) :
    m.insert k v = m ++ [(k, v)] := by
  induction m with
  | nil => rfl
  | cons e m ih =>
    have he := h e List.mem_cons_self
    simp [insert, he, ih fun d hd => h d (List.mem_cons_of_mem e hd)]

/-- A key that is equal to itself is found after its insertion. -/
theorem get?_insert_self {k : κ} (hk : (k == k) = true) (m : Ordered κ α) (v : α) :
    (m.insert k v).get? k = some v := by
  induction m with
  | nil => simp [insert, get?_cons, hk]
  | cons e m ih =>
    unfold insert
    split
    · rename_i same
      exact (get?_cons ..).trans (if_pos same)
    · rename_i other
      rw [get?_cons, if_neg other, ih]

/-- Keys and values of a table after an insertion are those from before or the inserted ones. -/
theorem forall_insert {P : κ → Prop} {Q : α → Prop} {m : Ordered κ α} {k : κ} {v : α}
    (h : ∀ e ∈ m, P e.1 ∧ Q e.2) (hk : P k) (hv : Q v) : ∀ e ∈ m.insert k v, P e.1 ∧ Q e.2 := by
  induction m with
  | nil => simpa [insert] using ⟨hk, hv⟩
  | cons d m ih =>
    obtain ⟨hd, hm⟩ := List.forall_mem_cons.mp h
    unfold insert
    split
    · exact List.forall_mem_cons.mpr ⟨⟨hd.1, hv⟩, hm⟩
    · exact List.forall_mem_cons.mpr ⟨hd, ih hm⟩

theorem forall_ofList {P : κ → Prop} {Q : α → Prop} {entries : List (κ × α)}
    (h : ∀ e ∈ entries, P e.1 ∧ Q e.2) : ∀ e ∈ ofList entries, P e.1 ∧ Q e.2 := by
  suffices ∀ m : Ordered κ α, (∀ e ∈ m, P e.1 ∧ Q e.2) →
      ∀ e ∈ entries.foldl (fun m e => insert m e.1 e.2) m, P e.1 ∧ Q e.2 from
    this [] (List.forall_mem_nil _)
  induction entries with
  | nil => exact fun m hm => hm
  | cons e es ih =>
    intro m hm
    obtain ⟨⟨hk, hv⟩, hes⟩ := List.forall_mem_cons.mp h
    exact ih hes _ (forall_insert hm hk hv)

theorem Distinct.insert {m : Ordered κ α} (h : m.Distinct) (k : κ) (v : α) :
    Distinct (m.insert k v) := by
  induction m with
  | nil => exact List.pairwise_singleton _ _
  | cons d m ih =>
    obtain ⟨hd, hm⟩ := List.pairwise_cons.mp h
    unfold Ordered.insert
    split
    · exact List.pairwise_cons.mpr ⟨hd, hm⟩
    · rename_i hne
      refine List.pairwise_cons.mpr ⟨fun e he => ?_, ih hm⟩
      exact (forall_insert (P := fun x => (d.1 == x) = false) (Q := fun _ => True)
        (fun e he => ⟨hd e he, trivial⟩) (by simpa using hne) trivial e he).1

end Ordered

end HostBridge
