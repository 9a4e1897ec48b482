import HostBridge.Ordered
import Mathlib.Data.List.Induction

namespace HostBridge

theorem eraseDups_append_singleton (names : List String) (k : String) :
    (names ++ [k]).eraseDups = if k ∈ names then names.eraseDups else names.eraseDups ++ [k] := by
  rw [List.eraseDups_append]
  by_cases listed : k ∈ names <;> simp [List.removeAll, List.eraseDups_cons, listed]

/-- The last of a list that is wanted is what comes behind it, if that is wanted. -/
theorem getLast?_filter_append_singleton {α : Type} (wanted : α → Bool) (as : List α) (a : α) :
    ((as ++ [a]).filter wanted).getLast? =
      if wanted a then some a else (as.filter wanted).getLast? := by
  rw [List.filter_append]
  cases here : wanted a <;> simp [here]

namespace Ordered

variable {α : Type}

theorem get?_insert (m : Ordered String α) (k l : String) (v : α) :
    (m.insert k v).get? l = if k == l then some v else m.get? l := by
  induction m with
  | nil => exact get?_cons (k, v) [] l
  | cons e m ih =>
    unfold insert
    split
    · rename_i same
      rw [get?_cons, get?_cons, beq_iff_eq.mp same]
      split <;> rfl
    · rename_i other
      rw [get?_cons, get?_cons, ih]
      by_cases here : e.1 = l
      · have apart : ¬ k = l := fun same => other (by simp [here, same])
        simp [here, apart]
      · simp [here]

theorem keys_insert (m : Ordered String α) (k : String) (v : α) :
    (m.insert k v).map (·.1) =
      if k ∈ m.map (·.1) then m.map (·.1) else m.map (·.1) ++ [k] := by
  induction m with
  | nil => rfl
  | cons e m ih =>
    unfold insert
    by_cases here : e.1 = k
    · simp [here]
    · have apart : ¬ k = e.1 := fun same => here same.symm
      rw [if_neg (by simpa using here), List.map_cons, ih]
      by_cases listed : k ∈ m.map (·.1) <;> simp [listed, apart]

theorem ofList_append_singleton (entries : List (String × α)) (e : String × α) :
    ofList (entries ++ [e]) = (ofList entries).insert e.1 e.2 :=
  List.foldl_append

theorem keys_ofList (entries : List (String × α)) :
    (ofList entries).map (·.1) = (entries.map (·.1)).eraseDups := by
  induction entries using List.reverseRecOn with
  | nil => rfl
  | append_singleton entries e ih =>
    rw [ofList_append_singleton, keys_insert, ih, List.map_append, List.map_singleton,
      eraseDups_append_singleton]
    simp only [List.mem_eraseDups]

theorem get?_ofList (entries : List (String × α)) (k : String) :
    (ofList entries).get? k = (entries.filter (·.1 == k)).getLast?.map (·.2) := by
  induction entries using List.reverseRecOn with
  | nil => rfl
  | append_singleton entries e ih =>
    rw [ofList_append_singleton, get?_insert, ih, getLast?_filter_append_singleton]
    split <;> rfl

/-- A key is entered into a table of names where it is new; otherwise nothing changes. -/
theorem insert_names (f : String → String) (names : List String) (k : String) :
    Ordered.insert (names.map fun n => (n, f n)) k (f k) =
      (if k ∈ names then names else names ++ [k]).map fun n => (n, f n) := by
  induction names with
  | nil => rfl
  | cons n names ih =>
    rw [List.map_cons, insert]
    split
    · rename_i same
      cases beq_iff_eq.mp same
      simp
    · rename_i other
      have apart : k ≠ n := fun same => other (by simp [same])
      rw [ih]
      by_cases listed : k ∈ names <;> simp [listed, apart]

theorem get?_names (f : String → String) (names : List String) (k : String) :
    Ordered.get? (names.map fun n => (n, f n)) k = if k ∈ names then some (f k) else none := by
  induction names with
  | nil => rfl
  | cons n names ih =>
    rw [List.map_cons, get?_cons, ih]
    by_cases here : n = k
    · simp [here]
    · simp [here, Ne.symm here]

end Ordered

end HostBridge
