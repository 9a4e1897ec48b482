import HostBridge.Binding
import HostBridge.Proofs.Lossless

namespace HostBridge

/-- A payload that is a number, a text or a boolean. -/
def Native.PlainScalar : Native → Prop
  | .bool _ | .int _ | .float _ | .text _ => True
  | _ => False

namespace Tagged

def HasPlainPayload : Tagged → Prop
  | .scalar _ payload => payload.PlainScalar
  | _ => True

/-- Every scalar in a value has a number, a text or a boolean as its payload. -/
def Plain (t : Tagged) : Prop :=
  t.Everywhere HasPlainPayload

theorem ShapeNormal.plain {t : Tagged} (h : t.ShapeNormal) : t.Plain := by
  refine h.mono fun t ht => ?_
  cases t with
  | scalar tag payload => cases payload <;> first | trivial | (cases tag <;> exact ht.elim)
  | array | object => trivial

end Tagged

namespace Store

/-- All values in a store are plain. -/
def Plain (s : Store) : Prop :=
  ∀ e ∈ s, e.2.Plain

theorem plain_ofVariables (vars : Variables) : Plain (.ofVariables vars) :=
  List.forall_mem_map.mpr fun e _ => (tag_shapeNormal e.2).plain

theorem withList_plain {t : Tagged} (h : t.Plain) (items : Option (List Native)) :
    withList t items = t := by
  unfold withList
  split
  · cases h with
    | scalar here => exact here.elim
  · rfl

/-- Changes of lists in place do not reach a plain store. -/
theorem edit_plain {s : Store} (h : s.Plain) (edits : Ordered Native (List Native)) :
    s.edit edits = s := by
  unfold edit
  refine (List.map_congr_left fun e he => ?_).trans (List.map_id s)
  rw [withList_plain (h e he)]
  rfl

theorem Plain.insert {s : Store} (h : s.Plain) (k : Native) {t : Tagged} (ht : t.Plain) :
    Plain (Ordered.insert s k t) := fun e he =>
  (Ordered.forall_insert (P := fun _ => True) (fun e he => ⟨trivial, h e he⟩) trivial ht e he).2

/-- A variable is read under its key as its value without tags. -/
theorem read_at {s : Store} {vars : Variables} (h : s.read = .ok vars) {i : Nat} {k : Native}
    {t : Tagged} (hi : s[i]? = some (k, t)) : ∃ v, t.unwrap = .ok v ∧ vars[i]? = some (k, v) := by
  induction s generalizing vars i with
  | nil => simp at hi
  | cons e es ih =>
    obtain ⟨k', t'⟩ := e
    simp only [read, Attempt.bind_ok] at h
    obtain ⟨v, hv, rest, hr, he⟩ := h
    cases he
    cases i with
    | zero =>
      simp only [List.getElem?_cons_zero, Option.some.injEq, Prod.mk.injEq] at hi
      obtain ⟨rfl, rfl⟩ := hi
      exact ⟨v, hv, rfl⟩
    | succ i => exact ih hr (by simpa using hi)

theorem read_keys {s : Store} {vars : Variables} (h : s.read = .ok vars) :
    vars.map (·.1) = s.map (·.1) := by
  induction s generalizing vars with
  | nil =>
    cases h
    rfl
  | cons e es ih =>
    obtain ⟨k, t⟩ := e
    simp only [read, Attempt.bind_ok] at h
    obtain ⟨v, _, rest, hr, he⟩ := h
    cases he
    simp [ih hr]

theorem read_get {s : Store} {vars : Variables} (h : s.read = .ok vars) {k v : Native} {t : Tagged}
    (hk : s.get? k = some t) (hv : t.unwrap = .ok v) : vars.get? k = some v := by
  induction s generalizing vars with
  | nil => cases hk
  | cons e es ih =>
    simp only [read, Attempt.bind_ok] at h
    obtain ⟨w, hw, rest, hr, he⟩ := h
    cases he
    rw [Ordered.get?_cons] at hk ⊢
    split at hk
    · rename_i same
      cases hk
      rw [hw] at hv
      cases hv
      exact if_pos same
    · rename_i other
      rw [if_neg other]
      exact ih hr hk

theorem ofVariables_get {vars : Variables} {k v : Native} (h : vars.get? k = some v) :
    (ofVariables vars).get? k = some v.tag := by
  induction vars with
  | nil => cases h
  | cons e es ih =>
    change Ordered.get? ((e.1, e.2.tag) :: ofVariables es) k = _
    rw [Ordered.get?_cons] at h ⊢
    split at h
    · rename_i same
      cases h
      exact if_pos same
    · rename_i other
      exact (if_neg other).trans (ih h)

/-- Changes of lists in place do not reach a plain value. -/
theorem edit_get {s : Store} {k : Native} {t : Tagged} (h : s.get? k = some t) (ht : t.Plain)
    (edits : Ordered Native (List Native)) : (s.edit edits).get? k = some t := by
  induction s with
  | nil => cases h
  | cons e es ih =>
    change Ordered.get? ((e.1, withList e.2 (edits.get? e.1)) :: Store.edit es edits) k = _
    rw [Ordered.get?_cons] at h ⊢
    split at h
    · rename_i same
      cases h
      rw [withList_plain ht]
      exact if_pos same
    · rename_i other
      exact (if_neg other).trans (ih h)

theorem ofVariables_keys (vars : Variables) : (ofVariables vars).map (·.1) = vars.map (·.1) := by
  simp [ofVariables]

/-- Variables that are written and read again come back under the same keys, and those in normal
form with the same values. -/
theorem read_ofVariables {vars next : Variables} (h : (ofVariables vars).read = .ok next) :
    next.map (·.1) = vars.map (·.1) ∧
      ∀ (i : Nat) (k v : Native), vars[i]? = some (k, v) → v.Normal → next[i]? = some (k, v) := by
  refine ⟨(read_keys h).trans (ofVariables_keys vars), fun i k v hi normal => ?_⟩
  have written : (ofVariables vars)[i]? = some (k, v.tag) := by simp [ofVariables, hi]
  obtain ⟨w, hw, found⟩ := read_at h written
  rw [unwrap_tag_normal normal] at hw
  cases hw
  exact found

end Store

end HostBridge
