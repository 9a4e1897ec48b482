import HostBridge.Marshal

namespace HostBridge

def kindOf : Native → Attempt Kind
  | .text s => match Kind.ofName? s with
    | some k => .ok k
    | none => .error .unknownKind
  | _ => .error .unknownKind

@[simp]
theorem kindOf_name (k : Kind) : kindOf (.text k.name) = .ok k := by
  simp only [kindOf, Kind.ofName?_name]

/-- Only texts name kinds, each by its one name. -/
theorem kindOf_cases (v : Native) :
    (∃ k : Kind, v = .text k.name ∧ kindOf v = .ok k) ∨
      (∀ k : Kind, v ≠ .text k.name) ∧ kindOf v = .error .unknownKind := by
  by_cases named : ∃ k : Kind, v = .text k.name
  · obtain ⟨k, rfl⟩ := named
    exact .inl ⟨k, rfl, kindOf_name k⟩
  · refine .inr ⟨not_exists.mp named, ?_⟩
    cases v with
    | text s =>
      cases hs : Kind.ofName? s with
      | none => simp only [kindOf, hs]
      | some k =>
        have same := List.find?_some hs
        exact absurd ⟨k, congrArg Native.text (beq_iff_eq.mp same).symm⟩ named
    | _ => rfl

/-- The kind that a value names; what names none is read as any kind. -/
def kindOrAny (v : Native) : Kind :=
  match kindOf v with
  | .ok k => k
  | .error _ => .any

/-- A declared parameter, which tells what incoming values it accepts and what it makes of them. -/
structure Parameter where
  kind : Kind
  optional : Bool
  deriving DecidableEq

namespace Parameter

/-- Only numeric parameters are strict: the value must be tagged as an integer or a float. Every
other kind can be had from any value. -/
def accepts (p : Parameter) (a : Incoming) : Bool :=
  !p.kind.isNumeric || a.kind? == some .integer || a.kind? == some .float

/-- The native value of an argument in the representation of the parameter's kind. -/
def decode (p : Parameter) (a : Incoming) : Attempt Native := do
  (← a.unwrap).coerce p.kind

def text (p : Parameter) : String :=
  p.kind.label ++ (if p.optional then "?" else "")

end Parameter

end HostBridge
