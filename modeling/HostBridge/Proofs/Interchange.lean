import Mathlib.Data.List.Forall2
import HostBridge.Callback.Stock
import HostBridge.Bridge
import HostBridge.Proofs.WireForm

namespace HostBridge

namespace Incoming

/-- An argument that may take the place of another: the same one, or the tagged value that a wire
value is read as. -/
inductive StandsFor : Incoming → Incoming → Prop
  | same (a : Incoming) : StandsFor a a
  | read (h : Tagged.ofWire w = .ok t) : StandsFor (.tagged t) (.wire w)

/-- The kind that a wire value claims by its key is the one of the value that it is read as. -/
theorem kind_wire {w : Native} {t : Tagged} (h : Tagged.ofWire w = .ok t) :
    (wire w).kind? = some t.kind := by
  rcases Tagged.ofWire_cases h with ⟨tag, payload, rfl, rfl⟩ | ⟨inner, items, ts, rfl, _, _, rfl⟩ |
    ⟨inner, entries, ps, rfl, _, _, rfl⟩
  · exact Kind.ofName?_name tag.kind
  · exact Kind.ofName?_name .array
  · exact Kind.ofName?_name .object

theorem StandsFor.kind {a b : Incoming} (h : StandsFor a b) : a.kind? = b.kind? := by
  cases h with
  | same => rfl
  | read h => exact (kind_wire h).symm

theorem StandsFor.toTagged {a b : Incoming} (h : StandsFor a b) : a.toTagged = b.toTagged := by
  cases h with
  | same => rfl
  | read h => exact h.symm

theorem StandsFor.unwrap {a b : Incoming} (h : StandsFor a b) : a.unwrap = b.unwrap := by
  rw [Incoming.unwrap, Incoming.unwrap, h.toTagged]

theorem kinds_standsFor {args args' : List Incoming} (h : List.Forall₂ StandsFor args' args) :
    args'.map kind? = args.map kind? := by
  induction h with
  | nil => rfl
  | cons first _ ih => rw [List.map_cons, List.map_cons, first.kind, ih]

end Incoming

open Incoming (StandsFor)

namespace Parameter

theorem accepts_standsFor (p : Parameter) {a b : Incoming} (h : StandsFor a b) :
    p.accepts a = p.accepts b := by
  rw [accepts, accepts, h.kind]

theorem decode_standsFor (p : Parameter) {a b : Incoming} (h : StandsFor a b) :
    p.decode a = p.decode b := by
  rw [decode, decode, h.unwrap]

end Parameter

namespace Binding

variable {args args' : List Incoming}

theorem firstRefused_standsFor (h : List.Forall₂ StandsFor args' args) (ps : List Parameter)
    (position : Nat) : firstRefused? position ps args' = firstRefused? position ps args := by
  induction h generalizing ps position with
  | nil => rfl
  | cons first _ ih =>
    cases ps with
    | nil => rfl
    | cons p ps => rw [firstRefused?, firstRefused?, p.accepts_standsFor first, ih]

theorem decodeEach_standsFor (h : List.Forall₂ StandsFor args' args) (ps : List Parameter) :
    decodeEach ps args' = decodeEach ps args := by
  induction h generalizing ps with
  | nil => cases ps <;> rfl
  | cons first _ ih =>
    cases ps with
    | nil => rw [decodeEach, decodeEach, first.unwrap, ih]
    | cons p ps => rw [decodeEach, decodeEach, p.decode_standsFor first, ih]

/-- All checks of arguments, and what the arguments are decoded to, are the same. -/
theorem decodeArguments_standsFor (h : List.Forall₂ StandsFor args' args) (b : Binding) :
    b.decodeArguments args' = b.decodeArguments args := by
  rw [decodeArguments, decodeArguments, h.length_eq, firstRefused_standsFor h,
    decodeEach_standsFor h]

theorem considered_standsFor (h : List.Forall₂ StandsFor args' args) (b : Binding) :
    List.Forall₂ StandsFor (b.considered args') (b.considered args) := by
  unfold considered
  split
  · exact h
  · exact List.forall₂_take 1 h

end Binding

namespace Bridge

variable {args args' : List Incoming}

theorem run_standsFor (h : List.Forall₂ StandsFor args' args) (g : Bridge) (b : Binding) :
    g.run b args' = g.run b args := by
  have prepared : b.prepare (g.contents b) (b.considered args') =
      b.prepare (g.contents b) (b.considered args) := by
    rw [Binding.prepare, Binding.prepare,
      Binding.decodeArguments_standsFor (Binding.considered_standsFor h b)]
  rw [run, run, prepared]

theorem call_standsFor (h : List.Forall₂ StandsFor args' args) (g : Bridge) (registry : Nat)
    (target : Native) : g.call registry target args' = g.call registry target args := by
  unfold call invoke
  split
  · rfl
  · rw [h.length_eq]
    dsimp only
    split
    · rfl
    · exact run_standsFor h _ _

/-- Wire values among arguments, whichever, may be replaced by the tagged values that they are read
as. The kinds that they claim, what any binding decodes them to or refuses them for, and the answer
of a call with the whole bridge that it leaves stay the same; and a call on wire values answers the
wire form of what the call on tagged values answers. -/
theorem arguments_interchangeable (h : List.Forall₂ StandsFor args' args) (g : Bridge)
    (registry : Nat) (target : Native) :
    args'.map Incoming.kind? = args.map Incoming.kind? ∧
    (∀ b : Binding, b.decodeArguments args' = b.decodeArguments args) ∧
    g.call registry target args' = g.call registry target args ∧
    g.callWire registry target args =
      ((g.call registry target args').1.map Tagged.toWire, (g.call registry target args').2) := by
  have called := call_standsFor h g registry target
  exact ⟨Incoming.kinds_standsFor h, Binding.decodeArguments_standsFor h, called,
    by rw [callWire, called]⟩

/-- A function of a number and a list that answers its arguments. -/
def paired : Binding :=
  { Binding.function "paired" Callback.echo .any (some 0) with
    parameters := [⟨.numeric, false⟩, ⟨.array, true⟩] }

/-- The second of two wire values is replaced. The call is the same, and so is the store; where the
first is a text the refusal is the same, with its position. -/
theorem second_interchangeable :
    let g := { initial with
      bindings := [paired]
      stores := [[(.text "x", .scalar .float (.float (.infinite true)))]]
      registries := [(Registry.empty "r" "" "" (some 0)).register paired 0] }
    let seven := Native.table [(.text "Integer", .text " 7 ")]
    let none := Native.table [(.text "Array", .tuple [])]
    let target := Native.text "lavendeuxfunction_paired"
    List.Forall₂ StandsFor [.wire seven, .tagged (.array [])] [.wire seven, .wire none] ∧
      g.callWire 0 target [.wire seven, .wire none] =
        (.ok (.table [(.text "Array", .list [.table [(.text "Integer", .int 7)],
            .table [(.text "Array", .list [])]])]),
          (g.call 0 target [.wire seven, .tagged (.array [])]).2) ∧
      paired.decodeArguments [.tagged (.array []), .wire seven] =
        .error (.wrongKind "paired" 1 .numeric) ∧
      paired.decodeArguments [.wire none, .wire seven] =
        .error (.wrongKind "paired" 1 .numeric) := by
  intro g seven none target
  have second : List.Forall₂ StandsFor [.wire seven, .tagged (.array [])]
      [.wire seven, .wire none] := .cons (.same _) (.cons (.read rfl) .nil)
  have first : List.Forall₂ StandsFor [.tagged (.array []), .wire seven]
      [.wire none, .wire seven] := .cons (.read rfl) (.cons (.same _) .nil)
  obtain ⟨_, _, _, called⟩ := arguments_interchangeable second g 0 target
  obtain ⟨_, decoded, _, _⟩ := arguments_interchangeable first g 0 target
  have refused : paired.decodeArguments [.tagged (.array []), .wire seven] =
      .error (.wrongKind "paired" 1 .numeric) := by rfl
  exact ⟨second, called.trans (by rfl), refused, (decoded paired).symm.trans refused⟩

end Bridge

end HostBridge
