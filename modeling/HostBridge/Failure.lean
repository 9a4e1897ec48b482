import HostBridge.Kind
import HostBridge.Native.Basic

namespace HostBridge

/-- What is wrong with a wire value. -/
inductive WireDefect where
  | notMapping
  | entryCount (found : Nat)
  | arrayPayload
  | objectPayload
  | objectEntry
  | unknownTag (tag : Native)

/-- The cause of a failure. The first group is reported to the host with a message, and so is what a
callback refuses in words of its own; the second names what was wrong with a native value or a
declaration. -/
inductive Failure where
  | malformed (payload : Native) (defect : WireDefect)
  | missingArgument (name : String) (expected supplied : Nat)
  | wrongKind (name : String) (position : Nat) (expected : Kind)
  | requiredAfterOptional (name : String)
  | unknownBinding (target : Native)
  | refused (message : String)
  | notTagged (value : Native)
  | raised (text : String)
  | unknownKind
  | tooManyDigits
  | noJsonForm
  | unknownLevel
  | badFormat
  | tooLong
  | emptyArgument
  | unhashableKey
  | badCall
  | badOperand
  | missingKey
  | outOfRange
  | missingOperation
  | divisionByZero
  | overflow
  | invalidSetting
  | unknownModule
  | emptyModuleName
  | missingReference

namespace WireDefect

/-- The reason given for refusing a wire value. The text of an unknown tag is found only where the
refused payload has a text itself. -/
def reason : WireDefect → String
  | .notMapping => "expected a mapping"
  | .entryCount found => s!"expected exactly one tag, found {found}"
  | .arrayPayload => "Array payload must be a list"
  | .objectPayload => "Object payload must be a list of pairs"
  | .objectEntry => "Object entries must be [key, value] pairs"
  | .unknownTag tag => "unknown tag " ++ tag.display?.getD ""

end WireDefect

namespace Failure

def message? : Failure → Option String
  | .malformed payload defect =>
    some ("Malformed tagged value " ++ payload.display?.getD "" ++ ": " ++ defect.reason)
  | .missingArgument name expected _ =>
    some s!"Missing a parameter for {name}: Expected {expected} arguments"
  | .wrongKind name position expected =>
    some s!"Invalid value for parameter {position} of {name}: Expected {expected.label}"
  | .requiredAfterOptional name =>
    some s!"Optional arguments must be the last parameters of {name}"
  | .unknownBinding target =>
    some ("No function or decorator registered as " ++ target.plain?.getD "")
  | .refused message => some message
  | .notTagged value => some ("Not a tagged value: " ++ value.display?.getD "")
  | .raised text => some text
  | _ => none

/-- The message reported to the host, for the failures that are the bridge's own. -/
def hostMessage? : Failure → Option String
  | .notTagged _ | .raised _ => none
  | f => f.message?

/-- The failure for a refused wire value. Its message shows the value, so one that has no text
fails for that instead. -/
def ofDefect (payload : Native) (defect : WireDefect) : Failure :=
  if payload.display?.isSome then .malformed payload defect else .tooManyDigits

end Failure

/-- A result or the cause why there is none. -/
abbrev Attempt (α : Type) := Except Failure α

namespace Attempt

variable {α β : Type}

@[simp]
theorem pure_ok (a : α) : (pure a : Attempt α) = .ok a := rfl

@[simp]
theorem ok_bind {ε : Type} (a : α) (f : α → Except ε β) : (Except.ok a : Except ε α) >>= f = f a :=
  rfl

@[simp]
theorem error_bind (e : Failure) (f : α → Attempt β) :
    (Except.error e : Attempt α) >>= f = .error e := rfl

/-- What follows an attempt answers only when the attempt did. -/
theorem bind_ok {x : Attempt α} {f : α → Attempt β} {r : β} :
    x >>= f = .ok r ↔ ∃ a, x = .ok a ∧ f a = .ok r := by
  cases x <;> simp

theorem bind_error {x : Attempt α} {f : α → Attempt β} {e : Failure} :
    x >>= f = .error e ↔ x = .error e ∨ ∃ a, x = .ok a ∧ f a = .error e := by
  cases x <;> simp

/-- What is only made into another value fails as it does itself. -/
theorem bind_pure_error {x : Attempt α} {f : α → β} {e : Failure} :
    (x >>= fun a => pure (f a)) = .error e ↔ x = .error e := by
  cases x <;> simp

end Attempt

end HostBridge
