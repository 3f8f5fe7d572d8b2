namespace AgentWire

/-!
# Time and cancellation

Time is counted in milliseconds and jumps over idle spans.  A token may be
cancelled by hand, or at a set time as soon as somebody waits beyond it.
-/

/-- Something that arrives, or a span of time before the next thing. -/
inductive Timed (α : Type) where
  | arrival (value : α)
  | pause (milliseconds : Nat)
  deriving Repr

/-- The time, and a token that can be cancelled. -/
structure Clock where
  now : Nat := 0
  cancelAt : Option Nat := none
  cancelled : Bool := false
  deriving Repr, DecidableEq

namespace Clock

/-- A clock whose token is cancelled at a time; time zero means at once. -/
def start (cancelAt : Option Nat) : Clock where
  cancelAt := cancelAt
  cancelled := cancelAt == some 0

/-- Cancel the token. -/
def cancel (clock : Clock) : Clock :=
  { clock with cancelled := true }

/-- Let time pass without looking at the token. -/
def advance (clock : Clock) (milliseconds : Nat) : Clock :=
  { clock with now := clock.now + milliseconds }

/--
Wait while the token is not cancelled.  A wait that ends when the token is due
ends first.  The result says whether the whole wait has passed.
-/
def wait (clock : Clock) (milliseconds : Nat) : Bool × Clock :=
  if clock.cancelled then
    (false, clock)
  else if milliseconds = 0 then
    (true, clock)
  else
    match clock.cancelAt with
    | some due =>
        if due < clock.now + milliseconds then
          (false, { clock with now := max clock.now due, cancelled := true })
        else
          (true, clock.advance milliseconds)
    | none => (true, clock.advance milliseconds)

end Clock

/-- How much of what is on offer a consumer takes, and when it cancels. -/
structure Appetite where
  received : Nat := 0
  cancelAfter : Option Nat := none
  stopAfter : Option Nat := none
  deriving Repr, DecidableEq

namespace Appetite

/-- Take one more item; the token may be cancelled now. -/
def take (appetite : Appetite) (clock : Clock) : Appetite × Clock :=
  let received := appetite.received + 1
  ({ appetite with received },
   if appetite.cancelAfter = some received then clock.cancel else clock)

/-- Whether the consumer wants no more. -/
def isSated (appetite : Appetite) : Bool :=
  appetite.stopAfter == some appetite.received

end Appetite

end AgentWire
