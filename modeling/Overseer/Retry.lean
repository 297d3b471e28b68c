import Overseer.Fault.Basic

set_option autoImplicit false

/-! # Bounded retries

An operation is attempted up to a bound. After an attempt that failed with a fault to be
retried, and before the next one, something is done about the fault; if that fails, its fault
is the result. The fault of the last attempt is the result as it is. -/

namespace Overseer.Retry

variable {m : Type → Type} [Monad m] {α : Type}

/-- Attempts from a number on, with so many left behind the first of them. -/
def attemptsFrom (retries : Fault → Bool) (attempt : Nat → m (Except Fault α))
    (between : Nat → Fault → m (Except Fault Unit)) : Nat → Nat → m (Except Fault α)
  | 0, number => attempt number
  | left + 1, number => do
    match ← attempt number with
    | .ok a => return .ok a
    | .error e =>
      if retries e then
        match ← between number e with
        | .ok () => attemptsFrom retries attempt between left (number + 1)
        | .error e => return .error e
      else return .error e

/-- The text about an attempt that will be repeated. -/
def note (number : Nat) (bound : Int) (e : Fault) : String :=
  s!"Attempt {number}/{bound} failed ({e.cls.name}), retrying"

/-- Between two attempts: a note, the recovery if there is one, and a pause unless it is
empty. -/
def pause (log : String → m Unit) (recover : Option (Fault → m (Except Fault Unit)))
    (sleep : Int → m Unit) (bound delay : Int) (number : Nat) (e : Fault) :
    m (Except Fault Unit) := do
  log (note number bound e)
  let recovered ← match recover with
    | some f => f e
    | none => pure (.ok ())
  match recovered with
  | .error e => return .error e
  | .ok () =>
    if delay ≠ 0 then sleep delay
    return .ok ()

/-- Attempt an operation up to a bound, which has to be at least one. -/
def bounded (bound : Int) (retries : Fault → Bool) (attempt : Nat → m (Except Fault α))
    (between : Nat → Fault → m (Except Fault Unit)) : m (Except Fault α) :=
  if bound < 1 then return .error (.noAttempts bound)
  else attemptsFrom retries attempt between (bound - 1).toNat 1

end Overseer.Retry
