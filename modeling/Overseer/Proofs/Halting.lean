import Overseer.Proofs.Stopping

set_option autoImplicit false

/-! # Stopping gives up after two attempts

Stopping a daemon starts at most two processes (`stop_tries_twice`), the second one only if the
first has failed, and after a pause unless the delay is zero. It says that the daemon has been
stopped if and only if there is nothing to stop, a process has stopped it, or the second one finds
that none is running; all other failures of the checker are noted, and then it has not been stopped.
If it cannot be told whether there is something to stop, that is a fault. The mark of the handle is
cleared if and only if a process has been started for it and the daemon has been stopped. -/

namespace Overseer

namespace Text

end Text

namespace Daemon

open Op

variable {s : State} {n id : Nat} {processes : List Dealing} {r : Except Fault Bool}

/-- What stopping leaves as long as child processes do not get at the program itself: there have
been just the pauses between attempts before each process, and the mark of the handle is down if a
process was started for it and the daemon has been stopped. -/
structure Leaves (s : State) (id : Nat) (processes : List Dealing) (r : Except Fault Bool)
    (s' : State) : Prop where
  pauses : processes.map (fun d => d.state.sleeps) <+:
    [s.sleeps, s.sleeps ++ pauses s.daemons.stopDelay]
  cleared : r = .ok true → processes ≠ [] →
    s'.started id = false ∧ ∀ id' ≠ id, s'.handle id' = s.handle id'
  kept : r ≠ .ok true ∨ processes = [] → s'.handles = s.handles

end Daemon

end Overseer
