import Overseer.Proofs.Scheduling

set_option autoImplicit false

/-! # Which settings a process comes from

A process has a command line, a directory and an environment. The directory and the environment are
worked out whenever a process is started, the command line once for all attempts at a command. So
the three come from the same settings, those in force at the start, unless the command line is that
of an earlier attempt and the settings have been changed in between, or its status file is left over
from settings that configured one (`one_snapshot_unless_repeated`). Every other process, of a check,
a restart, a stop or a kill, is of one piece whatever happens meanwhile. -/

namespace Overseer

open Chronicle

namespace Daemon

/-- A command line is worked out from the settings of a workspace and from nothing else: the status
file in it is the one that they stand for. -/
inductive Derived (s : State) (n : Nat) (argv : List Json) : Prop
  | daemon {configured : Option Path} {handle : Handle} {command : String} {args : List Json}
    (hconfigured : (s.workspace n).statusFile s.world = .ok configured)
    (hfollows : Follows s.daemons.identity configured handle)
    (hargs : args = [] ∨ (s.workspace n).runArgs s.world = .ok args)
    (hargv : (s.workspace n).daemonArgv s.world handle command args = .ok argv) : Derived s n argv
  | direct {front : List String} {text : String} {args : List Json}
    (hfront : (s.workspace n).command s.world .direct = .ok front)
    (hargs : (s.workspace n).checkerArgs s.world = .ok args)
    (hargv : argv = front.map .str ++ (.str "-c" :: .str text :: args)) : Derived s n argv

/-- Where a process comes from that is started after others. In all cases its directory and its
environment come from the settings in force at its start. -/
inductive Origin (earlier : List (Call × State)) (n : Nat) (s : State) (c : Call) : Prop
  /-- The command line comes from the same settings. -/
  | whole {s₀ s₁ : State} {argv : List Json} (hline : Derived s₀ n argv)
    (hstarted : Started s₁ n argv s c) (hcore : s₁.core = s.core)
    (hsettings : s₀.workspace n = s.workspace n) : Origin earlier n s c
  /-- All of the command line but the status file comes from the same settings. -/
  | leftOver {s₀ s₁ : State} {argv : List Json} (hstale : Stale s₀ n) (hline : WorkedOut s₀ n argv)
    (hstarted : Started s₁ n argv s c) (hcore : s₁.core = s.core)
    (hsettings : s₀.workspace n = s.workspace n) : Origin earlier n s c
  /-- The command line is that of an earlier process and comes from the settings in force then,
  which are not the settings of now. -/
  | repeated {s₀ s₁ : State} {argv : List Json} {x : Call × State} (hx : x ∈ earlier)
    (hsame : x.1.argv = c.argv) (hline : WorkedOut s₀ n argv)
    (hthen : s₀.workspace n = x.2.workspace n) (hchanged : x.2.workspace n ≠ s.workspace n)
    (hstarted : Started s₁ n argv s c) (hcore : s₁.core = s.core) : Origin earlier n s c

variable {s : State} {n : Nat} {argv : List Json} {c : Call} {earlier : List (Call × State)}

theorem WorkedOut.derived (h : WorkedOut s n argv) (hstale : ¬ Stale s n) : Derived s n argv := by
  cases h with
  | daemon hfound hargs hargv =>
    obtain ⟨configured, hconfigured, hfollows⟩ := hfound.status
    exact .daemon hconfigured (hfollows.2 hstale) hargs hargv
  | direct hfront hargs hargv => exact .direct hfront hargs hargv

theorem Sourced.origin (h : Sourced n earlier s c) : Origin earlier n s c := by
  obtain ⟨s₀, s₁, argv, hline, hstarted, hsource⟩ := h
  have hcore := hstarted.core.symm
  -- a process that is repeated under the same settings is of one piece like any other
  have hwhole : s₀.workspace n = s.workspace n → Origin earlier n s c := by
    intro hsettings
    by_cases hstale : Stale s₀ n
    · exact .leftOver hstale hline hstarted hcore hsettings
    · exact .whole (hline.derived hstale) hstarted hcore hsettings
  rcases hsource with hsettings | ⟨x, hx, hsame, hthen⟩
  · exact hwhole hsettings
  · by_cases hchanged : x.2.workspace n = s.workspace n
    · exact hwhole (hthen.trans hchanged)
    · exact .repeated hx hsame hline hthen hchanged hstarted hcore

end Daemon

namespace History

/-- Whoever starts a process takes it from the settings of the workspace that he is about. -/
theorem Lawful.sourced {s₀ b s : State} {h : History} {i : TaskId} {c : Call}
    (hlawful : Lawful s₀ b (⟨i, .spawned c, s⟩ :: h)) : (h.story i).Sourced s c := by
  generalize hpast : (⟨i, .spawned c, s⟩ :: h : History) = past at hlawful
  induction hlawful with
  | outside hb hworld ih => exact ih hpast
  | spawned j c' hb hstart hduty =>
    cases hpast
    exact hduty.2.2
  | _ => exact absurd hpast (by simp)

end History

/-- Whenever a process is started, its command line, its directory and its environment come from
the settings in force, but for a status file that is left over, and unless the command line is that
of an earlier attempt and the settings have been changed since. -/
theorem one_snapshot_unless_repeated (setup : Setup) (moves : List Move) {m : Moment} {h : History}
    (hm : m :: h <:+ (after setup moves).history) {c : Call} (hspawned : m.what = .spawned c) :
    ∃ n, (h.story m.who).subject? = some n ∧
      Daemon.Origin (h.story m.who).calls n m.state c := by
  obtain ⟨b, hlawful⟩ := (lawful_after setup moves).suffix hm
  obtain ⟨who, what, state⟩ := m
  cases hspawned
  obtain ⟨n, hn, hsourced⟩ := hlawful.sourced
  exact ⟨n, hn, hsourced.origin⟩

/-- A check finds the daemon stuck; while it kills the daemon the settings are changed, and then it
tries once more. -/
def Chronicle.tearing : List Move :=
  [.respond [
      { command := some "run", exitCode := 2, stderr := Text.encode "Daemon has died".toList },
      { command := some "kill", held := true }, { command := some "run", held := true }],
    .request (.add "/w" none), .take, .request (.check "/w"), .take,
    .request (.update "/w"
      ((Settings.set {} .targets (.arr [.str "b"])).set .cwd (.str "/v"))), .take,
    .release 1, .take, .wake 0]

/-- The second attempt runs in the new directory, with the command line of the first. -/
theorem one_snapshot_unless_repeated_when_changed :
    ∃ m h c, m :: h = (after .small tearing).history ∧ m.what = .spawned c ∧
      c.cwd = some "/v" ∧ ∃ x ∈ (History.story h m.who).calls, x.1.argv = c.argv ∧
      x.1.cwd = some "/w" ∧ Daemon.Origin (History.story h m.who).calls 0 m.state c := by
  have hrun : (after .small tearing).atLast (fun m h =>
      m.what.spawned?.any (fun c => c.cwd == some "/v" &&
        (History.story h m.who).calls.any fun x =>
          x.1.argv == c.argv && x.1.cwd == some "/w") &&
      (History.story h m.who).subject? == some 0) = true := by
    decide +kernel
  obtain ⟨m, h, hpast, hlast⟩ := exists_of_atLast hrun
  simp only [Bool.and_eq_true, beq_iff_eq, Option.any_eq_true, List.any_eq_true] at hlast
  obtain ⟨⟨c, hc, hcwd, x, hx, hsame, hold⟩, hsubject⟩ := hlast
  have hspawned := Happening.spawned_of_spawned? hc
  obtain ⟨n, hn, horigin⟩ := one_snapshot_unless_repeated .small tearing ⟨[], hpast⟩ hspawned
  obtain rfl : 0 = n := Option.some.inj (hsubject.symm.trans hn)
  exact ⟨m, h, c, hpast, hspawned, hcwd, x, hx, hsame, hold, horigin⟩

/-- The target of a check and the directory of its process, by the settings of a workspace. -/
def Chronicle.targetAndCwd (s : State) (n : Nat) : Option String × Option String :=
  ((((s.workspace n).runArgs s.world).bind Daemon.words).toOption.bind List.getLast?,
    ((s.workspace n).cwd s.world).toOption)

/-- The settings in force at the end stand for the target `/w/b` and the directory `/v`, those
before stood for `/w` twice. The last process has the target of the old ones and the directory of
the new ones. -/
theorem torn_between_attempts :
    targetAndCwd (after .small tearing).session.state 0 = (some "/w/b", some "/v") ∧
      (after .small tearing).session.calls.map (fun c => (c.argv.getLast?, c.cwd)) =
        [(some "/w", some "/w"), (some "kill", some "/w"), (some "/w", some "/v")] := by
  decide +kernel

end Overseer
