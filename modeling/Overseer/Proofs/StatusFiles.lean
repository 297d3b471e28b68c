import Overseer.Proofs.Heedful
import Overseer.Proofs.Order

set_option autoImplicit false

/-! # Which status file is used

A handle comes on file with the status file that the settings in force stand for. While a status
file is configured the handle that is looked up has that one. When none is configured any more the
handle on file stays, with the status file that was configured earlier: then, and only then, the
status file is not the one that the settings in force stand for (`status_file_of_settings`). -/

namespace Overseer

open History Chronicle Daemon

/-- When somebody went on, the settings of a workspace stood for a status file. -/
def History.Configured (h : History) (k : String) (configured : Option Path) : Prop :=
  ∃ m ∈ h, m.what = .resumed ∧ ∃ n < m.state.registrations.length, m.state.key n = k ∧
    m.state.configured n = .ok configured

variable {h h' : History} {s s' s₀ b : State} {k : String} {n id : Nat}

theorem History.Configured.mono {configured : Option Path} (hc : h.Configured k configured)
    (hsuffix : h <:+ h') : h'.Configured k configured := by
  obtain ⟨m, hm, hrest⟩ := hc
  exact ⟨m, hsuffix.subset hm, hrest⟩

/-- Whether a handle follows settings depends on its paths only. -/
theorem Daemon.Follows.later {identity : Instance} {configured : Option Path}
    (hfollows : Follows identity configured (s.handle id)) (hlater : s.HandlesLater s')
    (hid : id < s.handles.length) : Follows identity configured (s'.handle id) := by
  obtain ⟨started, hpaths⟩ := hlater.paths id hid
  rw [hpaths]
  exact hfollows

/-- A handle on file follows settings that were in force when somebody went on. -/
def History.Provides (h : History) (s : State) : Prop :=
  ∀ k id, s.handleOf.get? k = some id → ∃ configured, h.Configured k configured ∧
    Follows s.daemons.identity configured (s.handle id)

theorem History.Provides.later (hh : h.Provides s) (hs : s.HandlesSound)
    (hlater : s.HandlesLater s') (hdaemons : s'.daemons = s.daemons)
    (hentry : ∀ k id, s'.handleOf.get? k = some id → s.handleOf.get? k = some id ∨
      ∃ configured, h.Configured k configured ∧
        Follows s.daemons.identity configured (s'.handle id)) : h.Provides s' := by
  intro k id hid
  rw [hdaemons]
  rcases hentry k id hid with hold | hnew
  · obtain ⟨configured, hc, hfollows⟩ := hh k id hold
    exact ⟨configured, hc, hfollows.later hlater (hs.valid k id hold)⟩
  · exact hnew

theorem History.Provides.mono (hh : h.Provides s) (hsuffix : h <:+ h') : h'.Provides s := by
  intro k id hid
  obtain ⟨configured, hc, hfollows⟩ := hh k id hid
  exact ⟨configured, hc.mono hsuffix, hfollows⟩

/-- Child processes that cannot be started. -/
def Children.absent : Children where
  answer _ s c := (.error (.files .notFound (c.argv.headD "")), s)

namespace Daemon

variable {children : Children}

/-- The handle that is found for a workspace, and whether it has the status file of the settings in
force. A handle that has not was put on file when others were in force. -/
structure Serves (h : History) (s : State) (n : Nat) (handle : Handle) : Prop where
  status : ∃ configured, s.configured n = .ok configured ∧
    (Follows s.daemons.identity configured handle ↔ ¬ Stale s n)
  stale : Stale s n → ∃ path, h.Configured (s.key n) (some path) ∧ handle.statusFile = path
  /-- The default file is named after the root, resolved when the handle comes on file. -/
  root : (∀ id, ¬ Fits s n id) → s.world.resolve (s.workspace n).root = .ok handle.root

end Daemon

end Overseer
