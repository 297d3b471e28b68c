import Overseer.Proofs.Scheduling

set_option autoImplicit false

/-! # One check of a workspace at a time

All checks of a registration go through the lock that is on file for its root, so no two of them
are inside at the same time (`check_unique`). There is one gap: a removal forgets the lock of the
root at its very end, after it has waited for the daemon to stop. If the root has been registered
anew meanwhile, the lock of the new registration is forgotten, and its next check makes another
one and does not wait (`two_checks_after_overlap`). Without such an overlap the lock on file stays
the same for as long as the registration lasts. -/

namespace Overseer

open Chronicle

namespace History

/-- A check of a registration is inside the lock of the workspace. -/
def Checking (h : History) (i : TaskId) (n : Nat) : Prop :=
  (∃ q ∈ (h.story i).request?, q.isCheck = true) ∧ (h.story i).subject? = some n ∧
    (h.story i).holding.isSome = true

instance (h : History) (i : TaskId) (n : Nat) : Decidable (h.Checking i n) :=
  inferInstanceAs (Decidable (_ ∧ _))

/-- In a lawful history the checks of a registration that are inside hold the lock on file. -/
theorem Lawful.lock_of_checking {s₀ b s : State} {h : History} {i : TaskId} {n : Nat}
    (hlawful : Lawful s₀ b h) (hs : b.Later s) (hremoved : s.isRemoved n = false)
    (hclear : ¬ h.Overlapped n) (hi : h.Checking i n) :
    ∃ l, b.lockOf.get? (b.key n) = some l ∧ (h.story i).holding = some l := by
  obtain ⟨-, hsubject, hholding⟩ := hi
  obtain ⟨l, hl⟩ := Option.isSome_iff_exists.1 hholding
  obtain ⟨q, n', -, -, hsubject', hn, hlock, -⟩ := hlawful.arrived (hlawful.mem_arrivals hl)
  obtain rfl : n = n' := Option.some.inj (hsubject.symm.trans hsubject')
  have hunderway : h.Underway i l := ⟨hlawful.mem_arrivals hl, fun _ => hl⟩
  exact ⟨l, hlock hunderway (hs.not_removed hn hremoved) hclear, hl⟩

end History

/-- At no moment are two checks of a registered workspace inside, unless a removal of an earlier
registration of the root overlaps with the registration. -/
theorem check_unique (setup : Setup) (moves : List Move) {m : Moment} {h : History}
    (hpast : m :: h <:+ (after setup moves).history) {k : String} {n : Nat}
    (hn : m.state.registry.get? k = some n) (hclear : ¬ History.Overlapped n (m :: h)) :
    ∀ i j, History.Checking (m :: h) i n → History.Checking (m :: h) j n → i = j := by
  intro i j hi hj
  obtain ⟨b', hsuffix⟩ := (lawful_after setup moves).suffix hpast
  obtain ⟨b, hlawful, hon⟩ := hsuffix.onward (coherent_setup setup)
  obtain ⟨-, -, hregistered⟩ := hon.2.registered k n hn
  obtain ⟨l, hl, hil⟩ := hlawful.lock_of_checking hon.1 hregistered hclear hi
  obtain ⟨l', hl', hjl⟩ := hlawful.lock_of_checking hon.1 hregistered hclear hj
  obtain rfl : l = l' := Option.some.inj (hl.symm.trans hl')
  exact hlawful.holder_unique hil hjl

/-- A root is removed and registered anew while the daemon is still being stopped, and then
checked twice. -/
def Chronicle.removing : List Move :=
  [.respond [{ command := some "run" }, { command := some "stop", held := true },
      { command := some "run", held := true }, { command := some "run", held := true }],
    .request (.add "/w" none), .take, .request (.check "/w"), .take, .request (.remove "/w"), .take,
    .request (.add "/w" none), .take, .request (.check "/w"), .take, .request (.check "/w"), .take]

/-- The lock of the earlier registration serves as long as the removal has not ended. -/
theorem check_unique_while_removing : ∃ m h, m :: h = (after .small removing).history ∧
    m.state.registry.get? "/w" = some 1 ∧ History.Checking (m :: h) (.host 4) 1 ∧
      ∀ i j, History.Checking (m :: h) i 1 → History.Checking (m :: h) j 1 → i = j := by
  have hrun : History.Checking (after .small removing).history (.host 4) 1 ∧
      ¬ History.Overlapped 1 (after .small removing).history ∧
      (after .small removing).history.head?.map (fun m => m.state.registry.get? "/w") =
        some (some 1) := by
    decide +kernel
  cases hpast : (after .small removing).history with
  | nil =>
    rw [hpast] at hrun
    exact absurd hrun.2.2 (by simp)
  | cons m h =>
    rw [hpast] at hrun
    obtain ⟨hchecking, hclear, hregistered⟩ := hrun
    replace hregistered : m.state.registry.get? "/w" = some 1 := Option.some.inj hregistered
    have hsuffix : m :: h <:+ (after .small removing).history := ⟨[], hpast.symm⟩
    exact ⟨m, h, rfl, hregistered, hchecking,
      check_unique .small removing hsuffix hregistered hclear⟩

/-- The same, and then the removal ends and there is one more check. -/
def Chronicle.removed : List Move :=
  removing ++ [.release 1, .take, .request (.check "/w"), .take]

/-- The lock has been forgotten, and the last check did not wait: two checks of the registered
workspace are inside. -/
theorem two_checks_after_overlap :
    (after .small removed).session.state.registry.get? "/w" = some 1 ∧
      History.Checking (after .small removed).history (.host 4) 1 ∧
      History.Checking (after .small removed).history (.host 6) 1 := by
  decide +kernel

end Overseer
