import Overseer.Proofs.Scheduling

set_option autoImplicit false

/-! # What gets past an operation

A host that has been given a registration can have it checked, restarted, stopped or killed, and
expects the result of a check for an answer, whatever goes wrong. It gets one, and no failure of the
checker ever gets past these operations. Some other faults do (`Request.Excuse`): those of reading
what the checker wrote, of cells that hold no text, of stopping and of killing a daemon. -/

namespace Overseer

open Chronicle History Op

variable {i : TaskId} {h : History} {s : State} {q : Request} {n : Nat}

/-! ## One operation -/

/-- What a task was asked for does not change while it conducts itself well. -/
theorem Op.Keeps.request {α : Type} {p : Op α} {Q : Except Fault α → History → State → Prop}
    (hp : p.Keeps (conduct i) Q h s) (hq : h.request? = some q) :
    p.Keeps (conduct i) (fun r h' s' => h'.request? = some q ∧ Q r h' s') h s := by
  rw [keeps_iff_run] at hp ⊢
  -- the two pasts are the same one, and no step adds a moment at which something is asked for
  refine Prog.Keeps.mono (Prog.Keeps.transfer (R := fun h₁ h₂ _ => h₁ = h₂ ∧ h₂.request? = some q)
    ?_ ?_ ?_ ?_ ?_ ?_ hp ⟨rfl, hq⟩) ?_
  · exact fun _ _ _ _ hR hduty => ⟨hduty, hR⟩
  · rintro h₁ _ s' c ⟨rfl, hq⟩ hduty
    exact ⟨hduty, fun _ _ _ _ _ => ⟨rfl, hq⟩⟩
  · rintro h₁ _ s' ms ⟨rfl, hq⟩ hduty
    exact ⟨hduty, fun _ _ => ⟨rfl, hq⟩⟩
  · rintro h₁ _ s' l ⟨rfl, hq⟩ hduty
    exact ⟨hduty, fun _ _ _ _ => ⟨rfl, hq⟩⟩
  · rintro h₁ _ s' l ⟨rfl, hq⟩ hduty
    exact ⟨hduty, rfl, hq⟩
  · rintro h₁ _ s' jobs ⟨rfl, hq⟩ hduty
    exact ⟨hduty, fun _ _ => ⟨rfl, hq⟩⟩
  · rintro r h' s' ⟨_, ⟨rfl, hq⟩, hQ⟩
    exact ⟨hq, hQ⟩

end Overseer
