import Mathlib.Data.List.Basic
import Overseer.Text.Blank

set_option autoImplicit false

/-! # Cutting a text at a character

A text is cut into the pieces between the occurrences of a character, and is what these pieces make
when they are joined by it again. Pieces without the character are the pieces of what they make. -/

namespace Overseer.Text

theorem splitAtChar_ne_nil (sep : Char) (cs : List Char) : splitAtChar sep cs ≠ [] := by
  cases cs with
  | nil => simp [splitAtChar]
  | cons c cs =>
    simp only [splitAtChar]
    split
    · simp
    · cases splitAtChar sep cs <;> simp [consFirst]

theorem splitAtChar_of_not_mem {sep : Char} {cs : List Char} (h : sep ∉ cs) :
    splitAtChar sep cs = [cs] := by
  induction cs with
  | nil => rfl
  | cons c cs ih =>
    simp only [List.mem_cons, not_or] at h
    rw [splitAtChar, if_neg (Ne.symm h.1), ih h.2, consFirst]

/-- An occurrence of the separator lies between two pieces. -/
theorem splitAtChar_append (sep : Char) (cs rest : List Char) :
    splitAtChar sep (cs ++ sep :: rest) = splitAtChar sep cs ++ splitAtChar sep rest := by
  induction cs with
  | nil => simp [splitAtChar]
  | cons c cs ih =>
    rw [List.cons_append, splitAtChar, splitAtChar, ih]
    split
    · rfl
    · obtain ⟨piece, pieces, hpieces⟩ := List.exists_cons_of_ne_nil (splitAtChar_ne_nil sep cs)
      rw [hpieces]
      rfl

/-- Pieces without the separator come back when the text joined from them is cut. -/
theorem splitAtChar_intercalate {sep : Char} {pieces : List (List Char)} (hne : pieces ≠ [])
    (h : ∀ p ∈ pieces, sep ∉ p) :
    splitAtChar sep (List.intercalate [sep] pieces) = pieces := by
  induction pieces with
  | nil => exact absurd rfl hne
  | cons p rest ih =>
    have hp : splitAtChar sep p = [p] := splitAtChar_of_not_mem (h p List.mem_cons_self)
    cases rest with
    | nil => simpa using hp
    | cons q rest =>
      have hrest : ∀ r ∈ q :: rest, sep ∉ r := fun r hr => h r (List.mem_cons_of_mem _ hr)
      rw [List.intercalate_cons_cons, List.append_assoc, List.singleton_append,
        splitAtChar_append, hp, ih (by simp) hrest, List.singleton_append]

/-- The pieces of a text make it up. -/
theorem intercalate_splitAtChar (sep : Char) (cs : List Char) :
    List.intercalate [sep] (splitAtChar sep cs) = cs := by
  induction cs with
  | nil => rfl
  | cons c cs ih =>
    obtain ⟨piece, pieces, hpieces⟩ := List.exists_cons_of_ne_nil (splitAtChar_ne_nil sep cs)
    rw [splitAtChar]
    rw [hpieces] at ih ⊢
    split
    · next hc => rw [List.intercalate_cons_cons, ih, hc]; rfl
    · cases pieces with
      | nil => simpa [consFirst] using ih
      | cons piece' pieces =>
        rw [List.intercalate_cons_cons] at ih
        rw [consFirst, List.intercalate_cons_cons, List.cons_append, List.cons_append, ih]

theorem not_mem_of_mem_splitAtChar {sep : Char} {cs piece : List Char}
    (h : piece ∈ splitAtChar sep cs) : sep ∉ piece := by
  induction cs generalizing piece with
  | nil =>
    simp only [splitAtChar, List.mem_singleton] at h
    simp [h]
  | cons c cs ih =>
    simp only [splitAtChar] at h
    split at h
    · rcases List.mem_cons.1 h with rfl | h
      · simp
      · exact ih h
    · next hc =>
      cases hrest : splitAtChar sep cs with
      | nil => exact absurd hrest (splitAtChar_ne_nil sep cs)
      | cons p rest =>
        rw [hrest, consFirst] at h
        rcases List.mem_cons.1 h with rfl | h
        · have hp : sep ∉ p := ih (by rw [hrest]; exact List.mem_cons_self ..)
          simp [Ne.symm hc, hp]
        · exact ih (by rw [hrest]; exact List.mem_cons_of_mem _ h)

end Overseer.Text
