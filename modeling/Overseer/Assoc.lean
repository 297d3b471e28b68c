set_option autoImplicit false

/-! # Maps that remember insertion order

A map is a list of entries with pairwise different keys. A new key goes to the end, a known
key keeps its place when its value is replaced. Listings and reports follow this order. -/

namespace Overseer

/-- A finite map in the order in which its keys were first entered. -/
structure Assoc (α β : Type) where
  /-- The entries in order. -/
  entries : List (α × β)
  /-- No key occurs twice. -/
  nodup : (entries.map Prod.fst).Nodup
  deriving DecidableEq

namespace Assoc

variable {α β γ : Type}

/-- The map without entries. -/
def empty : Assoc α β := ⟨[], List.nodup_nil⟩

instance : Inhabited (Assoc α β) := ⟨empty⟩

/-- The keys in order. -/
def keys (m : Assoc α β) : List α := m.entries.map Prod.fst

/-- The values in order. -/
def values (m : Assoc α β) : List β := m.entries.map Prod.snd

/-- The number of entries. -/
def size (m : Assoc α β) : Nat := m.entries.length

/-- The value of a key. -/
def get? [DecidableEq α] (m : Assoc α β) (k : α) : Option β :=
  (m.entries.find? fun e => e.1 = k).map Prod.snd

/-- Whether a key has a value. -/
def contains [DecidableEq α] (m : Assoc α β) (k : α) : Bool := m.keys.contains k

theorem keys_replace [DecidableEq α] (l : List (α × β)) (k : α) (v : β) :
    (l.map fun e => if e.1 = k then (e.1, v) else e).map Prod.fst = l.map Prod.fst := by
  rw [List.map_map]
  apply List.map_congr_left
  intro e _
  by_cases h : e.1 = k <;> simp [h]

/-- Enter a value: in place for a known key, at the end for a new one. -/
def insert [DecidableEq α] (m : Assoc α β) (k : α) (v : β) : Assoc α β :=
  if h : k ∈ m.keys then
    { entries := m.entries.map fun e => if e.1 = k then (e.1, v) else e
      nodup := by rw [keys_replace]; exact m.nodup }
  else
    { entries := m.entries ++ [(k, v)]
      nodup := by
        rw [List.map_append, List.nodup_append]
        refine ⟨m.nodup, by simp, ?_⟩
        intro a ha b hb hab
        simp only [List.map_cons, List.map_nil, List.mem_singleton] at hb
        exact h (by rw [keys, ← hb, ← hab]; exact ha) }

/-- Keep the entries whose key passes a test. -/
def filterKeys (m : Assoc α β) (p : α → Bool) : Assoc α β :=
  { entries := m.entries.filter fun e => p e.1
    nodup := m.nodup.sublist (List.filter_sublist.map Prod.fst) }

/-- Drop a key. -/
def erase [DecidableEq α] (m : Assoc α β) (k : α) : Assoc α β :=
  m.filterKeys fun a => a ≠ k

/-- Change every value. -/
def mapValues (m : Assoc α β) (f : β → γ) : Assoc α γ :=
  { entries := m.entries.map fun e => (e.1, f e.2)
    nodup := by simpa [List.map_map, Function.comp_def] using m.nodup }

/-- Enter a list of pairs one after the other. -/
def insertAll [DecidableEq α] (m : Assoc α β) (l : List (α × β)) : Assoc α β :=
  l.foldl (fun m e => m.insert e.1 e.2) m

/-- The map of a list of pairs; a later pair replaces the value of an earlier one. -/
def ofList [DecidableEq α] (l : List (α × β)) : Assoc α β := empty.insertAll l

/-- Change the value of one key; `none` stands for an absent value before the change. -/
def alter [DecidableEq α] (m : Assoc α β) (k : α) (f : Option β → β) : Assoc α β :=
  m.insert k (f (m.get? k))

/-- Sort pairs into groups by their first component, groups in order of first occurrence. -/
def group [DecidableEq α] (l : List (α × β)) : Assoc α (List β) :=
  l.foldl (fun m e => m.alter e.1 fun old => old.getD [] ++ [e.2]) empty

/-! ## What the operations do to look-ups -/

@[simp] theorem get?_empty [DecidableEq α] (k : α) : (empty : Assoc α β).get? k = none := rfl

theorem get?_eq_none_iff [DecidableEq α] (m : Assoc α β) (k : α) :
    m.get? k = none ↔ k ∉ m.keys := by
  simp only [get?, Option.map_eq_none_iff, List.find?_eq_none, decide_eq_true_eq, keys,
    List.mem_map, not_exists, not_and]

theorem find?_replace [DecidableEq α] (l : List (α × β)) (k a : α) (v : β)
    (h : k ∈ l.map Prod.fst) :
    ((l.map fun e => if e.1 = k then (e.1, v) else e).find? fun e => e.1 = a).map Prod.snd =
      if a = k then some v else (l.find? fun e => e.1 = a).map Prod.snd := by
  induction l with
  | nil => simp at h
  | cons e l ih =>
    by_cases hak : a = k
    · subst hak
      by_cases hea : e.1 = a
      · simp [hea]
      · have hl : a ∈ l.map Prod.fst := by
          simp only [List.map_cons, List.mem_cons] at h
          exact h.resolve_left fun x => hea x.symm
        simpa [hea] using ih hl
    · have hka : ¬ k = a := fun x => hak x.symm
      rw [if_neg hak] at ih ⊢
      by_cases hek : e.1 = k
      · simp only [List.map_cons, hek, if_true, List.find?_cons, hka, decide_false]
        by_cases hl : k ∈ l.map Prod.fst
        · exact ih hl
        · have same : (l.map fun e => if e.1 = k then (e.1, v) else e) = l := by
            conv => rhs; rw [← List.map_id l]
            apply List.map_congr_left
            intro x hx
            have : ¬ x.1 = k := fun hx' => hl (List.mem_map.2 ⟨x, hx, hx'⟩)
            simp [this]
          rw [same]
      · have hl : k ∈ l.map Prod.fst := by
          simp only [List.map_cons, List.mem_cons] at h
          exact h.resolve_left fun x => hek x.symm
        by_cases hea : e.1 = a
        · simp [hea, hak]
        · simpa [hek, hea] using ih hl

theorem find?_filter_key [DecidableEq α] (l : List (α × β)) (p : α → Bool) (a : α) :
    ((l.filter fun e => p e.1).find? fun e => e.1 = a).map Prod.snd =
      if p a then (l.find? fun e => e.1 = a).map Prod.snd else none := by
  induction l with
  | nil => simp
  | cons e l ih =>
    by_cases hp : p e.1 <;> by_cases hea : e.1 = a
    · have ha : p a := hea ▸ hp
      simp [hea, ha]
    · simpa [hp, hea] using ih
    · have ha : ¬ p a := hea ▸ hp
      simpa [hp, ha] using ih
    · simpa [hp, hea] using ih

theorem get?_insert [DecidableEq α] (m : Assoc α β) (k a : α) (v : β) :
    (m.insert k v).get? a = if a = k then some v else m.get? a := by
  unfold insert
  split
  case isTrue h => exact find?_replace m.entries k a v h
  case isFalse h =>
    simp only [get?, List.find?_append]
    by_cases hak : a = k
    · subst hak
      have : m.entries.find? (fun e => decide (e.1 = a)) = none := by
        simp only [List.find?_eq_none, decide_eq_true_eq]
        exact fun x hx hxa => h (List.mem_map.2 ⟨x, hx, hxa⟩)
      simp [this]
    · have hka : ¬ k = a := fun x => hak x.symm
      simp [hka, hak]

theorem get?_filterKeys [DecidableEq α] (m : Assoc α β) (p : α → Bool) (a : α) :
    (m.filterKeys p).get? a = if p a then m.get? a else none :=
  find?_filter_key m.entries p a

theorem get?_erase [DecidableEq α] (m : Assoc α β) (k a : α) :
    (m.erase k).get? a = if a = k then none else m.get? a := by
  rw [erase, get?_filterKeys]
  by_cases h : a = k <;> simp [h]

end Assoc

end Overseer
