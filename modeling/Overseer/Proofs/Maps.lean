import Mathlib.Algebra.BigOperators.Group.List.Basic
import Mathlib.Data.List.Forall2
import Mathlib.Data.List.Induction
import Mathlib.Data.List.Nodup
import Mathlib.Tactic.Abel
import Overseer.Assoc

set_option autoImplicit false

/-! # Look-ups in ordered maps

What a map finds under a key after a list of pairs has been entered. As long as the keys of
the list are pairwise different, entering it is appending it, so that the map is the list. In
general the last pair with a key counts.

What is summed up over the values of a map does not depend on their order. It changes with one value
when that is entered or erased (`sum_insert`, `sum_erase`).

Steps that may fail come first: a list of them succeeds if and only if each of them does
(`mapM_eq_ok_iff`). -/

namespace Overseer

/-! ## Steps that may fail -/

section Steps

variable {α β ε : Type}

/-- A sequence that succeeds has a first part that succeeds. -/
theorem bind_eq_ok_iff (x : Except ε α) (f : α → Except ε β) (b : β) :
    (x >>= f) = .ok b ↔ ∃ a, x = .ok a ∧ f a = .ok b := by
  cases x with
  | error e => simp [bind, Except.bind]
  | ok a => simp [bind, Except.bind]

/-- The fault of a sequence is that of its first part, or of what follows its success. -/
theorem bind_eq_error_iff (x : Except ε α) (f : α → Except ε β) (e : ε) :
    (x >>= f) = .error e ↔ x = .error e ∨ ∃ a, x = .ok a ∧ f a = .error e := by
  cases x with
  | error e' => simp [bind, Except.bind]
  | ok a => simp [bind, Except.bind]

variable {f : α → Except ε β} {l : List α} {l' : List β}

theorem mapM_eq_ok_iff : l.mapM f = .ok l' ↔ List.Forall₂ (fun a b => f a = .ok b) l l' := by
  induction l generalizing l' with
  | nil => simp [pure, Except.pure, eq_comm]
  | cons a l ih =>
    rw [List.mapM_cons, List.forall₂_cons_left_iff, bind_eq_ok_iff]
    refine ⟨fun h => ?_, fun h => ?_⟩
    · obtain ⟨b, hb, h⟩ := h
      obtain ⟨bs, hbs, h⟩ := (bind_eq_ok_iff _ _ _).1 h
      exact ⟨b, bs, hb, ih.1 hbs, (Except.ok.inj h).symm⟩
    · obtain ⟨b, bs, hb, hbs, rfl⟩ := h
      exact ⟨b, hb, (bind_eq_ok_iff _ _ _).2 ⟨bs, ih.2 hbs, rfl⟩⟩

theorem mapM_eq_ok {g : α → β} (h : ∀ a ∈ l, f a = .ok (g a)) : l.mapM f = .ok (l.map g) :=
  mapM_eq_ok_iff.2 (List.forall₂_map_right_iff.2 (List.forall₂_same.2 h))

/-- If all steps succeed then each of them does. -/
theorem exists_of_mapM_ok (h : l.mapM f = .ok l') : ∀ a ∈ l, ∃ b, f a = .ok b := by
  have hsteps := mapM_eq_ok_iff.1 h
  clear h
  induction hsteps with
  | nil => simp
  | cons hstep _ ih => exact List.forall_mem_cons.2 ⟨⟨_, hstep⟩, ih⟩

/-- What comes out of a list of steps came out of one of them. -/
theorem exists_of_mem_mapM_ok (h : l.mapM f = .ok l') : ∀ b ∈ l', ∃ a ∈ l, f a = .ok b := by
  have hsteps := mapM_eq_ok_iff.1 h
  clear h
  induction hsteps with
  | nil => simp
  | @cons a b l l' hstep _ ih =>
    refine List.forall_mem_cons.2 ⟨⟨a, List.mem_cons_self, hstep⟩, fun b' hb' => ?_⟩
    obtain ⟨a', ha', hstep'⟩ := ih b' hb'
    exact ⟨a', List.mem_cons_of_mem a ha', hstep'⟩

/-- What each step keeps of its item is kept of the list. -/
theorem map_eq_of_mapM_ok {γ : Type} {view : α → γ} {view' : β → γ}
    (hstep : ∀ a b, f a = .ok b → view' b = view a) (h : l.mapM f = .ok l') :
    l'.map view' = l.map view := by
  have hsteps := mapM_eq_ok_iff.1 h
  clear h
  induction hsteps with
  | nil => rfl
  | cons ha _ ih => rw [List.map_cons, List.map_cons, hstep _ _ ha, ih]

end Steps

namespace Assoc

variable {α β : Type}

theorem nodup_entries (m : Assoc α β) : m.entries.Nodup := m.nodup.of_map _

@[simp] theorem entries_empty : (empty : Assoc α β).entries = [] := rfl

/-- A pair of a list is the last one with its key. -/
def IsLast (l : List (α × β)) (e : α × β) : Prop :=
  ∃ before after, l = before ++ e :: after ∧ ∀ x ∈ after, x.1 ≠ e.1

theorem isLast_concat (l : List (α × β)) (x e : α × β) :
    IsLast (l ++ [x]) e ↔ e = x ∨ e.1 ≠ x.1 ∧ IsLast l e := by
  constructor
  · rintro ⟨before, after, heq, hafter⟩
    rcases List.eq_nil_or_concat after with rfl | ⟨after, y, rfl⟩
    · have hx : [x] = [e] := List.append_inj_right' heq rfl
      exact .inl (List.singleton_inj.1 hx).symm
    · rw [List.concat_eq_append, ← List.cons_append, ← List.append_assoc] at heq
      obtain ⟨hl, hx⟩ := List.append_inj' heq rfl
      cases hx
      rw [List.concat_eq_append] at hafter
      refine .inr ⟨Ne.symm (hafter x (by simp)), before, after, hl, ?_⟩
      exact fun y hy => hafter y (List.mem_append_left _ hy)
  · rintro (rfl | ⟨hne, before, after, rfl, hafter⟩)
    · exact ⟨l, [], rfl, by simp⟩
    · refine ⟨before, after ++ [x], by simp, ?_⟩
      intro y hy
      rcases List.mem_append.1 hy with hy | hy
      · exact hafter y hy
      · rw [List.mem_singleton.1 hy]
        exact Ne.symm hne

variable [DecidableEq α]

theorem exists_isLast {l : List (α × β)} {e : α × β} (h : e ∈ l) : ∃ v, IsLast l (e.1, v) := by
  induction l using List.reverseRecOn with
  | nil => exact absurd h List.not_mem_nil
  | append_singleton l x ih =>
    by_cases hkey : e.1 = x.1
    · exact ⟨x.2, (isLast_concat l x _).2 (.inl (Prod.ext hkey rfl))⟩
    · have hmem : e ∈ l := (List.mem_append.1 h).resolve_right fun hx =>
        hkey (congrArg Prod.fst (List.mem_singleton.1 hx))
      obtain ⟨v, hv⟩ := ih hmem
      exact ⟨v, (isLast_concat l x _).2 (.inr ⟨hkey, hv⟩)⟩

theorem get?_eq_some_iff (m : Assoc α β) (k : α) (v : β) :
    m.get? k = some v ↔ (k, v) ∈ m.entries := by
  obtain ⟨entries, nodup⟩ := m
  simp only [get?]
  induction entries with
  | nil => simp
  | cons e rest ih =>
    obtain ⟨a, b⟩ := e
    simp only [List.map_cons, List.nodup_cons] at nodup
    obtain ⟨hnot, hrest⟩ := nodup
    by_cases ha : a = k
    · subst ha
      have hmem : (a, v) ∉ rest := fun h => hnot (List.mem_map.2 ⟨(a, v), h, rfl⟩)
      simp [hmem, eq_comm]
    · simp [ha, Ne.symm ha, ih hrest]

/-- A new key goes to the end. -/
theorem entries_insert_of_not_mem (m : Assoc α β) (k : α) (v : β) (h : k ∉ m.keys) :
    (m.insert k v).entries = m.entries ++ [(k, v)] := by
  rw [insert, dif_neg h]

theorem entries_insertAll (l : List (α × β)) (m : Assoc α β)
    (h : (m.keys ++ l.map Prod.fst).Nodup) :
    (m.insertAll l).entries = m.entries ++ l := by
  induction l generalizing m with
  | nil => simp [insertAll]
  | cons e rest ih =>
    obtain ⟨k, v⟩ := e
    have hk : k ∉ m.keys := by
      intro hmem
      exact (List.nodup_append.1 h).2.2 k hmem k (by simp) rfl
    have hins := entries_insert_of_not_mem m k v hk
    have hkeys : (m.insert k v).keys = m.keys ++ [k] := by simp [keys, hins]
    have hrest : ((m.insert k v).keys ++ rest.map Prod.fst).Nodup := by
      rw [hkeys]
      simpa using h
    have := ih (m.insert k v) hrest
    simpa [insertAll, hins] using this

/-- Entering pairs with pairwise different keys keeps the list as it is. -/
theorem entries_ofList (l : List (α × β)) (h : (l.map Prod.fst).Nodup) :
    (ofList l).entries = l := by
  simpa [ofList] using entries_insertAll l empty (by simpa [keys] using h)

theorem get?_ofList_eq_some_iff (l : List (α × β)) (h : (l.map Prod.fst).Nodup) (k : α) (v : β) :
    (ofList l).get? k = some v ↔ (k, v) ∈ l := by
  rw [get?_eq_some_iff, entries_ofList l h]

theorem get?_ofList_iff_isLast (l : List (α × β)) (k : α) (v : β) :
    (ofList l).get? k = some v ↔ IsLast l (k, v) := by
  induction l using List.reverseRecOn with
  | nil => simp [ofList, insertAll, IsLast]
  | append_singleton l x ih =>
    have hlast : ofList (l ++ [x]) = (ofList l).insert x.1 x.2 := by
      simp [ofList, insertAll, List.foldl_append]
    rw [hlast, get?_insert, isLast_concat]
    by_cases hk : k = x.1
    · subst hk
      simp [Prod.ext_iff, eq_comm]
    · have hne : (k, v) ≠ x := fun h => hk (h ▸ rfl)
      rw [if_neg hk, ih]
      simp [hk, hne]

theorem IsLast.unique {l : List (α × β)} {k : α} {v v' : β} (h : IsLast l (k, v))
    (h' : IsLast l (k, v')) : v = v' := by
  have hget := (get?_ofList_iff_isLast l k v).2 h
  rw [(get?_ofList_iff_isLast l k v').2 h'] at hget
  exact (Option.some.inj hget).symm

/-! ## Values in any order -/

/-- Maps with the same look-ups have the same entries, in some order. -/
theorem perm_of_get? {m m' : Assoc α β} (h : ∀ a, m.get? a = m'.get? a) :
    m.entries.Perm m'.entries := by
  refine (List.perm_ext_iff_of_nodup m.nodup_entries m'.nodup_entries).2 fun ⟨a, b⟩ => ?_
  rw [← get?_eq_some_iff, ← get?_eq_some_iff, h]

theorem perm_erase {m : Assoc α β} {k : α} {v : β} (h : m.get? k = some v) :
    m.entries.Perm ((k, v) :: (m.erase k).entries) := by
  have hnot : (k, v) ∉ (m.erase k).entries := fun hmem => by
    rw [← get?_eq_some_iff, get?_erase, if_pos rfl] at hmem
    exact absurd hmem (by simp)
  refine (List.perm_ext_iff_of_nodup m.nodup_entries
    (List.nodup_cons.2 ⟨hnot, (m.erase k).nodup_entries⟩)).2 fun ⟨a, b⟩ => ?_
  rw [List.mem_cons, ← get?_eq_some_iff, ← get?_eq_some_iff, get?_erase, Prod.mk.injEq]
  by_cases ha : a = k
  · rw [if_pos ha, ha, h]
    simp [eq_comm]
  · simp [ha]

section Sums

variable {M : Type} [AddCommMonoid M]

omit [DecidableEq α] in
theorem sum_values_of_perm {m : Assoc α β} {es : List (α × β)} (h : m.entries.Perm es)
    (f : β → M) : (m.values.map f).sum = (es.map fun e => f e.2).sum := by
  rw [values, List.map_map]
  exact (h.map _).sum_eq

theorem sum_erase (m : Assoc α β) (k : α) (f : β → M) :
    ((m.erase k).values.map f).sum + (m.get? k).elim 0 f = (m.values.map f).sum := by
  rw [sum_values_of_perm (List.Perm.refl (m.erase k).entries)]
  cases hk : m.get? k with
  | none =>
    have hsame : ∀ a, m.get? a = (m.erase k).get? a := fun a => by
      rw [get?_erase]
      split
      · next ha => rw [ha, hk]
      · rfl
    rw [sum_values_of_perm (perm_of_get? hsame), Option.elim_none, add_zero]
  | some v =>
    rw [sum_values_of_perm (perm_erase hk), List.map_cons, List.sum_cons, Option.elim_some,
      add_comm]

theorem sum_insert (m : Assoc α β) (k : α) (v : β) (f : β → M) :
    ((m.insert k v).values.map f).sum + (m.get? k).elim 0 f = (m.values.map f).sum + f v := by
  have hsame : ∀ a, ((m.insert k v).erase k).get? a = (m.erase k).get? a := fun a => by
    rw [get?_erase, get?_erase, get?_insert]
    split <;> simp_all
  rw [← sum_erase (m.insert k v) k, sum_values_of_perm (perm_of_get? hsame), get?_insert,
    if_pos rfl, Option.elim_some, ← sum_erase m k,
    sum_values_of_perm (List.Perm.refl (m.erase k).entries)]
  abel

end Sums

end Assoc

end Overseer
