import Overseer.Proofs.Maps
import Overseer.Store.Collection

set_option autoImplicit false

/-! # What is filed after a change

A change of a collection takes some keys out and files diagnostics under others. As long as the
new keys are no longer there and none of the new lists is empty, the entries afterwards are the
remaining ones followed by the new ones. Hence replacing the diagnostics of all files leaves
everything else in place and shows exactly the new files, and likewise for the fragments of one
document. Clearing a document is another matter: if a file of that name has diagnostics, these
are cleared and the fragments stay. -/

namespace Overseer

namespace Assoc

variable {α β : Type} [DecidableEq α]

@[simp] theorem entries_erase (m : Assoc α β) (k : α) :
    (m.erase k).entries = m.entries.filter fun e => e.1 ≠ k := rfl

theorem entries_eraseAll (m : Assoc α β) (ks : List α) :
    (ks.foldl Assoc.erase m).entries = m.entries.filter fun e => e.1 ∉ ks := by
  induction ks generalizing m with
  | nil => exact (List.filter_eq_self.2 fun e _ => by simp).symm
  | cons k ks ih =>
    rw [List.foldl_cons, ih, entries_erase, List.filter_filter]
    apply List.filter_congr
    intro e _
    simp [not_or, Bool.and_comm]

/-- No group is empty. -/
theorem group_ne_nil {l : List (α × β)} {e : α × List β} (h : e ∈ (group l).entries) :
    e.2 ≠ [] := by
  have hstep : ∀ (l : List (α × β)) (m : Assoc α (List β)), (∀ e ∈ m.entries, e.2 ≠ []) →
      ∀ e ∈ (l.foldl (fun m e => m.alter e.1 fun old => old.getD [] ++ [e.2]) m).entries,
        e.2 ≠ [] := by
    intro l
    induction l with
    | nil => exact fun m hm => hm
    | cons p l ih =>
      intro m hm
      refine ih _ fun e he => ?_
      have hget := (get?_eq_some_iff _ e.1 e.2).2 he
      simp only [alter, get?_insert] at hget
      split at hget
      · have heq : (m.get? p.1).getD [] ++ [p.2] = e.2 := by simpa using hget
        simp [← heq]
      · exact hm e ((get?_eq_some_iff m e.1 e.2).1 hget)
  exact hstep l empty (by simp) e h

theorem group_concat (l : List (α × β)) (e : α × β) :
    group (l ++ [e]) = (group l).insert e.1 (((group l).get? e.1).getD [] ++ [e.2]) := by
  simp [group, alter, List.foldl_append]

/-- The group of a key has the values that come with it, in order. -/
theorem getD_get?_group (l : List (α × β)) (k : α) :
    ((group l).get? k).getD [] = (l.filter fun e => e.1 = k).map Prod.snd := by
  induction l using List.reverseRecOn with
  | nil => rfl
  | append_singleton l e ih =>
    rw [group_concat, get?_insert, List.filter_append, List.map_append, ← ih]
    by_cases hk : k = e.1
    · subst hk
      simp
    · simp [hk, Ne.symm hk]

theorem mem_group_iff (l : List (α × β)) (k : α) (v : β) :
    (∃ vs, (k, vs) ∈ (group l).entries ∧ v ∈ vs) ↔ (k, v) ∈ l := by
  have hmem : (k, v) ∈ l ↔ v ∈ ((group l).get? k).getD [] := by
    rw [getD_get?_group]
    simp
  rw [hmem]
  constructor
  · rintro ⟨vs, hvs, hv⟩
    rw [(get?_eq_some_iff _ k vs).2 hvs]
    exact hv
  · intro hv
    cases hget : (group l).get? k with
    | none =>
      rw [hget] at hv
      exact absurd hv (by simp)
    | some vs =>
      rw [hget] at hv
      exact ⟨vs, (get?_eq_some_iff _ k vs).1 hget, hv⟩

/-- Replacing the list of a key changes the number of all values by as much as it changes that
list. -/
theorem length_flatten_insert (m : Assoc α (List β)) (k : α) (vs : List β) :
    (m.insert k vs).values.flatten.length + ((m.get? k).getD []).length =
      m.values.flatten.length + vs.length := by
  by_cases hk : k ∈ m.keys
  · obtain ⟨entries, nodup⟩ := m
    simp only [insert, dif_pos hk, values, get?]
    simp only [keys] at hk
    induction entries with
    | nil => exact absurd hk (by simp)
    | cons e entries ih =>
      simp only [List.map_cons, List.nodup_cons] at nodup
      by_cases he : e.1 = k
      · -- the key is not in the rest, which stays as it is
        have hrest : (entries.map fun x => if x.1 = k then (x.1, vs) else x) = entries := by
          refine (List.map_congr_left fun x hx => ?_).trans (List.map_id entries)
          have hx' : x.1 ≠ k := fun h => nodup.1 (List.mem_map.2 ⟨x, hx, by rw [h, he]⟩)
          simp [hx']
        simp only [List.map_cons, he, if_true, hrest, List.find?_cons, decide_true, Option.map_some,
          Option.getD_some, List.flatten_cons, List.length_append]
        omega
      · have hk' : k ∈ entries.map Prod.fst := by
          simp only [List.map_cons, List.mem_cons] at hk
          exact hk.resolve_left fun h => he h.symm
        have ih := ih nodup.2 hk'
        simp only [List.map_cons, he, if_false, List.find?_cons, decide_false, List.flatten_cons,
          List.length_append]
        omega
  · have hnone := (get?_eq_none_iff m k).2 hk
    simp [values, entries_insert_of_not_mem m k vs hk, hnone]

/-- Grouping loses no value. -/
theorem length_flatten_group (l : List (α × β)) : (group l).values.flatten.length = l.length := by
  induction l using List.reverseRecOn with
  | nil => rfl
  | append_singleton l e ih =>
    have hinsert := length_flatten_insert (group l) e.1 (((group l).get? e.1).getD [] ++ [e.2])
    rw [group_concat, List.length_append, List.length_singleton, ← ih]
    rw [List.length_append, List.length_singleton] at hinsert
    omega

end Assoc

namespace Collection

variable (c : Collection)

/-- Filing lists that are not empty under keys that are not there puts them at the end. -/
theorem entries_fileAll (m : Entries) (new : List (DocumentKey × List Diagnostic))
    (hnodup : (m.keys ++ new.map Prod.fst).Nodup) (hne : ∀ e ∈ new, e.2 ≠ []) :
    (new.foldl (fun m e => Entries.file m e.1 e.2) m).entries = m.entries ++ new := by
  induction new generalizing m with
  | nil => simp
  | cons e rest ih =>
    have hkey : e.1 ∉ m.keys := by
      intro hmem
      exact (List.nodup_append.1 hnodup).2.2 e.1 hmem e.1 (by simp) rfl
    have hfile : Entries.file m e.1 e.2 = m.insert e.1 e.2 := by
      rw [Entries.file, if_neg]
      simpa using hne e (List.mem_cons_self ..)
    have hentries := Assoc.entries_insert_of_not_mem m e.1 e.2 hkey
    rw [List.foldl_cons, hfile, ih, hentries]
    · simp
    · simpa [Assoc.keys, hentries] using hnodup
    · exact fun e he => hne e (List.mem_cons_of_mem _ he)

theorem apply_workspace (remove : List DocumentKey) (install : Entries) :
    (c.apply remove install).1.workspace = c.workspace ∧
      (c.apply remove install).1.disposed = c.disposed := by
  rw [apply]
  split <;> exact ⟨rfl, rfl⟩

variable {c}

/-- Exchanging all keys with some property for others with that property. -/
theorem entries_apply (hd : c.disposed = false) (p : DocumentKey → Bool) {install : Entries}
    (hp : ∀ e ∈ install.entries, p e.1 = true) (hne : ∀ e ∈ install.entries, e.2 ≠ []) :
    (c.apply (c.keys.filter p) install).1.entries.entries =
      (c.entries.entries.filter fun e => !p e.1) ++ install.entries := by
  have hremaining : ((c.keys.filter p).foldl Assoc.erase c.entries).entries =
      c.entries.entries.filter fun e => !p e.1 := by
    rw [Assoc.entries_eraseAll]
    apply List.filter_congr
    intro e he
    have hmem : e.1 ∈ c.keys := List.mem_map_of_mem he
    cases hpe : p e.1 <;> simp [hpe, hmem]
  simp only [apply, hd, Bool.false_eq_true, if_false, exchange]
  rw [entries_fileAll, hremaining]
  · rw [List.nodup_append]
    refine ⟨((c.keys.filter p).foldl Assoc.erase c.entries).nodup, install.nodup, ?_⟩
    intro a ha b hb hab
    subst hab
    obtain ⟨e, he, rfl⟩ := List.mem_map.1 hb
    rw [Assoc.keys, hremaining] at ha
    obtain ⟨e', he', hee'⟩ := List.mem_map.1 ha
    have hnot := (List.mem_filter.1 he').2
    rw [hee', hp e he] at hnot
    exact absurd hnot (by simp)
  · exact hne

/-- Behind the part of a list without a property stands a list that has it. -/
theorem filter_append_of_all {α : Type} (p : α → Bool) (l new : List α)
    (h : ∀ a ∈ new, p a = true) :
    ((l.filter fun a => !p a) ++ new).filter p = new ∧
      ((l.filter fun a => !p a) ++ new).filter (fun a => !p a) = l.filter fun a => !p a := by
  have hnone : (l.filter fun a => !p a).filter p = [] := by
    rw [List.filter_filter, List.filter_eq_nil_iff]
    simp
  have hnew : new.filter (fun a => !p a) = [] := by
    rw [List.filter_eq_nil_iff]
    intro a ha
    simp [h a ha]
  constructor
  · rw [List.filter_append, hnone, List.nil_append, List.filter_eq_self]
    exact h
  · rw [List.filter_append, hnew, List.append_nil, List.filter_filter]
    simp

/-- The entries with some property have been replaced, and only these. -/
structure Replaced (p : DocumentKey → Bool)
    (before after new : List (DocumentKey × List Diagnostic)) : Prop where
  shown : (after.filter fun e => p e.1) = new
  kept : (after.filter fun e => !p e.1) = before.filter fun e => !p e.1

/-- What is there afterwards was there before, or it is new and has the property. -/
theorem Replaced.mem {p : DocumentKey → Bool}
    {before after new : List (DocumentKey × List Diagnostic)}
    (h : Replaced p before after new) {e : DocumentKey × List Diagnostic} (he : e ∈ after) :
    e ∈ before ∨ p e.1 = true ∧ e ∈ new := by
  cases hp : p e.1 with
  | true =>
    refine .inr ⟨rfl, ?_⟩
    rw [← h.shown]
    exact List.mem_filter.2 ⟨he, hp⟩
  | false =>
    have hkept : e ∈ before.filter fun e => !p e.1 := by
      rw [← h.kept]
      exact List.mem_filter.2 ⟨he, by simp [hp]⟩
    exact .inl (List.mem_filter.1 hkept).1

/-- The diagnostics that are filed under the keys with some property, key after key. -/
def under (p : DocumentKey → Bool) (entries : List (DocumentKey × List Diagnostic)) :
    List Diagnostic :=
  (entries.filter fun e => p e.1).flatMap Prod.snd

theorem Replaced.under_eq {p : DocumentKey → Bool}
    {before after new : List (DocumentKey × List Diagnostic)} (h : Replaced p before after new) :
    under p after = new.flatMap Prod.snd := by
  rw [under, h.shown]

/-- As many diagnostics are filed as there are in a map that has been filed under new names. -/
theorem Replaced.length_under {α : Type} (name : α → DocumentKey) {m : Assoc α (List Diagnostic)}
    {p : DocumentKey → Bool} {before after : List (DocumentKey × List Diagnostic)}
    (h : Replaced p before after (m.entries.map fun e => (name e.1, e.2))) :
    m.values.flatten.length = (under p after).length := by
  rw [h.under_eq, List.flatMap_map, Assoc.values, List.flatMap_def]

theorem replaced_apply (hd : c.disposed = false) (p : DocumentKey → Bool) (install : Entries)
    (hp : ∀ e ∈ install.entries, p e.1 = true) (hne : ∀ e ∈ install.entries, e.2 ≠ []) :
    Replaced p c.entries.entries (c.apply (c.keys.filter p) install).1.entries.entries
      install.entries := by
  have h := filter_append_of_all (fun e : DocumentKey × List Diagnostic => p e.1)
    c.entries.entries install.entries hp
  rw [entries_apply hd p hp hne]
  exact ⟨h.1, h.2⟩

/-- Exchanging all keys with some property for the keys of a map under new names. -/
theorem replaced_rename {α : Type} (hd : c.disposed = false) (p : DocumentKey → Bool)
    (name : α → DocumentKey) (hname : ∀ a b, name a = name b → a = b)
    (hp : ∀ a, p (name a) = true) (m : Assoc α (List Diagnostic))
    (hne : ∀ e ∈ m.entries, e.2 ≠ []) :
    Replaced p c.entries.entries
      (c.apply (c.keys.filter p)
        (Assoc.ofList (m.entries.map fun e => (name e.1, e.2)))).1.entries.entries
      (m.entries.map fun e => (name e.1, e.2)) := by
  have hentries : (Assoc.ofList (m.entries.map fun e => (name e.1, e.2))).entries =
      m.entries.map fun e => (name e.1, e.2) := by
    apply Assoc.entries_ofList
    have hkeys := m.nodup
    rw [List.map_map]
    rw [List.nodup_iff_pairwise_ne, List.pairwise_map] at hkeys ⊢
    exact hkeys.imp fun hne heq => hne (hname _ _ heq)
  have hreplaced := replaced_apply hd p (Assoc.ofList (m.entries.map fun e => (name e.1, e.2)))
    (by
      rw [hentries]
      intro e he
      obtain ⟨e', -, rfl⟩ := List.mem_map.1 he
      exact hp e'.1)
    (by
      rw [hentries]
      intro e he
      obtain ⟨e', he', rfl⟩ := List.mem_map.1 he
      exact hne e' he')
  rwa [hentries] at hreplaced

theorem replaced_replaceFiles (hd : c.disposed = false) {files : Assoc String (List Diagnostic)}
    (hne : ∀ e ∈ files.entries, e.2 ≠ []) :
    Replaced DocumentKey.isFile c.entries.entries (c.replaceFiles files).1.entries.entries
      (files.entries.map fun e => (.file e.1, e.2)) :=
  replaced_rename hd DocumentKey.isFile .file (fun a b h => by simpa using h) (fun _ => rfl)
    files hne

theorem replaced_replaceFragments (hd : c.disposed = false) (document : String)
    {fragments : Assoc Int (List Diagnostic)} (hne : ∀ e ∈ fragments.entries, e.2 ≠ []) :
    Replaced (DocumentKey.isFragmentOf document) c.entries.entries
      (c.replaceFragments document fragments).1.entries.entries
      (fragments.entries.map fun e => (.fragment document e.1, e.2)) :=
  replaced_rename hd (DocumentKey.isFragmentOf document) (.fragment document)
    (fun a b h => by simpa using h) (fun _ => by simp [DocumentKey.isFragmentOf]) fragments hne

theorem replaced_clear_files (hd : c.disposed = false) :
    Replaced DocumentKey.isFile c.entries.entries (c.clear .files).1.entries.entries [] :=
  replaced_apply hd DocumentKey.isFile Assoc.empty (by simp) (by simp)

/-- Clearing a document that is no file with diagnostics clears its fragments. -/
theorem replaced_clear_document (hd : c.disposed = false) {document : String}
    (hfile : ∀ e ∈ c.entries.entries, e.1 ≠ .file document) :
    Replaced (DocumentKey.isFragmentOf document) c.entries.entries
      (c.clear (.document document)).1.entries.entries [] := by
  have hnot : c.entries.contains (.file document) = false := by
    simp only [Assoc.contains, Assoc.keys, List.contains_eq_mem, List.mem_map,
      decide_eq_false_iff_not, not_exists, not_and]
    exact fun e he heq => hfile e he heq
  rw [clear, scopeKeys, hnot, if_neg (by simp), fragmentKeys]
  exact replaced_apply hd (DocumentKey.isFragmentOf document) Assoc.empty (by simp) (by simp)

/-- Clearing a document that is a file with diagnostics clears the file. -/
theorem entries_clear_file (hd : c.disposed = false) {document : String}
    (hfile : ∃ e ∈ c.entries.entries, e.1 = .file document) :
    (c.clear (.document document)).1.entries.entries =
      c.entries.entries.filter fun e => e.1 ≠ .file document := by
  have hcontains : c.entries.contains (.file document) = true := by
    obtain ⟨e, he, heq⟩ := hfile
    simp only [Assoc.contains, Assoc.keys, List.contains_eq_mem, decide_eq_true_eq]
    exact heq ▸ List.mem_map_of_mem he
  simp [clear, scopeKeys, hcontains, apply, hd, exchange]

/-- Clearing files nothing. -/
theorem subset_of_clear (c : Collection) (scope : Scope) :
    (c.clear scope).1.entries.entries ⊆ c.entries.entries := by
  rw [clear, apply]
  split
  · exact fun e he => he
  · simp only [exchange, Assoc.entries_empty, List.foldl_nil, Assoc.entries_eraseAll]
    exact fun e he => (List.mem_filter.1 he).1

end Collection

end Overseer
