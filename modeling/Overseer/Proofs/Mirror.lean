import Mathlib.Data.List.Nodup
import Overseer.Proofs.Filing
import Overseer.Store.Basic

set_option autoImplicit false

/-! # Listeners keep up with the store

Whoever listens to a store from the beginning can keep a copy of all diagnostics in it: drop the
keys that an event calls removed, look up those that it calls added or changed. After every
operation the copy is what all collections have, also those that somebody still holds although
the store has disposed of them or has another one for their workspace (`mirror_follows_store`).

A collection computes its delta from the keys it was asked to touch, so the first part says that
nothing else differs and that no key is named twice (`Delta.Describes`). The second part is
about the store: only the current collection of a workspace can have entries (`Store.Tidy`), so
that one delta of one collection says all there is to say about the workspace. -/

namespace Overseer

namespace Delta

/-- A delta names the keys at which two views differ, each of them once, and says of each how
they differ. -/
structure Describes (d : Delta) (before after : DocumentKey → Option (List Diagnostic)) :
    Prop where
  nodup : (d.added ++ d.removed ++ d.changed).Nodup
  added : ∀ k, k ∈ d.added ↔ before k = none ∧ after k ≠ none
  removed : ∀ k, k ∈ d.removed ↔ before k ≠ none ∧ after k = none
  changed : ∀ k, k ∈ d.changed ↔ before k ≠ none ∧ after k ≠ none ∧ before k ≠ after k

variable {d : Delta} {before after : DocumentKey → Option (List Diagnostic)}

theorem isEmpty_iff : d.isEmpty = true ↔ d.added = [] ∧ d.removed = [] ∧ d.changed = [] := by
  simp [isEmpty, and_assoc]

theorem describes_self (view : DocumentKey → Option (List Diagnostic)) :
    Describes {} view view := by
  constructor <;> simp +contextual

namespace Describes

theorem isEmpty_iff (h : d.Describes before after) : d.isEmpty = true ↔ before = after := by
  rw [Delta.isEmpty_iff]
  simp only [List.eq_nil_iff_forall_not_mem, h.added, h.removed, h.changed, funext_iff]
  constructor
  · rintro ⟨hadded, hremoved, hchanged⟩ k
    have ha := hadded k
    have hr := hremoved k
    have hc := hchanged k
    cases hb : before k <;> cases ha' : after k <;> simp_all
  · intro heq
    simp +contextual [heq]

/-- Keys that a delta does not name have not changed. -/
theorem eq_of_not_mem (h : d.Describes before after) {k : DocumentKey} (ha : k ∉ d.added)
    (hr : k ∉ d.removed) (hc : k ∉ d.changed) : before k = after k := by
  rw [h.added] at ha
  rw [h.removed] at hr
  rw [h.changed] at hc
  cases hb : before k <;> cases ha' : after k <;> simp_all

end Describes

end Delta

/-! ## The delta of a collection -/

namespace Entries

/-- The difference at some keys is the whole difference if nothing changed elsewhere. -/
theorem describes_delta (before after : Entries) {keys : List DocumentKey} (hnodup : keys.Nodup)
    (helse : ∀ k, k ∉ keys → after.get? k = before.get? k) :
    (delta before after keys).Describes before.get? after.get? := by
  have hkeys : ∀ k, before.get? k ≠ after.get? k → k ∈ keys := by
    intro k hne
    by_contra hk
    exact hne (helse k hk).symm
  have hadded : ∀ k, k ∈ (delta before after keys).added ↔
      before.get? k = none ∧ after.get? k ≠ none := by
    intro k
    have hk := hkeys k
    simp only [delta, List.mem_filter]
    cases hb : before.get? k <;> cases ha : after.get? k <;> simp_all
  have hremoved : ∀ k, k ∈ (delta before after keys).removed ↔
      before.get? k ≠ none ∧ after.get? k = none := by
    intro k
    have hk := hkeys k
    simp only [delta, List.mem_filter]
    cases hb : before.get? k <;> cases ha : after.get? k <;> simp_all
  have hchanged : ∀ k, k ∈ (delta before after keys).changed ↔
      before.get? k ≠ none ∧ after.get? k ≠ none ∧ before.get? k ≠ after.get? k := by
    intro k
    have hk := hkeys k
    simp only [delta, List.mem_filter]
    cases hb : before.get? k <;> cases ha : after.get? k <;> simp_all
  refine ⟨?_, hadded, hremoved, hchanged⟩
  -- the three cases exclude one another, so no key is in two of the lists
  simp only [List.nodup_append, List.mem_append]
  refine ⟨⟨hnodup.filter _, hnodup.filter _, ?_⟩, hnodup.filter _, ?_⟩
  · rintro a ha _ hb rfl
    exact ((hremoved a).1 hb).1 ((hadded a).1 ha).1
  · rintro a (ha | ha) _ hb rfl
    · exact ((hchanged a).1 hb).1 ((hadded a).1 ha).1
    · exact ((hchanged a).1 hb).2.1 ((hremoved a).1 ha).2

theorem get?_file (m : Entries) (key : DocumentKey) (ds : List Diagnostic) (k : DocumentKey) :
    (file m key ds).get? k =
      if k = key then (if ds.isEmpty then none else some ds) else m.get? k := by
  unfold file
  split
  · exact Assoc.get?_erase m key k
  · exact Assoc.get?_insert m key k ds

end Entries

namespace Collection

/-- An exchange changes nothing at keys that are neither removed nor installed. -/
theorem get?_exchange (m : Entries) (remove : List DocumentKey) (install : Entries)
    {k : DocumentKey} (hremove : k ∉ remove) (hinstall : k ∉ install.keys) :
    (exchange m remove install).get? k = m.get? k := by
  have herase : ∀ (ks : List DocumentKey) (m : Entries), k ∉ ks →
      (ks.foldl Assoc.erase m).get? k = m.get? k := by
    intro ks
    induction ks with
    | nil => intro m _; rfl
    | cons a ks ih =>
      intro m hk
      rw [List.mem_cons, not_or] at hk
      rw [List.foldl_cons, ih _ hk.2, Assoc.get?_erase, if_neg hk.1]
  have hfile : ∀ (new : List (DocumentKey × List Diagnostic)) (m : Entries),
      k ∉ new.map Prod.fst →
      (new.foldl (fun m e => Entries.file m e.1 e.2) m).get? k = m.get? k := by
    intro new
    induction new with
    | nil => intro m _; rfl
    | cons e new ih =>
      intro m hk
      rw [List.map_cons, List.mem_cons, not_or] at hk
      rw [List.foldl_cons, ih _ hk.2, Entries.get?_file, if_neg hk.1]
  rw [exchange, hfile _ _ hinstall, herase _ _ hremove]

theorem describes_apply (c : Collection) {remove : List DocumentKey} (install : Entries)
    (hnodup : remove.Nodup) :
    (c.apply remove install).2.Describes c.entries.get?
      (c.apply remove install).1.entries.get? := by
  rw [apply]
  split
  · exact Delta.describes_self _
  · apply Entries.describes_delta
    · refine List.nodup_append.2 ⟨hnodup, install.nodup.filter _, ?_⟩
      intro a ha b hb hab
      have hnot := (List.mem_filter.1 hb).2
      simp [← hab, ha] at hnot
    · intro k hk
      simp only [List.mem_append, List.mem_filter, not_or, not_and] at hk
      refine get?_exchange c.entries remove install hk.1 fun hmem => ?_
      exact hk.2 hmem (by simpa using hk.1)

/-- A change that somebody who holds a collection can ask for. -/
inductive Write where
  | replace (key : DocumentKey) (diagnostics : List Diagnostic)
  | replaceFiles (files : Assoc String (List Diagnostic))
  | replaceFragments (document : String) (fragments : Assoc Int (List Diagnostic))
  | clear (scope : Scope)

/-- The collection and the delta after a change. -/
def write (c : Collection) : Write → Collection × Delta
  | .replace key diagnostics => c.replace key diagnostics
  | .replaceFiles files => c.replaceFiles files
  | .replaceFragments document fragments => c.replaceFragments document fragments
  | .clear scope => c.clear scope

theorem nodup_scopeKeys (c : Collection) (scope : Scope) : (c.scopeKeys scope).Nodup := by
  have hkeys : ∀ p, (c.keys.filter p).Nodup := fun p => c.entries.nodup.filter p
  cases scope with
  | files => exact hkeys _
  | document name =>
    rw [scopeKeys]
    split
    · exact List.nodup_singleton _
    · exact hkeys _
  | fragment document index => exact List.nodup_singleton _

/-- All changes take some keys out, none of them twice, and file diagnostics under others. -/
theorem exists_write_eq_apply (c : Collection) (w : Write) :
    ∃ remove install, remove.Nodup ∧ c.write w = c.apply remove install := by
  cases w with
  | replace key ds => exact ⟨_, _, List.nodup_singleton key, rfl⟩
  | replaceFiles files => exact ⟨_, _, c.entries.nodup.filter _, rfl⟩
  | replaceFragments document fragments => exact ⟨_, _, c.entries.nodup.filter _, rfl⟩
  | clear scope => exact ⟨_, _, c.nodup_scopeKeys scope, rfl⟩

theorem describes_write (c : Collection) (w : Write) :
    (c.write w).2.Describes c.entries.get? (c.write w).1.entries.get? := by
  obtain ⟨remove, install, hnodup, h⟩ := c.exists_write_eq_apply w
  rw [h]
  exact c.describes_apply install hnodup

theorem write_workspace (c : Collection) (w : Write) :
    (c.write w).1.workspace = c.workspace ∧ (c.write w).1.disposed = c.disposed := by
  obtain ⟨remove, install, -, h⟩ := c.exists_write_eq_apply w
  rw [h]
  exact c.apply_workspace remove install

/-- A change comes too late once the collection has been disposed of. -/
theorem write_of_disposed {c : Collection} (hd : c.disposed = true) (w : Write) :
    c.write w = (c, {}) := by
  obtain ⟨remove, install, -, h⟩ := c.exists_write_eq_apply w
  rw [h, apply, if_pos hd]

theorem describes_dispose {c : Collection} (hd : c.disposed = false) :
    c.dispose.2.Describes c.entries.get? c.dispose.1.entries.get? := by
  simp only [dispose, hd, Bool.false_eq_true, if_false]
  constructor
  · simpa [keys, Assoc.keys] using c.entries.nodup
  all_goals simp [Assoc.get?_eq_none_iff, keys]

theorem dispose_workspace (c : Collection) : c.dispose.1.workspace = c.workspace := by
  unfold dispose
  split <;> rfl

theorem disposed_dispose (c : Collection) : c.dispose.1.disposed = true := by
  unfold dispose
  split
  · next hd => exact hd
  · rfl

theorem entries_dispose {c : Collection} (h : c.disposed = true → c.entries = Assoc.empty) :
    c.dispose.1.entries = Assoc.empty := by
  unfold dispose
  split
  · next hd => exact h hd
  · rfl

end Collection

/-! ## What the store has under a key -/

namespace Store

/-- What the collections of a workspace have under a key, whoever holds them. -/
def shown (s : Store) (workspace : String) (key : DocumentKey) : Option (List Diagnostic) :=
  s.collections.findSome? fun c =>
    if c.workspace = workspace then c.entries.get? key else none

/-- Collections that are disposed of are empty; all others are the current ones of their
workspaces. -/
structure Tidy (s : Store) : Prop where
  empty_of_disposed : ∀ {id c}, s.at? id = some c → c.disposed = true → c.entries = Assoc.empty
  current_workspace : ∀ {ws id}, s.current.get? ws = some id →
    ∃ c, s.at? id = some c ∧ c.workspace = ws
  current_of_live : ∀ {id c}, s.at? id = some c → c.disposed = false →
    s.current.get? c.workspace = some id

namespace Tidy

variable {s s' : Store} {id : Nat} {c c' : Collection}

theorem live_of_get? (hs : s.Tidy) (hc : s.at? id = some c) {key : DocumentKey}
    {ds : List Diagnostic} (h : c.entries.get? key = some ds) : c.disposed = false := by
  cases hd : c.disposed with
  | false => rfl
  | true =>
    rw [hs.empty_of_disposed hc hd] at h
    exact absurd h (by simp)

/-- No workspace has two collections with entries, so none hides behind another. -/
theorem shown_eq_some_iff (hs : s.Tidy) {ws : String} {key : DocumentKey}
    {ds : List Diagnostic} :
    s.shown ws key = some ds ↔
      ∃ id c, s.at? id = some c ∧ c.workspace = ws ∧ c.entries.get? key = some ds := by
  have hsound : ∀ ds, s.shown ws key = some ds →
      ∃ id c, s.at? id = some c ∧ c.workspace = ws ∧ c.entries.get? key = some ds := by
    intro ds h
    obtain ⟨c, hmem, hc⟩ := List.exists_of_findSome?_eq_some h
    obtain ⟨id, hid⟩ := List.mem_iff_getElem?.1 hmem
    split at hc
    · next hw => exact ⟨id, c, hid, hw, hc⟩
    · exact absurd hc (by simp)
  refine ⟨hsound ds, ?_⟩
  rintro ⟨id, c, hc, rfl, hds⟩
  cases h : s.shown c.workspace key with
  | none =>
    have hnone := List.findSome?_eq_none_iff.1 h c (List.mem_of_getElem? hc)
    simp [hds] at hnone
  | some ds' =>
    obtain ⟨id', c', hc', hw, hds'⟩ := hsound ds' h
    have hcur := hs.current_of_live hc (hs.live_of_get? hc hds)
    have hcur' := hs.current_of_live hc' (hs.live_of_get? hc' hds')
    rw [hw, hcur, Option.some.injEq] at hcur'
    subst hcur'
    obtain rfl : c = c' := Option.some.inj (hc.symm.trans hc')
    exact hds'.symm.trans hds

/-- Looking a key up gives what is shown there. -/
theorem get_of_shown (hs : s.Tidy) {ws : String} {key : DocumentKey} {ds : List Diagnostic}
    (h : s.shown ws key = some ds) : s.get ws key = ds := by
  obtain ⟨id, c, hc, rfl, hds⟩ := hs.shown_eq_some_iff.1 h
  have hcur := hs.current_of_live hc (hs.live_of_get? hc hds)
  simp [get, find?, hcur, hc, Collection.get, hds]

/-- One collection that is not disposed of is all that its workspace shows. -/
theorem shown_of_live (hs : s.Tidy) (hc : s.at? id = some c) (hd : c.disposed = false) :
    s.shown c.workspace = c.entries.get? := by
  funext key
  ext ds
  rw [hs.shown_eq_some_iff]
  constructor
  · rintro ⟨id', c', hc', hw, hds⟩
    have hcur' := hs.current_of_live hc' (hs.live_of_get? hc' hds)
    rw [hw, hs.current_of_live hc hd, Option.some.injEq] at hcur'
    subst hcur'
    obtain rfl : c = c' := Option.some.inj (hc.symm.trans hc')
    exact hds
  · exact fun hds => ⟨id, c, hc, rfl, hds⟩

end Tidy

/-- The change from one store to another is told to everybody as a delta of one workspace. Those
who fail when they are told leave a record, so the records show that they were told too. -/
structure Announces (s s' : Store) (ws : String) (d : Delta) (r : Reaction) : Prop where
  describes : d.Describes (s.shown ws) (s'.shown ws)
  elsewhere : ∀ ws', ws' ≠ ws → s'.shown ws' = s.shown ws'
  events : r.events =
    if d.isEmpty then [] else (s.listeners.filter fun l => !l.broken).map (⟨·.name, ws, d⟩)
  failures : (r.log.filter fun l => l.level = .error).length =
    if d.isEmpty then 0 else (s.listeners.filter (·.broken)).length

theorem events_notify (s : Store) (ws : String) (d : Delta) :
    (s.notify ws d).events =
      if d.isEmpty then [] else (s.listeners.filter fun l => !l.broken).map (⟨·.name, ws, d⟩) := by
  rw [notify]
  split
  · rfl
  · dsimp only
    rw [← List.filterMap_eq_map, List.filterMap_filter]
    apply List.filterMap_congr
    intro l _
    cases l.broken <;> rfl

theorem failures_notify (s : Store) (ws : String) (d : Delta) :
    ((s.notify ws d).log.filter fun l => l.level = .error).length =
      if d.isEmpty then 0 else (s.listeners.filter (·.broken)).length := by
  rw [notify]
  split
  · rfl
  · dsimp only
    induction s.listeners with
    | nil => rfl
    | cons l rest ih => cases hl : l.broken <;> simp [hl, ih]

theorem announces_same {s s' : Store} (hshown : s'.shown = s.shown) (ws : String) {r : Reaction}
    (hevents : r.events = []) (hlog : (r.log.filter fun l => l.level = .error) = []) :
    Announces s s' ws {} r := by
  refine ⟨?_, fun ws' _ => by rw [hshown], hevents, by rw [hlog]; rfl⟩
  rw [hshown]
  exact Delta.describes_self _

variable {s s' : Store} {id : Nat} {c c' : Collection}

/-- A collection changes, and nothing else. -/
theorem announces_set (hs : s.Tidy) (hs' : s'.Tidy) (hc : s.at? id = some c)
    (hd : c.disposed = false) (hw : c'.workspace = c.workspace)
    (hset : s'.collections = s.collections.set id c') {d : Delta}
    (hdelta : d.Describes c.entries.get? c'.entries.get?) :
    Announces s s' c.workspace d (s.notify c.workspace d) := by
  have hself : s'.at? id = some c' := by
    rw [at?, hset]
    exact List.getElem?_set_self (List.getElem?_eq_some_iff.1 hc).1
  have hother : ∀ id', id' ≠ id → s'.at? id' = s.at? id' := by
    intro id' hne
    rw [at?, hset]
    exact List.getElem?_set_ne (Ne.symm hne)
  refine ⟨?_, ?_, s.events_notify c.workspace d, s.failures_notify c.workspace d⟩
  · have hhere : s'.shown c.workspace = c'.entries.get? := by
      funext key
      ext ds
      rw [hs'.shown_eq_some_iff]
      constructor
      · rintro ⟨id', c'', hc'', hw'', hds⟩
        by_cases hid : id' = id
        · subst hid
          obtain rfl : c' = c'' := Option.some.inj (hself.symm.trans hc'')
          exact hds
        · -- another collection with entries would have been the current one before
          rw [hother id' hid] at hc''
          have hcur := hs.current_of_live hc'' (hs.live_of_get? hc'' hds)
          rw [hw'', hs.current_of_live hc hd, Option.some.injEq] at hcur
          exact absurd hcur.symm hid
      · exact fun hds => ⟨id, c', hself, hw, hds⟩
    rw [hs.shown_of_live hc hd, hhere]
    exact hdelta
  · intro ws hne
    funext key
    ext ds
    rw [hs'.shown_eq_some_iff, hs.shown_eq_some_iff]
    have hnot : ∀ {id' c''}, c''.workspace = ws →
        (s.at? id' = some c'' ∨ s'.at? id' = some c'') → id' ≠ id := by
      rintro _ c'' hw'' hat rfl
      rw [hc, hself] at hat
      rcases hat with hat | hat <;> cases hat
      · exact hne hw''.symm
      · exact hne (hw''.symm.trans hw)
    constructor
    · rintro ⟨id', c'', hc'', hw'', hds⟩
      exact ⟨id', c'', by rwa [hother id' (hnot hw'' (.inr hc''))] at hc'', hw'', hds⟩
    · rintro ⟨id', c'', hc'', hw'', hds⟩
      exact ⟨id', c'', by rwa [hother id' (hnot hw'' (.inl hc''))], hw'', hds⟩

/-! ## Operations -/

/-- What can happen to a store: somebody starts to listen, listeners of a name fail from now on
or no longer do, somebody asks for a collection, changes or disposes of a collection that was
asked for earlier, or the store changes or drops the collection of a workspace. -/
inductive Operation where
  | listen (l : Listener)
  | temper (name : String) (broken : Bool)
  | collection (workspace : String)
  | write (id : Nat) (w : Collection.Write)
  | disposeAt (id : Nat)
  | replace (workspace : String) (key : DocumentKey) (diagnostics : List Diagnostic)
  | clear (workspace : String) (scope : Collection.Scope)
  | dispose (workspace : String)

/-- The listeners of a name fail, or no longer do. -/
def temper (s : Store) (name : String) (broken : Bool) : Store :=
  { s with listeners := s.listeners.map fun l => if l.name = name then { l with broken } else l }

/-- The store after an operation, the delta that the operation gives back if it gives one back,
and what it led to. -/
structure Outcome where
  store : Store
  returned : Option Delta := none
  reaction : Reaction := {}

namespace Outcome

def ofChange (o : Store × Delta × Reaction) : Outcome := ⟨o.1, some o.2.1, o.2.2⟩

def ofDisposal (o : Store × Reaction) : Outcome := ⟨o.1, none, o.2⟩

end Outcome

/-- Perform an operation. -/
def perform (s : Store) : Operation → Outcome
  | .listen l => { store := s.listen l }
  | .temper name broken => { store := s.temper name broken }
  | .collection workspace => { store := (s.collection workspace).1 }
  | .write id w => .ofChange (s.change id (·.write w))
  | .disposeAt id => .ofDisposal (s.disposeAt id)
  | .replace workspace key diagnostics => .ofChange (s.replace workspace key diagnostics)
  | .clear workspace scope => .ofChange (s.clear workspace scope)
  | .dispose workspace => .ofDisposal (s.dispose workspace)

namespace Tidy

/-- A collection may change while it is in use, and may be disposed of if it is emptied. -/
theorem set (hs : s.Tidy) (hc : s.at? id = some c) (hw : c'.workspace = c.workspace)
    (hempty : c'.disposed = true → c'.entries = Assoc.empty)
    (hlive : c'.disposed = false → c.disposed = false) :
    ({ s with collections := s.collections.set id c' } : Store).Tidy := by
  have hlt := (List.getElem?_eq_some_iff.1 hc).1
  have hself : (s.collections.set id c')[id]? = some c' := List.getElem?_set_self hlt
  refine ⟨?_, ?_, ?_⟩
  · intro id' c'' hc'' hd
    by_cases hid : id = id'
    · subst hid
      obtain rfl : c' = c'' := Option.some.inj (hself.symm.trans hc'')
      exact hempty hd
    · exact hs.empty_of_disposed ((List.getElem?_set_ne hid).symm.trans hc'') hd
  · intro ws id' hcur
    obtain ⟨c'', hc'', hw''⟩ := hs.current_workspace hcur
    by_cases hid : id = id'
    · subst hid
      obtain rfl : c = c'' := Option.some.inj (hc.symm.trans hc'')
      exact ⟨c', hself, hw.trans hw''⟩
    · exact ⟨c'', (List.getElem?_set_ne hid).trans hc'', hw''⟩
  · intro id' c'' hc'' hd
    by_cases hid : id = id'
    · subst hid
      obtain rfl : c' = c'' := Option.some.inj (hself.symm.trans hc'')
      rw [hw]
      exact hs.current_of_live hc (hlive hd)
    · exact hs.current_of_live ((List.getElem?_set_ne hid).symm.trans hc'') hd

/-- A workspace may be dropped together with its collection. -/
theorem drop (hs : s.Tidy) {ws : String} (hcur : s.current.get? ws = some id)
    (hempty : c'.entries = Assoc.empty) (hd' : c'.disposed = true) :
    ({ s with
        collections := s.collections.set id c'
        current := s.current.erase ws } : Store).Tidy := by
  obtain ⟨c, hc, hw⟩ := hs.current_workspace hcur
  have hself : (s.collections.set id c')[id]? = some c' :=
    List.getElem?_set_self (List.getElem?_eq_some_iff.1 hc).1
  refine ⟨?_, ?_, ?_⟩
  · intro id' c'' hc'' hd
    by_cases hid : id = id'
    · subst hid
      obtain rfl : c' = c'' := Option.some.inj (hself.symm.trans hc'')
      exact hempty
    · exact hs.empty_of_disposed ((List.getElem?_set_ne hid).symm.trans hc'') hd
  · intro ws' id' hcur'
    rw [Assoc.get?_erase] at hcur'
    split at hcur'
    · exact absurd hcur' (by simp)
    · next hne =>
      obtain ⟨c'', hc'', hw''⟩ := hs.current_workspace hcur'
      have hid : id ≠ id' := by
        rintro rfl
        obtain rfl : c = c'' := Option.some.inj (hc.symm.trans hc'')
        exact hne (hw''.symm.trans hw)
      exact ⟨c'', (List.getElem?_set_ne hid).trans hc'', hw''⟩
  · intro id' c'' hc'' hd
    have hid : id ≠ id' := by
      rintro rfl
      obtain rfl : c' = c'' := Option.some.inj (hself.symm.trans hc'')
      rw [hd'] at hd
      exact absurd hd (by simp)
    have hcur'' := hs.current_of_live ((List.getElem?_set_ne hid).symm.trans hc'') hd
    have hne : c''.workspace ≠ ws := by
      intro hw''
      rw [hw'', hcur, Option.some.injEq] at hcur''
      exact hid hcur''
    rw [Assoc.get?_erase, if_neg hne]
    exact hcur''

/-- Asking for a collection adds an empty one at most. -/
theorem collection (hs : s.Tidy) (ws : String) :
    (s.collection ws).1.Tidy ∧ (s.collection ws).1.shown = s.shown := by
  rw [Store.collection]
  cases hcur : s.current.get? ws with
  | some id => exact ⟨hs, rfl⟩
  | none =>
    -- a number is an old one, or that of the new collection
    have hat : ∀ {id' c''},
        (s.collections ++ [({ workspace := ws } : Collection)])[id']? = some c'' →
        s.at? id' = some c'' ∨
          id' = s.collections.length ∧ c'' = { workspace := ws } := by
      intro id' c'' h
      rw [List.getElem?_append] at h
      split at h
      · exact .inl h
      · next hle =>
        obtain ⟨hlt, heq⟩ := List.getElem?_eq_some_iff.1 h
        rw [List.length_singleton] at hlt
        exact .inr ⟨by omega, by simpa using heq.symm⟩
    have hold : ∀ {id' c''}, s.at? id' = some c'' →
        (s.collections ++ [({ workspace := ws } : Collection)])[id']? = some c'' := by
      intro id' c'' h
      rw [List.getElem?_append_left (List.getElem?_eq_some_iff.1 h).1]
      exact h
    refine ⟨⟨?_, ?_, ?_⟩, ?_⟩
    · intro id' c'' hc'' hd
      rcases hat hc'' with h | ⟨-, rfl⟩
      · exact hs.empty_of_disposed h hd
      · rfl
    · intro ws' id' hcur'
      rw [Assoc.get?_insert] at hcur'
      split at hcur'
      · next hw =>
        cases hcur'
        exact ⟨{ workspace := ws }, by simp [at?], hw.symm⟩
      · obtain ⟨c'', hc'', hw''⟩ := hs.current_workspace hcur'
        exact ⟨c'', hold hc'', hw''⟩
    · intro id' c'' hc'' hd
      rw [Assoc.get?_insert]
      rcases hat hc'' with h | ⟨rfl, rfl⟩
      · have hcur'' := hs.current_of_live h hd
        rw [if_neg, hcur'']
        intro hw
        rw [hw, hcur] at hcur''
        exact absurd hcur'' (by simp)
      · simp
    · funext ws' key
      simp [shown, List.findSome?_append]

end Tidy

/-- The store is left tidy, and the difference is announced: it is the delta that is given back,
if one is. -/
def Sends (s : Store) (o : Outcome) : Prop :=
  o.store.Tidy ∧
    ∃ ws d, Announces s o.store ws d o.reaction ∧ ∀ d' ∈ o.returned, d' = d

theorem sends_nothing {o : Outcome} (htidy : o.store.Tidy) (hshown : o.store.shown = s.shown)
    (hevents : o.reaction.events = [])
    (hlog : (o.reaction.log.filter fun l => l.level = .error) = [])
    (hreturned : ∀ d ∈ o.returned, d = {}) : Sends s o :=
  ⟨htidy, "", {}, announces_same hshown "" hevents hlog, hreturned⟩

theorem set_self (hc : s.at? id = some c) : s.collections.set id c = s.collections := by
  obtain ⟨hlt, hget⟩ := List.getElem?_eq_some_iff.1 hc
  rw [← hget, List.set_getElem_self]

/-- Changing a collection by its number, whether or not it has been disposed of. -/
theorem sends_change (hs : s.Tidy) (id : Nat) (w : Collection.Write) :
    Sends s (.ofChange (s.change id (·.write w))) := by
  unfold change
  cases hc : s.at? id with
  | none => exact sends_nothing hs rfl rfl rfl (by simp [Outcome.ofChange])
  | some c =>
    obtain ⟨hw, hdisposed⟩ := c.write_workspace w
    cases hd : c.disposed with
    | true =>
      simp only [Collection.write_of_disposed hd, set_self hc, hd, if_true]
      exact sends_nothing hs rfl rfl rfl (by simp [Outcome.ofChange])
    | false =>
      rw [hd] at hdisposed
      have htidy := hs.set hc hw (by simp [hdisposed]) fun _ => hd
      simp only [hd, Bool.false_eq_true, if_false]
      exact ⟨htidy, c.workspace, (c.write w).2,
        announces_set hs htidy hc hd hw rfl (c.describes_write w), by simp [Outcome.ofChange]⟩

/-- Disposing of a collection, which may go together with forgetting its workspace. -/
theorem announces_dispose (hs : s.Tidy) (hc : s.at? id = some c) (hs' : s'.Tidy)
    (hset : s'.collections = s.collections.set id c.dispose.1) :
    ∃ d, Announces s s' c.workspace d (s.notify c.workspace c.dispose.2) := by
  cases hd : c.disposed with
  | true =>
    rw [Collection.dispose, if_pos hd] at hset ⊢
    have hshown : s'.shown = s.shown := by
      unfold shown
      rw [hset, set_self hc]
    exact ⟨{}, announces_same hshown c.workspace rfl rfl⟩
  | false =>
    exact ⟨_, announces_set hs hs' hc hd c.dispose_workspace hset
      (Collection.describes_dispose hd)⟩

theorem sends_disposeAt (hs : s.Tidy) (id : Nat) :
    Sends s (.ofDisposal (s.disposeAt id)) := by
  unfold disposeAt
  cases hc : s.at? id with
  | none => exact sends_nothing hs rfl rfl rfl (by simp [Outcome.ofDisposal])
  | some c =>
    have htidy := hs.set hc c.dispose_workspace
      (fun _ => Collection.entries_dispose (hs.empty_of_disposed hc))
      (by simp [Collection.disposed_dispose])
    obtain ⟨d, h⟩ := announces_dispose hs hc htidy rfl
    exact ⟨htidy, c.workspace, d, h, by simp [Outcome.ofDisposal]⟩

theorem sends_dispose (hs : s.Tidy) (ws : String) :
    Sends s (.ofDisposal (s.dispose ws)) := by
  unfold dispose
  cases hcur : s.current.get? ws with
  | none => exact sends_nothing hs rfl rfl rfl (by simp [Outcome.ofDisposal])
  | some id =>
    obtain ⟨c, hc, -⟩ := hs.current_workspace hcur
    have htidy := hs.drop hcur (Collection.entries_dispose (hs.empty_of_disposed hc))
      c.disposed_dispose
    obtain ⟨d, h⟩ := announces_dispose hs hc htidy rfl
    have hat : ({ s with current := s.current.erase ws } : Store).at? id = some c := hc
    simp only [disposeAt, hat]
    exact ⟨htidy, c.workspace, d, h, by simp [Outcome.ofDisposal]⟩

theorem listeners_collection (s : Store) (ws : String) :
    (s.collection ws).1.listeners = s.listeners := by
  rw [Store.collection]
  split <;> rfl

/-- Asking for the collection first does not show. -/
theorem sends_replace (hs : s.Tidy) (ws : String) (key : DocumentKey) (ds : List Diagnostic) :
    Sends s (.ofChange (s.replace ws key ds)) := by
  obtain ⟨htidy, hshown⟩ := hs.collection ws
  obtain ⟨htidy', ws', d, ⟨hdescribes, helsewhere, hevents, hfailures⟩, hd⟩ :=
    sends_change htidy (s.collection ws).2 (.replace key ds)
  rw [hshown] at hdescribes
  simp only [hshown] at helsewhere
  rw [listeners_collection] at hevents hfailures
  exact ⟨htidy', ws', d, ⟨hdescribes, helsewhere, hevents, hfailures⟩, hd⟩

theorem sends_clear (hs : s.Tidy) (ws : String) (scope : Collection.Scope) :
    Sends s (.ofChange (s.clear ws scope)) := by
  unfold clear
  cases s.current.get? ws with
  | none => exact sends_nothing hs rfl rfl rfl (by simp [Outcome.ofChange])
  | some id => exact sends_change hs id (.clear scope)

/-- Every operation leaves the store tidy and announces what it changed. -/
theorem sends_perform (hs : s.Tidy) (op : Operation) : Sends s (s.perform op) := by
  cases op with
  | listen l =>
    have htidy : (s.listen l).Tidy :=
      ⟨hs.empty_of_disposed, hs.current_workspace, hs.current_of_live⟩
    exact sends_nothing htidy rfl rfl rfl (by simp [perform])
  | temper name broken =>
    have htidy : (s.temper name broken).Tidy :=
      ⟨hs.empty_of_disposed, hs.current_workspace, hs.current_of_live⟩
    exact sends_nothing htidy rfl rfl rfl (by simp [perform])
  | collection ws =>
    obtain ⟨htidy, hshown⟩ := hs.collection ws
    exact sends_nothing htidy hshown rfl rfl (by simp [perform])
  | write id w => exact sends_change hs id w
  | disposeAt id => exact sends_disposeAt hs id
  | replace ws key ds => exact sends_replace hs ws key ds
  | clear ws scope => exact sends_clear hs ws scope
  | dispose ws => exact sends_dispose hs ws

/-! ## Mirrors -/

/-- An operation does not make a listener fail. -/
def Operation.Spares (listener : String) : Operation → Prop
  | .temper name _ => name ≠ listener
  | _ => True

theorem listeners_change (s : Store) (id : Nat) (f : Collection → Collection × Delta) :
    (s.change id f).1.listeners = s.listeners := by
  rw [change]
  split <;> rfl

theorem listeners_disposeAt (s : Store) (id : Nat) :
    (s.disposeAt id).1.listeners = s.listeners := by
  rw [disposeAt]
  split <;> rfl

/-- Nobody stops listening, and whoever is spared does not begin to fail. -/
theorem mem_listeners_perform {listener : String} {op : Operation}
    (h : ⟨listener, false⟩ ∈ s.listeners) (hspares : op.Spares listener) :
    ⟨listener, false⟩ ∈ (s.perform op).store.listeners := by
  cases op with
  | listen l => exact List.mem_append_left _ h
  | temper name broken => exact List.mem_map.2 ⟨_, h, if_neg (Ne.symm hspares)⟩
  | collection ws =>
    show _ ∈ (s.collection ws).1.listeners
    rwa [listeners_collection]
  | write id w =>
    show _ ∈ (s.change id _).1.listeners
    rwa [listeners_change]
  | disposeAt id =>
    show _ ∈ (s.disposeAt id).1.listeners
    rwa [listeners_disposeAt]
  | replace ws key ds =>
    show _ ∈ ((s.collection ws).1.change _ _).1.listeners
    rwa [listeners_change, listeners_collection]
  | clear ws scope =>
    show _ ∈ (s.clear ws scope).1.listeners
    unfold clear
    split
    · exact h
    · rwa [listeners_change]
  | dispose ws =>
    show _ ∈ (s.dispose ws).1.listeners
    unfold dispose
    split
    · exact h
    · rwa [listeners_disposeAt]

end Store

/-- A store, and what a listener believes to be in it. -/
structure Watch where
  store : Store
  mirror : String → DocumentKey → Option (List Diagnostic) := fun _ _ => none

namespace Watch

/-- A listener drops the keys that were removed and looks up those that were added or changed. -/
def hear (s : Store) (mirror : String → DocumentKey → Option (List Diagnostic))
    (e : StoreEvent) : String → DocumentKey → Option (List Diagnostic) := fun ws key =>
  if ws = e.workspace then
    if key ∈ e.delta.removed then none
    else if key ∈ e.delta.added ∨ key ∈ e.delta.changed then some (s.get ws key)
    else mirror ws key
  else mirror ws key

/-- The store performs an operation, and the listener hears what it is told. -/
def step (listener : String) (w : Watch) (op : Store.Operation) : Watch :=
  let o := w.store.perform op
  { store := o.store
    mirror := (o.reaction.events.filter fun e => e.listener = listener).foldl (hear o.store)
      w.mirror }

/-- Operations one after the other. -/
def run (listener : String) (w : Watch) (ops : List Store.Operation) : Watch :=
  ops.foldl (step listener) w

/-- Hearing about a change brings a mirror up to date wherever the change took place. -/
theorem hear_eq_shown {s' : Store} (hs' : s'.Tidy) {ws : String} {d : Delta}
    {before : DocumentKey → Option (List Diagnostic)} (hd : d.Describes before (s'.shown ws))
    {mirror : String → DocumentKey → Option (List Diagnostic)}
    (helse : ∀ ws' key, (ws' = ws → key ∉ d.added ∧ key ∉ d.removed ∧ key ∉ d.changed) →
      mirror ws' key = s'.shown ws' key) (listener : String) :
    hear s' mirror ⟨listener, ws, d⟩ = s'.shown := by
  have hlookup : ∀ key, s'.shown ws key ≠ none → some (s'.get ws key) = s'.shown ws key := by
    intro key hne
    obtain ⟨ds, hds⟩ := Option.ne_none_iff_exists'.1 hne
    rw [hs'.get_of_shown hds, hds]
  funext ws' key
  unfold hear
  dsimp only
  split
  · next hws =>
    subst hws
    split
    · next hr => exact ((hd.removed key).1 hr).2.symm
    · next hr =>
      split
      · next hac =>
        apply hlookup
        rcases hac with ha | hc
        · exact ((hd.added key).1 ha).2
        · exact ((hd.changed key).1 hc).2.1
      · next hac =>
        rw [not_or] at hac
        exact helse ws' key fun _ => ⟨hac.1, hr, hac.2⟩
  · next hws => exact helse ws' key fun h => absurd h hws

/-- A listener may hear the same more than once, if others have its name. -/
theorem foldl_hear_eq_shown {s' : Store} (hs' : s'.Tidy) {ws : String} {d : Delta}
    {before : DocumentKey → Option (List Diagnostic)} (hd : d.Describes before (s'.shown ws))
    {events : List StoreEvent} (hevents : ∀ e ∈ events, e.workspace = ws ∧ e.delta = d)
    (hne : events ≠ []) {mirror : String → DocumentKey → Option (List Diagnostic)}
    (helse : ∀ ws' key, (ws' = ws → key ∉ d.added ∧ key ∉ d.removed ∧ key ∉ d.changed) →
      mirror ws' key = s'.shown ws' key) :
    events.foldl (hear s') mirror = s'.shown := by
  induction events generalizing mirror with
  | nil => exact absurd rfl hne
  | cons e rest ih =>
    obtain ⟨rfl, rfl⟩ := hevents e (List.mem_cons_self ..)
    have hfirst := hear_eq_shown hs' hd helse e.listener
    rw [List.foldl_cons, hfirst]
    cases rest with
    | nil => rfl
    | cons e' rest =>
      refine ih (fun x hx => hevents x (List.mem_cons_of_mem _ hx)) (List.cons_ne_nil _ _) ?_
      exact fun ws' key _ => rfl

/-- The mirror of a listener that does not fail shows what is in the store. -/
structure Faithful (listener : String) (w : Watch) : Prop where
  tidy : w.store.Tidy
  listens : ⟨listener, false⟩ ∈ w.store.listeners
  mirror : w.mirror = w.store.shown

theorem Faithful.step {listener : String} {w : Watch} (h : w.Faithful listener)
    {op : Store.Operation} (hspares : op.Spares listener) :
    (w.step listener op).Faithful listener := by
  obtain ⟨htidy, ws, d, ha, -⟩ := Store.sends_perform h.tidy op
  refine ⟨htidy, Store.mem_listeners_perform h.listens hspares, ?_⟩
  show ((w.store.perform op).reaction.events.filter fun e => e.listener = listener).foldl
    (hear (w.store.perform op).store) w.mirror = (w.store.perform op).store.shown
  rw [ha.events, h.mirror]
  cases hempty : d.isEmpty with
  | true =>
    -- nothing is told, and nothing has to be
    have hsame := (ha.describes.isEmpty_iff).1 hempty
    funext ws' key
    by_cases hws : ws' = ws
    · subst hws
      exact congrFun hsame key
    · exact (congrFun (ha.elsewhere ws' hws) key).symm
  | false =>
    apply foldl_hear_eq_shown htidy ha.describes
    · intro e he
      obtain ⟨l, -, rfl⟩ := List.mem_map.1 (List.mem_filter.1 he).1
      exact ⟨rfl, rfl⟩
    · apply List.ne_nil_of_mem (a := ⟨listener, ws, d⟩)
      simp only [Bool.false_eq_true, if_false, List.mem_filter, List.mem_map]
      exact ⟨⟨_, ⟨h.listens, rfl⟩, rfl⟩, by simp⟩
    · intro ws' key hkey
      by_cases hws : ws' = ws
      · subst hws
        obtain ⟨hadd, hremove, hchange⟩ := hkey rfl
        exact ha.describes.eq_of_not_mem hadd hremove hchange
      · exact (congrFun (ha.elsewhere ws' hws) key).symm

theorem Faithful.run {listener : String} {w : Watch} (h : w.Faithful listener)
    {ops : List Store.Operation} (hspares : ∀ op ∈ ops, op.Spares listener) :
    (w.run listener ops).Faithful listener := by
  induction ops generalizing w with
  | nil => exact h
  | cons op ops ih =>
    exact ih (h.step (hspares op (List.mem_cons_self ..)))
      fun o ho => hspares o (List.mem_cons_of_mem _ ho)

theorem faithful_start {listener : String} {listeners : List Listener}
    (h : ⟨listener, false⟩ ∈ listeners) :
    Faithful listener { store := { listeners } } := by
  refine ⟨⟨?_, ?_, ?_⟩, h, rfl⟩
  all_goals simp [Store.at?]

/-- Whoever listens from the beginning and does not fail has after every operation a mirror of
all collections, whatever the other listeners do. What each operation changes is told to
everybody as one exact delta of one workspace, which is also the delta that the operation gives
back; nobody is told anything if nothing changes. -/
theorem mirror_follows_store (listener : String) (listeners : List Listener)
    (hlistens : ⟨listener, false⟩ ∈ listeners) (ops : List Store.Operation)
    (hspares : ∀ op ∈ ops, op.Spares listener) :
    let w := run listener { store := { listeners } } ops
    w.mirror = w.store.shown ∧
    (∀ ws key ds, w.store.shown ws key = some ds ↔
      ∃ c ∈ w.store.collections, c.workspace = ws ∧ c.entries.get? key = some ds) ∧
    ∀ op, let o := w.store.perform op
      (∃ ws d, w.store.Announces o.store ws d o.reaction ∧ ∀ d' ∈ o.returned, d' = d) ∧
      (o.store.shown = w.store.shown →
        o.reaction.events = [] ∧ ∀ l ∈ o.reaction.log, l.level ≠ .error) := by
  intro w
  have hw : w.Faithful listener := (faithful_start hlistens).run hspares
  refine ⟨hw.mirror, ?_, ?_⟩
  · intro ws key ds
    rw [hw.tidy.shown_eq_some_iff]
    constructor
    · rintro ⟨id, c, hc, hcw, hds⟩
      exact ⟨c, List.mem_of_getElem? hc, hcw, hds⟩
    · rintro ⟨c, hmem, hcw, hds⟩
      obtain ⟨id, hid⟩ := List.mem_iff_getElem?.1 hmem
      exact ⟨id, c, hid, hcw, hds⟩
  · intro op o
    obtain ⟨-, ws, d, ha, hreturned⟩ := Store.sends_perform hw.tidy op
    refine ⟨⟨ws, d, ha, hreturned⟩, fun hsame => ?_⟩
    have hempty : d.isEmpty = true := by
      rw [ha.describes.isEmpty_iff, hsame]
    refine ⟨by rw [ha.events, if_pos hempty], ?_⟩
    have hfailures := ha.failures
    rw [if_pos hempty, List.length_eq_zero_iff, List.filter_eq_nil_iff] at hfailures
    simpa using hfailures

/-- Two listeners, the first of which fails from the second operation on. A fragment is filed,
the collection is dropped and asked for again, and then somebody who still holds the old one
files something there, which nobody hears of. -/
theorem mirror_follows_store_across_drop :
    let file := DocumentKey.file "/a.py"
    let cell := DocumentKey.fragment "nb" 0
    let found : Diagnostic := ⟨⟨0, 0, 0, 1⟩, "bad", .error, none, none⟩
    let ops : List Store.Operation := [.replace "w" file [found], .temper "other" true,
      .replace "w" cell [found], .dispose "w", .collection "w",
      .write 0 (.replace file [found]), .write 1 (.replace cell [found, found])]
    let w := run "host" { store := { listeners := [⟨"other", false⟩, ⟨"host", false⟩] } } ops
    w.store.collections.length = 2 ∧ w.mirror "w" file = none ∧
      w.store.shown "w" cell = some [found, found] ∧
      ∃ c ∈ w.store.collections, c.workspace = "w" ∧
        c.entries.get? cell = some [found, found] := by
  intro file cell found ops w
  have h := mirror_follows_store "host" [⟨"other", false⟩, ⟨"host", false⟩] (by simp) ops (by
    simp [ops, Store.Operation.Spares])
  have hcell : w.mirror "w" cell = some [found, found] := by decide +kernel
  rw [show w.mirror = w.store.shown from h.1] at hcell
  exact ⟨by decide +kernel, by decide +kernel, hcell, (h.2.1 "w" cell [found, found]).1 hcell⟩

end Watch

end Overseer
