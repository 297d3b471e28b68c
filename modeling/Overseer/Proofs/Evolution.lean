import Overseer.Proofs.Maps
import Overseer.Session.State

set_option autoImplicit false

/-! # How the shared state goes on

Operations change the shared state one after the other. Whoever waits finds another state when
it goes on, but not just any: registrations stay where they are and keep their roots, a removed
one stays removed, and the lock and the collection of a workspace stay the current ones as long
as no registration of it has been removed; the collection of a registration stays the current one
as long as this registration is not removed (`Later`). At every wait the tables agree with each
other (`Coherent`). Most operations touch neither registrations nor tables nor diagnostics;
such a change leaves the `core` of the state alone. -/

namespace Overseer

namespace State

/-- The key of a registration. -/
def key (s : State) (n : Nat) : String := (s.workspace n).key

/-- Whether a registration has been removed. -/
def isRemoved (s : State) (n : Nat) : Bool := (s.registration n).removed

/-- Some registration of a workspace has been removed. -/
def Dropped (s : State) (k : String) : Prop :=
  ∃ n < s.registrations.length, s.isRemoved n = true ∧ s.key n = k

/-- What is filed for a workspace. -/
def filed (s : State) (k : String) : List (DocumentKey × List Diagnostic) :=
  match s.store.find? k with
  | some (_, c) => c.entries.entries
  | none => []

/-- A workspace has a collection and is not registered. -/
def Stray (s : State) (k : String) : Prop :=
  s.registry.get? k = none ∧ s.store.current.get? k ≠ none

/-- Nothing has been filed: each collection is as it was, or has been disposed of, or is new. -/
def Unfiled (s s' : State) : Prop :=
  ∀ id c, s'.store.at? id = some c →
    s.store.at? id = some c ∨ c.entries.entries = [] ∧ (c.disposed = true ∨ s.store.at? id = none)

/-- A state that can follow another one. -/
structure Later (s s' : State) : Prop where
  length : s.registrations.length ≤ s'.registrations.length
  key : ∀ n < s.registrations.length, s'.key n = s.key n
  removed : ∀ n < s.registrations.length, s.isRemoved n = true → s'.isRemoved n = true
  lock : ∀ k l, ¬ s'.Dropped k → s.lockOf.get? k = some l → s'.lockOf.get? k = some l
  current : ∀ k id, ¬ s'.Dropped k → s.store.current.get? k = some id →
    s'.store.current.get? k = some id
  kept : ∀ n < s.registrations.length, s'.isRemoved n = false → ∀ id,
    s.store.current.get? (s.key n) = some id → s'.store.current.get? (s.key n) = some id
  collection : ∀ id c, s.store.at? id = some c →
    ∃ c', s'.store.at? id = some c' ∧ c'.workspace = c.workspace

/-- The tables of a state agree with each other. -/
structure Coherent (s : State) : Prop where
  registered : ∀ k n, s.registry.get? k = some n →
    n < s.registrations.length ∧ s.key n = k ∧ s.isRemoved n = false
  unremoved : ∀ n < s.registrations.length, s.isRemoved n = false →
    s.registry.get? (s.key n) = some n
  listed : ∀ k n, s.registry.get? k = some n → ∃ id, s.store.current.get? k = some id
  current : ∀ k id, s.store.current.get? k = some id →
    ∃ c, s.store.at? id = some c ∧ c.workspace = k ∧ c.disposed = false

/-- A coherent state that can follow another one: what is found after a wait. -/
def Onward (s s' : State) : Prop := s.Later s' ∧ s'.Coherent

/-! ## Going on -/

theorem Later.refl (s : State) : s.Later s :=
  ⟨Nat.le_refl _, fun _ _ => rfl, fun _ _ h => h, fun _ _ _ h => h, fun _ _ _ h => h,
    fun _ _ _ _ h => h, fun _ c h => ⟨c, h, rfl⟩⟩

/-- What has been removed stays removed. -/
theorem Later.dropped {s s' : State} (h : s.Later s') {k : String} (hk : s.Dropped k) :
    s'.Dropped k := by
  obtain ⟨n, hn, hremoved, rfl⟩ := hk
  exact ⟨n, Nat.lt_of_lt_of_le hn h.length, h.removed n hn hremoved, h.key n hn⟩

theorem Later.not_removed {s s' : State} (h : s.Later s') {n : Nat}
    (hn : n < s.registrations.length) (hr : s'.isRemoved n = false) : s.isRemoved n = false := by
  cases hs : s.isRemoved n with
  | false => rfl
  | true =>
    rw [h.removed n hn hs] at hr
    exact absurd hr (by simp)

theorem Later.trans {s s' s'' : State} (h : s.Later s') (h' : s'.Later s'') : s.Later s'' where
  length := Nat.le_trans h.length h'.length
  key n hn := by
    rw [h'.key n (Nat.lt_of_lt_of_le hn h.length), h.key n hn]
  removed n hn hremoved :=
    h'.removed n (Nat.lt_of_lt_of_le hn h.length) (h.removed n hn hremoved)
  lock k l hk hl := h'.lock k l hk (h.lock k l (fun hd => hk (h'.dropped hd)) hl)
  current k id hk hid := h'.current k id hk (h.current k id (fun hd => hk (h'.dropped hd)) hid)
  kept n hn hr id hid := by
    have hn' := Nat.lt_of_lt_of_le hn h.length
    have hid' := h.kept n hn (h'.not_removed hn' hr) id hid
    rw [← h.key n hn] at hid' ⊢
    exact h'.kept n hn' hr id hid'
  collection id c hc := by
    obtain ⟨c', hc', hw'⟩ := h.collection id c hc
    obtain ⟨c'', hc'', hw''⟩ := h'.collection id c' hc'
    exact ⟨c'', hc'', hw''.trans hw'⟩

theorem Onward.refl {s : State} (h : s.Coherent) : s.Onward s := ⟨Later.refl s, h⟩

theorem Onward.trans {s s' s'' : State} (h : s.Onward s') (h' : s'.Onward s'') : s.Onward s'' :=
  ⟨h.1.trans h'.1, h'.2⟩

/-! ## The core of a state -/

/-- Registrations, tables and diagnostics. -/
structure Core where
  daemons : DaemonConfig
  store : Store
  registrations : List Registration
  registry : Assoc String Nat
  lockOf : Assoc String Nat
  lockCount : Nat

/-- The part of a state that calls of the checker leave alone. -/
def core (s : State) : Core :=
  ⟨s.daemons, s.store, s.registrations, s.registry, s.lockOf, s.lockCount⟩

@[simp] theorem core_record (s : State) (r : LogRecord) : (s.record r).core = s.core := rfl

@[simp] theorem core_slept (s : State) (ms : Int) : (s.slept ms).core = s.core := rfl

@[simp] theorem core_withWorld (s : State) (w : World) :
    ({ s with world := w } : State).core = s.core := rfl

@[simp] theorem core_setHandle (s : State) (id : Nat) (f : Handle → Handle) :
    (s.setHandle id f).core = s.core := rfl

section Core

variable {s s' : State}

theorem registrations_of_core (h : s'.core = s.core) : s'.registrations = s.registrations :=
  congrArg Core.registrations h

theorem store_of_core (h : s'.core = s.core) : s'.store = s.store := congrArg Core.store h

theorem registry_of_core (h : s'.core = s.core) : s'.registry = s.registry :=
  congrArg Core.registry h

theorem lockOf_of_core (h : s'.core = s.core) : s'.lockOf = s.lockOf := congrArg Core.lockOf h

theorem workspace_of_core (h : s'.core = s.core) (n : Nat) : s'.workspace n = s.workspace n := by
  simp only [workspace, registration, registrations_of_core h]

theorem key_of_core (h : s'.core = s.core) (n : Nat) : s'.key n = s.key n := by
  simp only [key, workspace_of_core h]

theorem isRemoved_of_core (h : s'.core = s.core) (n : Nat) : s'.isRemoved n = s.isRemoved n := by
  simp only [isRemoved, registration, registrations_of_core h]

theorem dropped_of_core (h : s'.core = s.core) (k : String) : s'.Dropped k ↔ s.Dropped k := by
  simp only [Dropped, registrations_of_core h, isRemoved_of_core h, key_of_core h]

/-- What is filed for a workspace is what its collection holds. -/
theorem filed_of_current {k : String} {id : Nat} {c : Collection}
    (hid : s.store.current.get? k = some id) (hc : s.store.at? id = some c) :
    s.filed k = c.entries.entries := by
  simp [filed, Store.find?, hid, hc]

theorem exists_of_mem_filed {k : String} {e : DocumentKey × List Diagnostic} (he : e ∈ s.filed k) :
    ∃ id c, s.store.at? id = some c ∧ e ∈ c.entries.entries := by
  cases hid : s.store.current.get? k with
  | none => simp [filed, Store.find?, hid] at he
  | some id =>
    cases hc : s.store.at? id with
    | none => simp [filed, Store.find?, hid, hc] at he
    | some c => exact ⟨id, c, hc, filed_of_current hid hc ▸ he⟩

theorem filed_of_core (h : s'.core = s.core) (k : String) : s'.filed k = s.filed k := by
  simp only [filed, store_of_core h]

theorem Later.of_core (h : s'.core = s.core) : s.Later s' where
  length := Nat.le_of_eq (congrArg List.length (registrations_of_core h)).symm
  key n _ := key_of_core h n
  removed n _ hn := by rwa [isRemoved_of_core h]
  lock k l _ hl := by rwa [lockOf_of_core h]
  current k id _ hid := by rwa [store_of_core h]
  kept n _ _ id hid := by rwa [store_of_core h]
  collection id c hc := ⟨c, by rwa [store_of_core h], rfl⟩

theorem Coherent.of_core (h : s'.core = s.core) (hs : s.Coherent) : s'.Coherent where
  registered k n hn := by
    rw [registry_of_core h] at hn
    rw [registrations_of_core h, key_of_core h, isRemoved_of_core h]
    exact hs.registered k n hn
  unremoved n hn hr := by
    rw [registrations_of_core h] at hn
    rw [isRemoved_of_core h] at hr
    rw [registry_of_core h, key_of_core h]
    exact hs.unremoved n hn hr
  listed k n hn := by
    rw [registry_of_core h] at hn
    rw [store_of_core h]
    exact hs.listed k n hn
  current k id hid := by
    rw [store_of_core h] at hid ⊢
    exact hs.current k id hid

theorem Onward.of_core (h : s'.core = s.core) (hs : s.Coherent) : s.Onward s' :=
  ⟨Later.of_core h, hs.of_core h⟩

end Core

/-! ## Collections -/

/-- A collection is current for one workspace only. -/
theorem Coherent.current_injective {s : State} (hs : s.Coherent) {k k' : String} {id : Nat}
    (h : s.store.current.get? k = some id) (h' : s.store.current.get? k' = some id) : k = k' := by
  obtain ⟨c, hc, hk, -⟩ := hs.current k id h
  obtain ⟨c', hc', hk', -⟩ := hs.current k' id h'
  rw [hc] at hc'
  obtain rfl : c = c' := by simpa using hc'
  rw [← hk, hk']

/-! ## Gentle changes

A change is gentle if it keeps all locks, files nothing and, for workspaces of which no
registration has been removed, keeps all diagnostics, and if it makes no collection for a
workspace that is not registered. Only the end of a removal gives up a lock, only the end of a
check changes diagnostics, and only a check whose registration has been removed makes such a
collection; everything else is gentle. -/

/-- A change that keeps locks and diagnostics. -/
structure Gentle (s s' : State) : Prop where
  onward : s.Onward s'
  locks : ∀ k l, s.lockOf.get? k = some l → s'.lockOf.get? k = some l
  filed : ∀ k, ¬ s'.Dropped k → s'.filed k = s.filed k
  unfiled : s.Unfiled s'
  strays : ∀ k, s'.Stray k → s.Stray k

theorem Unfiled.refl (s : State) : s.Unfiled s := fun _ _ hc => .inl hc

theorem Unfiled.trans {s s' s'' : State} (hs : s.Later s') (h : s.Unfiled s')
    (h' : s'.Unfiled s'') : s.Unfiled s'' := by
  intro id c hc
  rcases h' id c hc with hc' | ⟨hempty, hnew⟩
  · exact h id c hc'
  · refine .inr ⟨hempty, hnew.imp_right fun hnone => ?_⟩
    cases hid : s.store.at? id with
    | none => rfl
    | some c₀ =>
      obtain ⟨c', hc', -⟩ := hs.collection id c₀ hid
      rw [hnone] at hc'
      exact absurd hc' (by simp)

/-- Where nothing has been filed, a registration that is not removed shows what it showed. -/
theorem Unfiled.filed {s s' : State} (hs : s.Coherent) (hon : s.Onward s') (h : s.Unfiled s')
    {n : Nat} (hn : n < s.registrations.length) (hr : s'.isRemoved n = false) :
    s'.filed (s'.key n) = s.filed (s'.key n) := by
  obtain ⟨id, hid⟩ := hs.listed _ n (hs.unremoved n hn (hon.1.not_removed hn hr))
  have hid' := hon.1.kept n hn hr id hid
  obtain ⟨c, hc, -, -⟩ := hs.current _ _ hid
  obtain ⟨c', hc', -, hd'⟩ := hon.2.current _ _ hid'
  have hsame : s.store.at? id = some c' := by
    rcases h id c' hc' with hsame | ⟨-, hd | hnone⟩
    · exact hsame
    · rw [hd'] at hd
      exact absurd hd (by simp)
    · rw [hc] at hnone
      exact absurd hnone (by simp)
  rw [hon.1.key n hn]
  simp [State.filed, Store.find?, hid, hid', hc', hsame]

theorem unfiled_of_core {s s' : State} (h : s'.core = s.core) : s.Unfiled s' := by
  intro id c hc
  rw [store_of_core h] at hc
  exact .inl hc

theorem stray_of_core {s s' : State} (h : s'.core = s.core) (k : String) :
    s'.Stray k ↔ s.Stray k := by
  simp only [Stray, registry_of_core h, store_of_core h]

theorem Gentle.of_core {s s' : State} (h : s'.core = s.core) (hs : s.Coherent) : s.Gentle s' where
  onward := Onward.of_core h hs
  locks k l hl := by rwa [lockOf_of_core h]
  filed k _ := filed_of_core h k
  unfiled := unfiled_of_core h
  strays k := (stray_of_core h k).1

theorem Gentle.refl {s : State} (hs : s.Coherent) : s.Gentle s := Gentle.of_core rfl hs

theorem Gentle.trans {s s' s'' : State} (h : s.Gentle s') (h' : s'.Gentle s'') : s.Gentle s'' where
  onward := h.onward.trans h'.onward
  locks k l hl := h'.locks k l (h.locks k l hl)
  filed k hk := by
    rw [h'.filed k hk, h.filed k fun hd => hk (h'.onward.1.dropped hd)]
  unfiled := h.unfiled.trans h.onward.1 h'.unfiled
  strays k hk := h.strays k (h'.strays k hk)

theorem Gentle.coherent {s s' : State} (h : s.Gentle s') : s'.Coherent := h.onward.2

/-- Making a lock for a workspace that has none. -/
theorem gentle_insert_lock {s : State} (hs : s.Coherent) {k : String} (l count : Nat)
    (hk : s.lockOf.get? k = none) :
    s.Gentle { s with lockOf := s.lockOf.insert k l, lockCount := count } := by
  have hlocks : ∀ k' l', s.lockOf.get? k' = some l' → (s.lockOf.insert k l).get? k' = some l' := by
    intro k' l' hl'
    rw [Assoc.get?_insert, if_neg]
    · exact hl'
    · rintro rfl
      rw [hk] at hl'
      exact absurd hl' (by simp)
  exact ⟨⟨⟨Nat.le_refl _, fun _ _ => rfl, fun _ _ h => h, fun k' l' _ h => hlocks k' l' h,
    fun _ _ _ h => h, fun _ _ _ _ h => h, fun _ c h => ⟨c, h, rfl⟩⟩,
    ⟨hs.registered, hs.unremoved, hs.listed, hs.current⟩⟩, hlocks, fun _ _ => rfl,
    .refl s, fun _ h => h⟩

end State

namespace Store

/-- Asking for the collection of a workspace gives the current one. -/
theorem current_collection (s : Store) (k : String) :
    (s.collection k).1.current.get? k = some (s.collection k).2 := by
  rw [collection]
  cases h : s.current.get? k with
  | some id => simpa using h
  | none => simp [Assoc.get?_insert]

theorem current_collection_of_some (s : Store) (k : String) {k' : String} {id : Nat}
    (h : s.current.get? k' = some id) : (s.collection k).1.current.get? k' = some id := by
  rw [collection]
  cases hk : s.current.get? k with
  | some _ => simpa using h
  | none =>
    simp only [Assoc.get?_insert]
    rw [if_neg]
    · exact h
    · rintro rfl
      rw [hk] at h
      exact absurd h (by simp)

theorem at?_collection (s : Store) (k : String) {id : Nat} {c : Collection}
    (h : s.at? id = some c) : (s.collection k).1.at? id = some c := by
  rw [collection]
  cases s.current.get? k with
  | some _ => exact h
  | none => exact (List.getElem?_append_left (List.getElem?_eq_some_iff.1 h).1).trans h

/-- What is there after asking for the collection of a workspace was there before, or is new. -/
theorem at?_of_collection (s : Store) (k : String) {id : Nat} {c : Collection}
    (h : (s.collection k).1.at? id = some c) :
    s.at? id = some c ∨ c.entries.entries = [] ∧ s.at? id = none := by
  rw [collection] at h
  cases hk : s.current.get? k with
  | some _ =>
    rw [hk] at h
    exact .inl h
  | none =>
    rw [hk] at h
    rcases Nat.lt_or_ge id s.collections.length with hlt | hge
    · exact .inl ((List.getElem?_append_left hlt).symm.trans h)
    · have hnew : [{ workspace := k : Collection }][id - s.collections.length]? = some c :=
        (List.getElem?_append_right hge).symm.trans h
      rw [List.getElem?_singleton] at hnew
      split at hnew
      · cases hnew
        exact .inr ⟨rfl, List.getElem?_eq_none hge⟩
      · exact absurd hnew (by simp)

theorem current_collection_of_ne (s : Store) {k k' : String} (h : k' ≠ k) :
    (s.collection k).1.current.get? k' = s.current.get? k' := by
  rw [collection]
  cases s.current.get? k with
  | some _ => rfl
  | none => exact (Assoc.get?_insert _ _ _ _).trans (if_neg h)

end Store

namespace State

/-- The state behind asking for the collection of a workspace. -/
def withCollection (s : State) (k : String) : State :=
  { s with store := (s.store.collection k).1 }

/-- Asking for the collection of a workspace changes no diagnostics: a new one is empty. -/
theorem filed_withCollection {s : State} (hs : s.Coherent) (k k' : String) :
    (s.withCollection k).filed k' = s.filed k' := by
  simp only [filed, withCollection, Store.collection]
  cases hk : s.store.current.get? k with
  | some id => rfl
  | none =>
    simp only [Store.find?, Assoc.get?_insert]
    by_cases hkk : k' = k
    · subst hkk
      simp [hk, Store.at?]
    · simp only [if_neg hkk]
      cases hk' : s.store.current.get? k' with
      | none => rfl
      | some id =>
        obtain ⟨c, hc, -, -⟩ := hs.current k' id hk'
        have hlt : id < s.store.collections.length := (List.getElem?_eq_some_iff.1 hc).1
        simp [Store.at?, List.getElem?_append_left hlt]

theorem coherent_withCollection {s : State} (hs : s.Coherent) (k : String) :
    (s.withCollection k).Coherent := by
  refine ⟨hs.registered, hs.unremoved, ?_, ?_⟩
  · intro k' n hn
    obtain ⟨id, hid⟩ := hs.listed k' n hn
    exact ⟨id, Store.current_collection_of_some s.store k hid⟩
  · intro k' id hid
    simp only [withCollection, Store.collection] at hid ⊢
    cases hk : s.store.current.get? k with
    | some id' =>
      rw [hk] at hid
      exact hs.current k' id hid
    | none =>
      rw [hk] at hid
      simp only [Assoc.get?_insert] at hid
      by_cases hkk : k' = k
      · subst hkk
        simp only [if_true, Option.some.injEq] at hid
        subst hid
        exact ⟨{ workspace := k' }, by simp [Store.at?], rfl, rfl⟩
      · rw [if_neg hkk] at hid
        obtain ⟨c, hc, hw, hd⟩ := hs.current k' id hid
        have hlt : id < s.store.collections.length := (List.getElem?_eq_some_iff.1 hc).1
        exact ⟨c, by simpa [Store.at?, List.getElem?_append_left hlt] using hc, hw, hd⟩

theorem onward_withCollection {s : State} (hs : s.Coherent) (k : String) :
    s.Onward (s.withCollection k) :=
  ⟨⟨Nat.le_refl _, fun _ _ => rfl, fun _ _ h => h, fun _ _ _ h => h,
    fun _ _ _ h => Store.current_collection_of_some s.store k h,
    fun _ _ _ _ h => Store.current_collection_of_some s.store k h,
    fun _ c h => ⟨c, Store.at?_collection s.store k h, rfl⟩⟩, coherent_withCollection hs k⟩

theorem unfiled_withCollection (s : State) (k : String) : s.Unfiled (s.withCollection k) :=
  fun _ _ hc => (Store.at?_of_collection s.store k hc).imp_right fun h => ⟨h.1, .inr h.2⟩

/-- Only the workspace that was asked for can have got a collection. -/
theorem stray_of_withCollection {s : State} {k k' : String} (h : (s.withCollection k).Stray k') :
    s.Stray k' ∨ k' = k := by
  by_cases hk : k' = k
  · exact .inr hk
  · obtain ⟨hregistry, hcurrent⟩ := h
    rw [withCollection, Store.current_collection_of_ne s.store hk] at hcurrent
    exact .inl ⟨hregistry, hcurrent⟩

/-- Asking for the collection of a workspace that is registered. -/
theorem gentle_withCollection {s : State} (hs : s.Coherent) {k : String}
    (hk : s.registry.get? k ≠ none) : s.Gentle (s.withCollection k) := by
  refine ⟨onward_withCollection hs k, fun _ _ h => h, fun k' _ => filed_withCollection hs k k',
    unfiled_withCollection s k, fun k' hk' => ?_⟩
  rcases stray_of_withCollection hk' with hstray | rfl
  · exact hstray
  · exact absurd hk'.1 hk

/-! ## Registrations -/

@[simp] theorem registrations_setRegistration (s : State) (n : Nat)
    (f : Registration → Registration) :
    (s.setRegistration n f).registrations = s.registrations.modify n f := rfl

theorem registration_setRegistration (s : State) (n m : Nat) (f : Registration → Registration)
    (h : m < s.registrations.length) :
    (s.setRegistration n f).registration m =
      if m = n then f (s.registration m) else s.registration m := by
  simp only [registration, registrations_setRegistration, List.getElem?_modify,
    List.getElem?_eq_getElem h, Option.map_eq_map, Option.map_some, Option.getD_some]
  by_cases hmn : n = m
  · simp [hmn]
  · simp [hmn, Ne.symm hmn]

/-- New settings for a registration. -/
theorem gentle_settings {s : State} (hs : s.Coherent) (n : Nat) (settings : Settings) :
    s.Gentle (s.setRegistration n fun r =>
      { r with workspace := { r.workspace with settings } }) := by
  have hlen : ∀ f, (s.setRegistration n f).registrations.length = s.registrations.length := by
    simp
  have hkey : ∀ m < s.registrations.length, (s.setRegistration n fun r =>
      { r with workspace := { r.workspace with settings } }).key m = s.key m := by
    intro m hm
    simp only [key, workspace, registration_setRegistration s n m _ hm]
    split <;> rfl
  have hremoved : ∀ m < s.registrations.length, (s.setRegistration n fun r =>
      { r with workspace := { r.workspace with settings } }).isRemoved m = s.isRemoved m := by
    intro m hm
    simp only [isRemoved, registration_setRegistration s n m _ hm]
    split <;> rfl
  refine ⟨⟨⟨Nat.le_of_eq (hlen _).symm, hkey, fun m hm h => by rwa [hremoved m hm],
    fun _ _ _ h => h, fun _ _ _ h => h, fun _ _ _ _ h => h, fun _ c h => ⟨c, h, rfl⟩⟩,
    ⟨?_, ?_, hs.listed, hs.current⟩⟩, fun _ _ h => h, fun _ _ => rfl, .refl s, fun _ h => h⟩
  · intro k m hm
    obtain ⟨hlt, hk, hr⟩ := hs.registered k m hm
    exact ⟨by rwa [hlen], by rwa [hkey m hlt], by rwa [hremoved m hlt]⟩
  · intro m hm hr
    rw [hlen] at hm
    rw [hremoved m hm] at hr
    rw [hkey m hm]
    exact hs.unremoved m hm hr

/-- The state behind a registration. -/
def withRegistration (s : State) (ws : Workspace) : State :=
  { s with
    registrations := s.registrations ++ [⟨ws, false⟩]
    registry := s.registry.insert ws.key s.registrations.length
    store := (s.store.collection ws.key).1 }

theorem registration_withRegistration (s : State) (ws : Workspace) {m : Nat}
    (h : m < s.registrations.length) :
    (s.withRegistration ws).registration m = s.registration m := by
  simp [registration, withRegistration, List.getElem?_append_left h]

theorem registration_withRegistration_self (s : State) (ws : Workspace) :
    (s.withRegistration ws).registration s.registrations.length = ⟨ws, false⟩ := by
  simp [registration, withRegistration]

/-- Registering a root that is not registered. -/
theorem gentle_withRegistration {s : State} (hs : s.Coherent) (ws : Workspace)
    (hnew : s.registry.get? ws.key = none) : s.Gentle (s.withRegistration ws) := by
  have hlen : (s.withRegistration ws).registrations.length = s.registrations.length + 1 := by
    simp [withRegistration]
  have hkey : ∀ m < s.registrations.length, (s.withRegistration ws).key m = s.key m := by
    intro m hm
    rw [key, workspace, registration_withRegistration s ws hm]
    rfl
  have hremoved : ∀ m < s.registrations.length,
      (s.withRegistration ws).isRemoved m = s.isRemoved m := by
    intro m hm
    rw [isRemoved, registration_withRegistration s ws hm]
    rfl
  have hself := registration_withRegistration_self s ws
  have hcollection := coherent_withCollection hs ws.key
  have hregistry : ∀ k, (s.withRegistration ws).registry.get? k =
      if k = ws.key then some s.registrations.length else s.registry.get? k :=
    fun k => Assoc.get?_insert s.registry ws.key k _
  refine ⟨⟨⟨by omega, hkey, fun m hm h => by rwa [hremoved m hm], fun _ _ _ h => h,
    fun _ _ _ h => Store.current_collection_of_some s.store ws.key h,
    fun _ _ _ _ h => Store.current_collection_of_some s.store ws.key h,
    fun _ c h => ⟨c, Store.at?_collection s.store ws.key h, rfl⟩⟩, ⟨?_, ?_, ?_,
    hcollection.current⟩⟩, fun _ _ h => h, fun k _ => filed_withCollection hs ws.key k,
    unfiled_withCollection s ws.key, fun k hk => ?_⟩
  · intro k m hm
    rw [hregistry] at hm
    by_cases hk : k = ws.key
    · rw [if_pos hk] at hm
      obtain rfl : s.registrations.length = m := by simpa using hm
      exact ⟨by omega, by simp [key, workspace, hself, hk], by simp [isRemoved, hself]⟩
    · rw [if_neg hk] at hm
      obtain ⟨hlt, hkm, hr⟩ := hs.registered k m hm
      exact ⟨by omega, by rwa [hkey m hlt], by rwa [hremoved m hlt]⟩
  · intro m hm hr
    rcases Nat.lt_or_ge m s.registrations.length with hlt | hge
    · rw [hremoved m hlt] at hr
      have hm' := hs.unremoved m hlt hr
      rw [hkey m hlt, hregistry, if_neg, hm']
      rintro hk
      rw [hk, hnew] at hm'
      exact absurd hm' (by simp)
    · obtain rfl : m = s.registrations.length := by omega
      have hk : (s.withRegistration ws).key s.registrations.length = ws.key := by
        simp [key, workspace, hself]
      rw [hk, hregistry, if_pos rfl]
  · intro k m hm
    rw [hregistry] at hm
    by_cases hk : k = ws.key
    · subst hk
      exact ⟨_, Store.current_collection s.store ws.key⟩
    · rw [if_neg hk] at hm
      exact hcollection.listed k m hm
  · have hregistered := hk.1
    rw [hregistry] at hregistered
    split at hregistered
    · exact absurd hregistered (by simp)
    · next hne =>
      refine ⟨hregistered, ?_⟩
      rw [← Store.current_collection_of_ne s.store hne]
      exact hk.2

/-! ## Removals -/

/-- The state behind the first part of a removal: the registration is marked and the collection
of the workspace is disposed of. -/
def withoutRegistration (s : State) (k : String) (n : Nat) : State :=
  let s := { s with registry := s.registry.erase k }
  let s := s.setRegistration n fun r => { r with removed := true }
  s.react (s.store.dispose k).1 (s.store.dispose k).2

theorem current_dispose (s : Store) (k k' : String) :
    (s.dispose k).1.current.get? k' = if k' = k then none else s.current.get? k' := by
  rw [Store.dispose]
  cases hk : s.current.get? k with
  | none =>
    by_cases hkk : k' = k
    · simp [hkk, hk]
    · simp [hkk]
  | some id =>
    simp only [Store.disposeAt, Store.at?]
    split <;> exact Assoc.get?_erase s.current k k'

/-- Disposing of one collection leaves the others alone. -/
theorem at?_dispose {s : State} (hs : s.Coherent) {k k' : String} {id : Nat} (hkk : k' ≠ k)
    (h : s.store.current.get? k' = some id) : (s.store.dispose k).1.at? id = s.store.at? id := by
  rw [Store.dispose]
  cases hk : s.store.current.get? k with
  | none => rfl
  | some id' =>
    have hne : id' ≠ id := by
      rintro rfl
      exact hkk (hs.current_injective h hk)
    simp only [Store.disposeAt, Store.at?]
    split
    · rfl
    · exact List.getElem?_set_ne hne

theorem workspace_dispose (s : Store) (k : String) {id : Nat} {c : Collection}
    (h : s.at? id = some c) :
    ∃ c', (s.dispose k).1.at? id = some c' ∧ c'.workspace = c.workspace := by
  rw [Store.dispose]
  cases s.current.get? k with
  | none => exact ⟨c, h, rfl⟩
  | some id' =>
    simp only [Store.disposeAt, Store.at?] at h ⊢
    split
    · exact ⟨c, h, rfl⟩
    · next c' hc' =>
      by_cases hid : id' = id
      · subst hid
        obtain rfl : c = c' := Option.some.inj (h.symm.trans hc')
        refine ⟨c.dispose.1, List.getElem?_set_self (List.getElem?_eq_some_iff.1 h).1, ?_⟩
        rw [Collection.dispose]
        split <;> rfl
      · exact ⟨c, (List.getElem?_set_ne hid).trans h, rfl⟩

/-- What is there after disposing of a collection was there before, or has been disposed of. -/
theorem at?_of_dispose (s : Store) (k : String) {id : Nat} {c : Collection}
    (h : (s.dispose k).1.at? id = some c) :
    s.at? id = some c ∨ c.entries.entries = [] ∧ c.disposed = true := by
  rw [Store.dispose] at h
  cases hk : s.current.get? k with
  | none =>
    rw [hk] at h
    exact .inl h
  | some id' =>
    rw [hk] at h
    simp only [Store.disposeAt, Store.at?] at h ⊢
    split at h
    · exact .inl h
    · next c' hc' =>
      by_cases hid : id' = id
      · subst hid
        have hset := List.getElem?_set_self (a := c'.dispose.1) (List.getElem?_eq_some_iff.1 hc').1
        obtain rfl : c'.dispose.1 = c := Option.some.inj (hset.symm.trans h)
        rw [Collection.dispose]
        split
        · exact .inl hc'
        · exact .inr ⟨rfl, rfl⟩
      · exact .inl ((List.getElem?_set_ne hid).symm.trans h)

theorem isRemoved_withoutRegistration (s : State) (k : String) (n : Nat) {m : Nat}
    (h : m < s.registrations.length) :
    (s.withoutRegistration k n).isRemoved m = (decide (m = n) || s.isRemoved m) := by
  have := registration_setRegistration { s with registry := s.registry.erase k } n m
    (fun r => { r with removed := true }) h
  simp only [isRemoved, withoutRegistration, react, registration] at this ⊢
  rw [this]
  by_cases hmn : m = n <;> simp [hmn]

theorem key_withoutRegistration (s : State) (k : String) (n : Nat) {m : Nat}
    (h : m < s.registrations.length) : (s.withoutRegistration k n).key m = s.key m := by
  have := registration_setRegistration { s with registry := s.registry.erase k } n m
    (fun r => { r with removed := true }) h
  simp only [key, workspace, withoutRegistration, react, registration] at this ⊢
  rw [this]
  by_cases hmn : m = n <;> simp [hmn]

/-- Removing a registration is gentle for all other workspaces. -/
theorem gentle_withoutRegistration {s : State} (hs : s.Coherent) {k : String} {n : Nat}
    (hn : s.registry.get? k = some n) : s.Gentle (s.withoutRegistration k n) := by
  obtain ⟨hlt, hkey, -⟩ := hs.registered k n hn
  have hlen : (s.withoutRegistration k n).registrations.length = s.registrations.length := by
    simp [withoutRegistration, react]
  have hdropped : (s.withoutRegistration k n).Dropped k := by
    refine ⟨n, by rwa [hlen], ?_, by rwa [key_withoutRegistration s k n hlt]⟩
    simp [isRemoved_withoutRegistration s k n hlt]
  have hcurrent : ∀ k', (s.withoutRegistration k n).store.current.get? k' =
      if k' = k then none else s.store.current.get? k' := current_dispose s.store k
  have hregistry : ∀ k', (s.withoutRegistration k n).registry.get? k' =
      if k' = k then none else s.registry.get? k' := Assoc.get?_erase s.registry k
  have hat : ∀ k' id, k' ≠ k → s.store.current.get? k' = some id →
      (s.withoutRegistration k n).store.at? id = s.store.at? id :=
    fun k' id hkk hid => at?_dispose hs hkk hid
  -- a registration that has not been removed is that of another workspace
  have hother : ∀ m < s.registrations.length, (s.withoutRegistration k n).isRemoved m = false →
      s.registry.get? (s.key m) = some m ∧ s.key m ≠ k := by
    intro m hm hr
    rw [isRemoved_withoutRegistration s k n hm] at hr
    simp only [Bool.or_eq_false_iff, decide_eq_false_iff_not] at hr
    have hm' := hs.unremoved m hm hr.2
    refine ⟨hm', fun hk => ?_⟩
    rw [hk, hn] at hm'
    exact hr.1 (by simpa using hm'.symm)
  refine ⟨⟨⟨Nat.le_of_eq hlen.symm, fun m hm => key_withoutRegistration s k n hm, ?_,
    fun _ _ _ h => h, ?_, ?_, fun id c hc => workspace_dispose s.store k hc⟩, ⟨?_, ?_, ?_, ?_⟩⟩,
    fun _ _ h => h, ?_, ?_, ?_⟩
  · intro m hm hr
    simp [isRemoved_withoutRegistration s k n hm, hr]
  · intro k' id hk' hid
    rw [hcurrent, if_neg, hid]
    rintro rfl
    exact hk' hdropped
  · intro m hm hr id hid
    rw [hcurrent, if_neg (hother m hm hr).2, hid]
  · intro k' m hm
    rw [hregistry] at hm
    split at hm
    · exact absurd hm (by simp)
    · next hkk =>
      obtain ⟨hlt', hkm, hr⟩ := hs.registered k' m hm
      refine ⟨by rwa [hlen], by rwa [key_withoutRegistration s k n hlt'], ?_⟩
      have hmn : m ≠ n := by
        rintro rfl
        exact hkk (hkm.symm.trans hkey)
      simp [isRemoved_withoutRegistration s k n hlt', hmn, hr]
  · intro m hm hr
    rw [hlen] at hm
    obtain ⟨hm', hk⟩ := hother m hm hr
    rw [key_withoutRegistration s k n hm, hregistry, if_neg hk, hm']
  · intro k' m hm
    rw [hregistry] at hm
    split at hm
    · exact absurd hm (by simp)
    · next hkk =>
      obtain ⟨id, hid⟩ := hs.listed k' m hm
      exact ⟨id, by rw [hcurrent, if_neg hkk, hid]⟩
  · intro k' id hid
    rw [hcurrent] at hid
    split at hid
    · exact absurd hid (by simp)
    · next hkk =>
      obtain ⟨c, hc, hw, hd⟩ := hs.current k' id hid
      exact ⟨c, by rw [hat k' id hkk hid, hc], hw, hd⟩
  · intro k' hk'
    have hkk : k' ≠ k := by
      rintro rfl
      exact hk' hdropped
    simp only [filed, Store.find?, hcurrent, if_neg hkk]
    cases hid : s.store.current.get? k' with
    | none => rfl
    | some id =>
      simp only [Option.bind_eq_bind, Option.bind_some]
      rw [hat k' id hkk hid]
  · intro id c hc
    exact (at?_of_dispose s.store k hc).imp_right fun h => ⟨h.1, .inl h.2⟩
  · rintro k' ⟨hregistered, hlisted⟩
    rw [hcurrent] at hlisted
    split at hlisted
    · exact absurd rfl hlisted
    · next hkk => exact ⟨by rwa [hregistry, if_neg hkk] at hregistered, hlisted⟩

/-- Giving up the lock of a workspace of which a registration has been removed. -/
theorem onward_erase_lock {s : State} (hs : s.Coherent) {k : String} (hk : s.Dropped k) :
    s.Onward { s with lockOf := s.lockOf.erase k } := by
  refine ⟨⟨Nat.le_refl _, fun _ _ => rfl, fun _ _ h => h, ?_, fun _ _ _ h => h,
    fun _ _ _ _ h => h, fun _ c h => ⟨c, h, rfl⟩⟩,
    ⟨hs.registered, hs.unremoved, hs.listed, hs.current⟩⟩
  intro k' l hk' hl
  simp only [Assoc.get?_erase]
  rw [if_neg, hl]
  rintro rfl
  exact hk' hk

/-! ## Changes of diagnostics -/

/-- The state behind a change of a collection. -/
def withChange (s : State) (id : Nat) (f : Collection → Collection × Delta) : State :=
  s.react (s.store.change id f).1 (s.store.change id f).2.2

theorem store_withChange {s : State} {id : Nat} {c : Collection} (hc : s.store.at? id = some c)
    (f : Collection → Collection × Delta) :
    (s.withChange id f).store =
      { s.store with collections := s.store.collections.set id (f c).1 } := by
  simp only [withChange, react, Store.change, hc]

theorem at?_withChange_self {s : State} {id : Nat} {c : Collection} (hc : s.store.at? id = some c)
    (f : Collection → Collection × Delta) :
    (s.withChange id f).store.at? id = some (f c).1 := by
  rw [store_withChange hc]
  exact List.getElem?_set_self (List.getElem?_eq_some_iff.1 hc).1

theorem at?_withChange_of_ne {s : State} {id id' : Nat} {c : Collection}
    (hc : s.store.at? id = some c) (f : Collection → Collection × Delta) (hne : id' ≠ id) :
    (s.withChange id f).store.at? id' = s.store.at? id' := by
  rw [store_withChange hc]
  exact List.getElem?_set_ne (Ne.symm hne)

theorem current_withChange {s : State} {id : Nat} {c : Collection} (hc : s.store.at? id = some c)
    (f : Collection → Collection × Delta) :
    (s.withChange id f).store.current = s.store.current := by
  rw [store_withChange hc]

/-- Changing the entries of a collection of a workspace, which need not be the current one. -/
theorem onward_withChange {s : State} (hs : s.Coherent) {id : Nat} {c : Collection}
    (hc : s.store.at? id = some c) {f : Collection → Collection × Delta}
    (hf : ∀ c, (f c).1.workspace = c.workspace ∧ (f c).1.disposed = c.disposed) :
    s.Onward (s.withChange id f) ∧
      (s.store.current.get? c.workspace = some id →
        (s.withChange id f).filed c.workspace = (f c).1.entries.entries) ∧
      ∀ k, k ≠ c.workspace → (s.withChange id f).filed k = s.filed k := by
  have hcurrent : ∀ k, (s.withChange id f).store.current.get? k = s.store.current.get? k := by
    intro k
    rw [current_withChange hc]
  have hself := at?_withChange_self hc f
  have hother : ∀ id', id' ≠ id → (s.withChange id f).store.at? id' = s.store.at? id' :=
    fun id' hne => at?_withChange_of_ne hc f hne
  have hcollection : ∀ id' c', s.store.at? id' = some c' →
      ∃ c'', (s.withChange id f).store.at? id' = some c'' ∧ c''.workspace = c'.workspace ∧
        c''.disposed = c'.disposed := by
    intro id' c' hc'
    by_cases hne : id' = id
    · subst hne
      obtain rfl : c = c' := Option.some.inj (hc.symm.trans hc')
      exact ⟨_, hself, hf c⟩
    · exact ⟨c', by rw [hother id' hne, hc'], rfl, rfl⟩
  refine ⟨⟨⟨Nat.le_refl _, fun _ _ => rfl, fun _ _ h => h, fun _ _ _ h => h,
    fun k id' _ h => by rwa [hcurrent], fun m _ _ id' h => by rwa [hcurrent],
    fun id' c' hc' => ?_⟩,
    ⟨hs.registered, hs.unremoved, ?_, ?_⟩⟩, ?_, ?_⟩
  · obtain ⟨c'', hc'', hw, -⟩ := hcollection id' c' hc'
    exact ⟨c'', hc'', hw⟩
  · intro k m hm
    obtain ⟨id', hid'⟩ := hs.listed k m hm
    exact ⟨id', by rwa [hcurrent]⟩
  · intro k id' hid'
    rw [hcurrent] at hid'
    obtain ⟨c', hc', hw', hd'⟩ := hs.current k id' hid'
    obtain ⟨c'', hc'', hw, hd⟩ := hcollection id' c' hc'
    exact ⟨c'', hc'', hw.trans hw', hd.trans hd'⟩
  · intro hid
    simp [filed, Store.find?, hcurrent, hid, hself]
  · intro k hk
    simp only [filed, Store.find?, hcurrent]
    cases hid' : s.store.current.get? k with
    | none => rfl
    | some id' =>
      have hne : id' ≠ id := by
        rintro rfl
        obtain ⟨c', hc', hw', -⟩ := hs.current k id' hid'
        obtain rfl : c = c' := Option.some.inj (hc.symm.trans hc')
        exact hk hw'.symm
      simp only [Option.bind_eq_bind, Option.bind_some, hother id' hne]

end State

end Overseer
