import Overseer.Proofs.Mirror

set_option autoImplicit false

/-! # Collections on two levels

A collection keeps files and fragments side by side under one kind of key. To whoever uses it,
it is two maps: one from paths to diagnostics, and one from documents and then indexes to
diagnostics (`Levels`). Here every operation is defined on the two maps, and whatever is done to
a collection from the beginning, its entries are those of the two maps after the same operations
(`collection_refines_levels`).

In the two maps no list can be empty, so none ever is in a collection. A collection that has
been disposed of has no maps any more (`Shelf.cleared`). -/

namespace Overseer

/-- Diagnostics that are filed: there is at least one. -/
abbrev Filed := { ds : List Diagnostic // ds ≠ [] }

/-- A list of diagnostics to be filed. The empty list is not filed. -/
def Filed.of? (ds : List Diagnostic) : Option Filed :=
  if h : ds ≠ [] then some ⟨ds, h⟩ else none

namespace Assoc

variable {α : Type} [DecidableEq α]

/-- Enter what there is to be filed under a key, or drop the key. -/
def put (m : Assoc α Filed) (k : α) (ds : List Diagnostic) : Assoc α Filed :=
  match Filed.of? ds with
  | some filed => m.insert k filed
  | none => m.erase k

/-- The entries that can be filed. -/
def filed (m : Assoc α (List Diagnostic)) : Assoc α Filed :=
  ofList (m.entries.filterMap fun e => (Filed.of? e.2).map fun f => (e.1, f))

theorem get?_put (m : Assoc α Filed) (k a : α) (ds : List Diagnostic) :
    (m.put k ds).get? a = if a = k then Filed.of? ds else m.get? a := by
  rw [put]
  cases h : Filed.of? ds with
  | none => exact get?_erase m k a
  | some filed => exact get?_insert m k a filed

theorem get?_filed (m : Assoc α (List Diagnostic)) (a : α) :
    m.filed.get? a = (m.get? a).bind Filed.of? := by
  have hkeys : ((m.entries.filterMap fun e =>
      (Filed.of? e.2).map fun f => (e.1, f)).map Prod.fst).Nodup := by
    refine m.nodup.sublist ?_
    rw [List.map_filterMap]
    induction m.entries with
    | nil => exact List.Sublist.refl _
    | cons e rest ih =>
      cases h : Filed.of? e.2 with
      | none => simpa [h] using ih.trans (List.sublist_cons_self _ _)
      | some f => simpa [h] using ih
  ext f
  rw [filed, get?_ofList_eq_some_iff _ hkeys, List.mem_filterMap]
  simp only [Option.bind_eq_some_iff, Option.map_eq_some_iff, Prod.mk.injEq]
  constructor
  · rintro ⟨e, he, f', hf, rfl, rfl⟩
    exact ⟨e.2, (get?_eq_some_iff m e.1 e.2).2 he, hf⟩
  · rintro ⟨ds, hds, hf⟩
    exact ⟨(a, ds), (get?_eq_some_iff m a ds).1 hds, f, hf, rfl, rfl⟩

end Assoc

/-! ## Two maps -/

/-- Diagnostics by path, and diagnostics by document and index. -/
structure Levels where
  files : Assoc String Filed := Assoc.empty
  fragments : Assoc String (Assoc Int Filed) := Assoc.empty

namespace Levels

variable (l : Levels)

/-- The fragments of a document. -/
def cells (document : String) : Assoc Int Filed := (l.fragments.get? document).getD Assoc.empty

/-- What is filed under a key. -/
def get? : DocumentKey → Option Filed
  | .file path => l.files.get? path
  | .fragment document index => (l.cells document).get? index

/-- The number of diagnostics in both maps. -/
def total : Nat :=
  (l.files.values.map fun f => f.1.length).sum +
    (l.fragments.values.map fun cells => (cells.values.map fun f => f.1.length).sum).sum

/-- Set one entry, or delete it if there is nothing to file. -/
def replace (ds : List Diagnostic) : DocumentKey → Levels
  | .file path => { l with files := l.files.put path ds }
  | .fragment document index =>
    { l with fragments := l.fragments.insert document ((l.cells document).put index ds) }

/-- The files are those of a map, less the empty ones. -/
def replaceFiles (files : Assoc String (List Diagnostic)) : Levels :=
  { l with files := files.filed }

/-- The fragments of one document are those of a map, less the empty ones. -/
def replaceFragments (document : String) (fragments : Assoc Int (List Diagnostic)) : Levels :=
  { l with fragments := l.fragments.insert document fragments.filed }

/-- Delete all files, one fragment, or one file; if there is no such file, the fragments of the
document of that name. -/
def clear : Collection.Scope → Levels
  | .files => { l with files := Assoc.empty }
  | .fragment document index =>
    { l with fragments := l.fragments.insert document ((l.cells document).erase index) }
  | .document name =>
    if (l.files.get? name).isSome then { l with files := l.files.erase name }
    else { l with fragments := l.fragments.erase name }

variable {l}

theorem cells_insert (document d : String) (cells : Assoc Int Filed) :
    Levels.cells { l with fragments := l.fragments.insert document cells } d =
      if d = document then cells else l.cells d := by
  simp only [Levels.cells, Assoc.get?_insert]
  split <;> rfl

theorem cells_erase (document d : String) :
    Levels.cells { l with fragments := l.fragments.erase document } d =
      if d = document then Assoc.empty else l.cells d := by
  simp only [Levels.cells, Assoc.get?_erase]
  split <;> rfl

theorem get?_replace (ds : List Diagnostic) (key k : DocumentKey) :
    (l.replace ds key).get? k = if k = key then Filed.of? ds else l.get? k := by
  cases key with
  | file path =>
    cases k with
    | file p => simp [replace, get?, Assoc.get?_put]
    | fragment d i => simp [replace, get?, cells]
  | fragment document index =>
    cases k with
    | file p => simp [replace, get?]
    | fragment d i =>
      simp only [replace, get?, cells_insert, DocumentKey.fragment.injEq]
      by_cases hd : d = document
      · simp [hd, Assoc.get?_put]
      · simp [hd]

theorem get?_replaceFiles (files : Assoc String (List Diagnostic)) (k : DocumentKey) :
    (l.replaceFiles files).get? k =
      match k with
      | .file path => (files.get? path).bind Filed.of?
      | .fragment _ _ => l.get? k := by
  cases k with
  | file path => exact Assoc.get?_filed files path
  | fragment d i => rfl

theorem get?_replaceFragments (document : String) (fragments : Assoc Int (List Diagnostic))
    (k : DocumentKey) :
    (l.replaceFragments document fragments).get? k =
      match k with
      | .file _ => l.get? k
      | .fragment d i => if d = document then (fragments.get? i).bind Filed.of? else l.get? k := by
  cases k with
  | file path => rfl
  | fragment d i =>
    simp only [replaceFragments, get?, cells_insert]
    split
    · exact Assoc.get?_filed fragments i
    · rfl

/-- The keys that clearing a scope deletes. -/
def Clears (l : Levels) : Collection.Scope → DocumentKey → Bool
  | .files, k => k.isFile
  | .fragment document index, k => k = .fragment document index
  | .document name, k =>
    if (l.files.get? name).isSome then k = .file name else k.isFragmentOf name

theorem get?_clear (scope : Collection.Scope) (k : DocumentKey) :
    (l.clear scope).get? k = if l.Clears scope k then none else l.get? k := by
  cases scope with
  | files => cases k <;> simp [clear, Clears, get?, DocumentKey.isFile, cells]
  | fragment document index =>
    cases k with
    | file p => simp [clear, Clears, get?]
    | fragment d i =>
      simp only [clear, Clears, get?, cells_insert, decide_eq_true_eq,
        DocumentKey.fragment.injEq]
      by_cases hd : d = document
      · simp [hd, Assoc.get?_erase]
      · simp [hd]
  | document name =>
    simp only [clear, Clears]
    by_cases hf : (l.files.get? name).isSome
    · simp only [hf, if_true]
      cases k <;> simp [get?, Assoc.get?_erase, cells]
    · simp only [hf, Bool.false_eq_true, if_false]
      cases k with
      | file p => simp [get?, DocumentKey.isFragmentOf]
      | fragment d i =>
        simp only [get?, cells_erase, DocumentKey.isFragmentOf, beq_iff_eq]
        by_cases hd : d = name <;> simp [hd]

/-! ## Counting -/

/-- The entries of both maps, one after the other. -/
def flat (l : Levels) : List (DocumentKey × List Diagnostic) :=
  (l.files.entries.map fun e => (.file e.1, e.2.1)) ++
    l.fragments.entries.flatMap fun d => d.2.entries.map fun e => (.fragment d.1 e.1, e.2.1)

theorem mem_flat (k : DocumentKey) (ds : List Diagnostic) :
    (k, ds) ∈ l.flat ↔ (l.get? k).map Subtype.val = some ds := by
  simp only [flat, List.mem_append, List.mem_map, List.mem_flatMap, Prod.mk.injEq,
    Option.map_eq_some_iff]
  cases k with
  | file path =>
    simp only [get?, Assoc.get?_eq_some_iff]
    constructor
    · rintro (⟨e, he, hk, rfl⟩ | ⟨d, -, e, -, hk, -⟩)
      · obtain rfl : e.1 = path := by simpa using hk
        exact ⟨e.2, he, rfl⟩
      · exact absurd hk (by simp)
    · rintro ⟨f, hf, rfl⟩
      exact .inl ⟨(path, f), hf, rfl, rfl⟩
  | fragment document index =>
    simp only [get?, Assoc.get?_eq_some_iff]
    constructor
    · rintro (⟨e, -, hk, -⟩ | ⟨d, hd, e, he, hk, rfl⟩)
      · exact absurd hk (by simp)
      · obtain ⟨rfl, rfl⟩ : d.1 = document ∧ e.1 = index := by simpa using hk
        have hcells : l.cells d.1 = d.2 := by
          rw [cells, (Assoc.get?_eq_some_iff _ _ _).2 hd, Option.getD_some]
        exact ⟨e.2, by rw [hcells]; exact he, rfl⟩
    · rintro ⟨f, hf, rfl⟩
      cases hd : l.fragments.get? document with
      | none => simp [cells, hd] at hf
      | some m =>
        rw [cells, hd, Option.getD_some] at hf
        exact .inr ⟨(document, m), (Assoc.get?_eq_some_iff _ _ _).1 hd, (index, f), hf, rfl, rfl⟩

theorem nodup_flat (l : Levels) : l.flat.Nodup := by
  rw [flat, List.nodup_append]
  refine ⟨?_, ?_, ?_⟩
  · refine l.files.nodup_entries.map fun a b hab => ?_
    simp only [Prod.mk.injEq, DocumentKey.file.injEq] at hab
    exact Prod.ext hab.1 (Subtype.ext hab.2)
  · rw [List.nodup_flatMap]
    constructor
    · intro d _
      refine d.2.nodup_entries.map fun a b hab => ?_
      simp only [Prod.mk.injEq, DocumentKey.fragment.injEq, true_and] at hab
      exact Prod.ext hab.1 (Subtype.ext hab.2)
    · -- the documents are different, so their fragments are
      have hkeys := l.fragments.nodup
      rw [List.nodup_iff_pairwise_ne, List.pairwise_map] at hkeys
      refine hkeys.imp fun {a b} hne x hx hx' => ?_
      obtain ⟨e, -, rfl⟩ := List.mem_map.1 hx
      obtain ⟨e', -, heq⟩ := List.mem_map.1 hx'
      simp only [Prod.mk.injEq, DocumentKey.fragment.injEq] at heq
      exact hne heq.1.1.symm
  · rintro a ha b hb rfl
    obtain ⟨e, -, rfl⟩ := List.mem_map.1 ha
    obtain ⟨d, -, hd⟩ := List.mem_flatMap.1 hb
    obtain ⟨e', -, heq⟩ := List.mem_map.1 hd
    simp at heq

theorem sum_flat (l : Levels) : (l.flat.map fun e => e.2.length).sum = l.total := by
  rw [flat, total, List.map_append, List.sum_append, List.map_map, List.map_flatMap,
    List.flatMap_def, List.sum_flatten, List.map_map]
  simp only [Assoc.values, List.map_map]
  rfl

end Levels

/-! ## Disposal -/

/-- The two maps for as long as they are in use. -/
inductive Shelf where
  | inUse (levels : Levels)
  | cleared

/-- What can be done to a collection. -/
inductive Collection.Operation where
  | write (w : Collection.Write)
  | dispose

namespace Shelf

/-- What is filed under a key. -/
def get? : Shelf → DocumentKey → Option Filed
  | inUse l, k => l.get? k
  | cleared, _ => none

/-- The number of diagnostics. -/
def total : Shelf → Nat
  | inUse l => l.total
  | cleared => 0

/-- The two maps after an operation. -/
def perform : Shelf → Collection.Operation → Shelf
  | cleared, _ => cleared
  | inUse _, .dispose => cleared
  | inUse l, .write (.replace key ds) => inUse (l.replace ds key)
  | inUse l, .write (.replaceFiles files) => inUse (l.replaceFiles files)
  | inUse l, .write (.replaceFragments document fragments) =>
    inUse (l.replaceFragments document fragments)
  | inUse l, .write (.clear scope) => inUse (l.clear scope)

end Shelf

namespace Collection

/-- The collection and the delta after an operation. -/
def perform (c : Collection) : Operation → Collection × Delta
  | .write w => c.write w
  | .dispose => c.dispose

/-- What a collection has under a key after a change. -/
theorem get?_apply {c : Collection} (hd : c.disposed = false) (remove : List DocumentKey)
    (install : Entries) (k : DocumentKey) :
    (c.apply remove install).1.entries.get? k =
      match install.get? k with
      | some ds => (Filed.of? ds).map Subtype.val
      | none => if k ∈ remove then none else c.entries.get? k := by
  have herase : ∀ (ks : List DocumentKey) (m : Entries),
      (ks.foldl Assoc.erase m).get? k = if k ∈ ks then none else m.get? k := by
    intro ks
    induction ks with
    | nil => intro m; simp
    | cons a ks ih =>
      intro m
      rw [List.foldl_cons, ih, Assoc.get?_erase]
      by_cases ha : k = a <;> simp [ha]
  have hfile : ∀ (new : List (DocumentKey × List Diagnostic)) (m : Entries)
      (ds : List Diagnostic), (new.map Prod.fst).Nodup → (k, ds) ∈ new →
      (new.foldl (fun m e => Entries.file m e.1 e.2) m).get? k =
        (Filed.of? ds).map Subtype.val := by
    intro new
    induction new with
    | nil => simp
    | cons e new ih =>
      intro m ds hnodup hmem
      rw [List.map_cons, List.nodup_cons] at hnodup
      rcases List.mem_cons.1 hmem with rfl | hmem
      · -- later entries have other keys
        have hlater := get?_exchange (Entries.file m k ds) [] ⟨new, hnodup.2⟩ (k := k) (by simp)
          hnodup.1
        refine hlater.trans ?_
        rw [Entries.get?_file, if_pos rfl, Filed.of?]
        cases ds <;> simp
      · exact ih _ ds hnodup.2 hmem
  simp only [apply, hd, Bool.false_eq_true, if_false]
  cases h : install.get? k with
  | none =>
    rw [Assoc.get?_eq_none_iff] at h
    have hrest := get?_exchange (remove.foldl Assoc.erase c.entries) [] install (k := k) (by simp) h
    exact hrest.trans (herase remove c.entries)
  | some ds => exact hfile _ _ ds install.nodup ((Assoc.get?_eq_some_iff _ _ _).1 h)

/-- A collection has what the two maps have. -/
structure Refines (c : Collection) (s : Shelf) : Prop where
  get? : ∀ k, c.entries.get? k = (s.get? k).map Subtype.val
  disposed : c.disposed = true ↔ s = .cleared

variable {c : Collection} {l : Levels} {s : Shelf}

theorem Refines.ne_nil (h : c.Refines s) {k : DocumentKey} {ds : List Diagnostic}
    (hds : c.entries.get? k = some ds) : ds ≠ [] := by
  rw [h.get?, Option.map_eq_some_iff] at hds
  obtain ⟨f, -, rfl⟩ := hds
  exact f.2

theorem Refines.total (h : c.Refines s) : c.total = s.total := by
  have hsum : c.total = (c.entries.entries.map fun e => e.2.length).sum := by
    rw [Collection.total, Assoc.values, List.length_flatten, List.map_map]
    rfl
  rw [hsum]
  cases s with
  | cleared =>
    have hempty : c.entries.entries = [] := by
      refine List.eq_nil_iff_forall_not_mem.2 fun e he => ?_
      have hget := h.get? e.1
      rw [(Assoc.get?_eq_some_iff _ e.1 e.2).2 he] at hget
      exact absurd hget (by simp [Shelf.get?])
    rw [hempty]
    rfl
  | inUse l =>
    have hperm : c.entries.entries.Perm l.flat := by
      rw [List.perm_ext_iff_of_nodup (Assoc.nodup_entries _) l.nodup_flat]
      rintro ⟨k, ds⟩
      rw [Levels.mem_flat, ← Assoc.get?_eq_some_iff, h.get? k]
      rfl
    rw [(hperm.map _).sum_eq, Levels.sum_flat]
    rfl

theorem Refines.disposed_eq_false (h : c.Refines (.inUse l)) : c.disposed = false := by
  rw [← Bool.not_eq_true, h.disposed]
  simp

/-- What a change of a collection in use must show for the two maps to follow. -/
theorem Refines.apply (h : c.Refines (.inUse l)) {l' : Levels} {remove : List DocumentKey}
    {install : Entries}
    (hget : ∀ k, (l'.get? k).map Subtype.val =
      match install.get? k with
      | some ds => (Filed.of? ds).map Subtype.val
      | none => if k ∈ remove then none else (l.get? k).map Subtype.val) :
    (c.apply remove install).1.Refines (.inUse l') := by
  constructor
  · intro k
    rw [get?_apply h.disposed_eq_false, h.get? k]
    exact (hget k).symm
  · rw [(apply_workspace c remove install).2, h.disposed_eq_false]
    simp

/-- A key that a collection does not have need not be removed. -/
theorem Refines.ite_mem_filter (h : c.Refines (.inUse l)) (p : DocumentKey → Bool)
    (k : DocumentKey) :
    (if k ∈ c.keys.filter p then none else (l.get? k).map Subtype.val) =
      if p k then none else (l.get? k).map Subtype.val := by
  by_cases hk : k ∈ c.keys
  · simp [List.mem_filter, hk]
  · have hnone : (l.get? k).map Subtype.val = none :=
      (h.get? k).symm.trans ((Assoc.get?_eq_none_iff _ _).2 hk)
    simp [hnone]

/-- The look-up in a map whose keys have been renamed. -/
theorem get?_rename {α : Type} [DecidableEq α] (name : α → DocumentKey)
    (hname : ∀ a b, name a = name b → a = b) (m : Assoc α (List Diagnostic)) :
    (∀ a, (Assoc.ofList (m.entries.map fun e => (name e.1, e.2))).get? (name a) = m.get? a) ∧
      ∀ k, (∀ a, name a ≠ k) →
        (Assoc.ofList (m.entries.map fun e => (name e.1, e.2))).get? k = none := by
  have hnodup : ((m.entries.map fun e => (name e.1, e.2)).map Prod.fst).Nodup := by
    have hkeys := m.nodup
    rw [List.map_map]
    rw [List.nodup_iff_pairwise_ne, List.pairwise_map] at hkeys ⊢
    exact hkeys.imp fun hne heq => hne (hname _ _ heq)
  constructor
  · intro a
    ext ds
    rw [Assoc.get?_ofList_eq_some_iff _ hnodup, Assoc.get?_eq_some_iff]
    simp only [List.mem_map, Prod.mk.injEq]
    constructor
    · rintro ⟨e, he, hk, rfl⟩
      rwa [← hname _ _ hk]
    · exact fun hmem => ⟨(a, ds), hmem, rfl, rfl⟩
  · intro k hk
    rw [Assoc.get?_eq_none_iff, Assoc.keys, Assoc.entries_ofList _ hnodup, List.map_map]
    intro hmem
    obtain ⟨e, -, he⟩ := List.mem_map.1 hmem
    exact hk e.1 he

/-! ## One operation -/

theorem Refines.replace (h : c.Refines (.inUse l)) (key : DocumentKey) (ds : List Diagnostic) :
    (c.replace key ds).1.Refines (.inUse (l.replace ds key)) := by
  refine h.apply fun k => ?_
  have hget : (Assoc.ofList [(key, ds)]).get? k = if k = key then some ds else none :=
    Assoc.get?_insert Assoc.empty key k ds
  rw [Levels.get?_replace, hget]
  by_cases hk : k = key <;> simp [hk]

theorem Refines.replaceFiles (h : c.Refines (.inUse l)) (files : Assoc String (List Diagnostic)) :
    (c.replaceFiles files).1.Refines (.inUse (l.replaceFiles files)) := by
  obtain ⟨hfile, helse⟩ := get?_rename .file (fun a b hab => by simpa using hab) files
  refine h.apply fun k => ?_
  rw [fileKeys, h.ite_mem_filter, Levels.get?_replaceFiles]
  cases k with
  | file path =>
    rw [hfile]
    cases hf : files.get? path <;> simp [hf, DocumentKey.isFile]
  | fragment d i => simp [helse (.fragment d i) (by simp), DocumentKey.isFile]

theorem Refines.replaceFragments (h : c.Refines (.inUse l)) (document : String)
    (fragments : Assoc Int (List Diagnostic)) :
    (c.replaceFragments document fragments).1.Refines
      (.inUse (l.replaceFragments document fragments)) := by
  obtain ⟨hfragment, helse⟩ :=
    get?_rename (.fragment document) (fun a b hab => by simpa using hab) fragments
  refine h.apply fun k => ?_
  rw [fragmentKeys, h.ite_mem_filter, Levels.get?_replaceFragments]
  cases k with
  | file path => simp [helse (.file path) (by simp), DocumentKey.isFragmentOf]
  | fragment d i =>
    by_cases hd : d = document
    · subst hd
      rw [hfragment]
      cases hf : fragments.get? i <;> simp [hf, DocumentKey.isFragmentOf]
    · have hother : ∀ j, DocumentKey.fragment document j ≠ .fragment d i := fun j hj => by
        simp only [DocumentKey.fragment.injEq] at hj
        exact hd hj.1.symm
      simp [helse _ hother, hd, DocumentKey.isFragmentOf]

theorem Refines.clear (h : c.Refines (.inUse l)) (scope : Scope) :
    (c.clear scope).1.Refines (.inUse (l.clear scope)) := by
  refine h.apply fun k => ?_
  rw [Levels.get?_clear, Assoc.get?_empty]
  have hscope : (if k ∈ c.scopeKeys scope then none else (l.get? k).map Subtype.val) =
      if l.Clears scope k then none else (l.get? k).map Subtype.val := by
    cases scope with
    | files => exact h.ite_mem_filter DocumentKey.isFile k
    | fragment document index => simp [scopeKeys, Levels.Clears]
    | document name =>
      have hfile : c.entries.contains (.file name) = (l.files.get? name).isSome := by
        have hget := h.get? (.file name)
        rw [Assoc.contains, List.contains_eq_mem]
        cases hl : l.files.get? name with
        | none =>
          rw [show (Shelf.inUse l).get? (.file name) = none from hl] at hget
          simpa using (Assoc.get?_eq_none_iff _ _).1 hget
        | some f =>
          rw [show (Shelf.inUse l).get? (.file name) = some f from hl] at hget
          have hmem : DocumentKey.file name ∈ c.entries.keys :=
            List.mem_map_of_mem ((Assoc.get?_eq_some_iff _ _ _).1 hget)
          simpa using hmem
      rw [scopeKeys, hfile]
      simp only [Levels.Clears]
      split
      · simp
      · exact h.ite_mem_filter (DocumentKey.isFragmentOf name) k
  rw [hscope]
  cases l.Clears scope k <;> simp

theorem Refines.dispose (h : c.Refines s) : c.dispose.1.Refines .cleared := by
  have hempty : ∀ k, c.disposed = true → c.entries.get? k = none := by
    intro k hd
    rw [h.get? k, h.disposed.1 hd]
    rfl
  refine ⟨fun k => ?_, by simp [disposed_dispose]⟩
  unfold Collection.dispose
  split
  · next hd => exact hempty k hd
  · rfl

/-- The two maps follow a collection through every operation. -/
theorem Refines.perform (h : c.Refines s) (op : Operation) :
    (c.perform op).1.Refines (s.perform op) := by
  cases s with
  | cleared =>
    cases op with
    | write w =>
      show (c.write w).1.Refines .cleared
      rw [write_of_disposed (h.disposed.2 rfl)]
      exact h
    | dispose => exact h.dispose
  | inUse l =>
    cases op with
    | dispose => exact h.dispose
    | write w =>
      cases w with
      | replace key ds => exact h.replace key ds
      | replaceFiles files => exact h.replaceFiles files
      | replaceFragments document fragments => exact h.replaceFragments document fragments
      | clear scope => exact h.clear scope

theorem refines_foldl (h : c.Refines s) (ops : List Operation) :
    (ops.foldl (fun c op => (c.perform op).1) c).Refines (ops.foldl Shelf.perform s) := by
  induction ops generalizing c s with
  | nil => exact h
  | cons op ops ih => exact ih (h.perform op)

theorem perform_of_disposed (hd : c.disposed = true) (op : Operation) : c.perform op = (c, {}) := by
  cases op with
  | write w => exact write_of_disposed hd w
  | dispose => exact if_pos hd

/-- Whatever has been done to a collection, it has the entries of the two maps after the same
operations: no list is empty, the number of diagnostics is that of both maps together, and once
it has been disposed of, which takes both maps away, nothing is done any more. -/
theorem collection_refines_levels (workspace : String) (ops : List Operation) :
    let c : Collection := ops.foldl (fun c op => (c.perform op).1) { workspace := workspace }
    let s := ops.foldl Shelf.perform (.inUse {})
    (∀ k, c.entries.get? k = (s.get? k).map Subtype.val) ∧
      (∀ e ∈ c.entries.entries, e.2 ≠ []) ∧
      c.total = s.total ∧
      (c.disposed = true ↔ s = .cleared) ∧
      (c.disposed = true → ∀ op, c.perform op = (c, {})) := by
  intro c s
  have hstart : ({ workspace := workspace } : Collection).Refines (.inUse {}) :=
    ⟨fun k => by cases k <;> rfl, by simp⟩
  have h : c.Refines s := refines_foldl hstart ops
  exact ⟨h.get?, fun e he => h.ne_nil ((Assoc.get?_eq_some_iff _ e.1 e.2).2 he), h.total,
    h.disposed, perform_of_disposed⟩

/-- A file and two documents of one name and of another. The first clearing of the name takes
the file, the second the fragments, and an empty list takes the last entry away. -/
example :
    let found : Diagnostic := ⟨⟨0, 0, 0, 1⟩, "bad", .error, none, none⟩
    let ops : List Operation := [.write (.replaceFiles (Assoc.ofList [("nb", [found]), ("b", [])])),
      .write (.replaceFragments "nb" (Assoc.ofList [(0, [found]), (1, [])])),
      .write (.replace (.fragment "other" 2) [found, found]),
      .write (.clear (.document "nb")), .write (.clear (.document "nb"))]
    let s := ops.foldl Shelf.perform (.inUse {})
    s.total = 2 ∧ (s.perform (.write (.replace (.fragment "other" 2) []))).total = 0 := by
  decide +kernel

end Collection

end Overseer
