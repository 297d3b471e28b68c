import Overseer.Proofs.DaemonCalls
import Overseer.Proofs.Encoding

set_option autoImplicit false

/-! # How files change under the program's hands

The program does three things to files: it makes directories that are missing, writes text at
the end of a log file, and removes a status file. None of them makes a path lead elsewhere: a
look-up in a tree finds a node of the same kind at the same place in every tree that has all the
nodes of the first one (`lookup_within`). Hence a directory that has been made is found again,
and the environment of a workspace that could be worked out once can be worked out again after
text was written to files and files were removed (`isOk_environment`). -/

namespace Overseer

namespace Files

/-- Two nodes of one kind, the bytes of files apart. -/
inductive Node.Like (R : List UInt8 → List UInt8 → Prop) : Node → Node → Prop
  | directory : Like R .directory .directory
  | link (target : String) : Like R (.link target) (.link target)
  | file {bytes bytes' : List UInt8} (h : R bytes bytes') : Like R (.file bytes) (.file bytes')

/-- Where something stands in the first tree, something of its kind stands in the second, and both
keep the program from the same things. -/
structure Tree.Within (R : List UInt8 → List UInt8 → Prop) (t t' : Tree) : Prop where
  bounds : t'.bounds = t.bounds
  nodes : ∀ l n, t.at? l = some n → ∃ n', t'.at? l = some n' ∧ n.Like R n'

variable {R : List UInt8 → List UInt8 → Prop} {t t' : Tree}

/-! ## Look-ups -/

/-- Look-ups in two trees have to do with each other what they have to do with each other at every
name that stands for something of its own, if they do behind that name and behind links. -/
theorem lookup_related (t t' : Tree) (last last' : Bool)
    {P : Except Refusal Found → Except Refusal Found → Prop}
    (hbounds : t'.bounds = t.bounds) (hrefusal : ∀ refusal, P (.error refusal) (.error refusal))
    (hend : ∀ dir, P (.ok (.node dir .directory)) (.ok (.node dir .directory)))
    (hname : ∀ (follow follow' : Location → List String → Except Refusal Found) dir name rest,
      (∀ dir names, P (follow dir names) (follow' dir names)) →
      (∀ dir, P (walk t last follow dir rest) (walk t' last' follow' dir rest)) →
      t.bounds.shortcut? dir name = .ok none →
      P (walk t last follow dir (name :: rest)) (walk t' last' follow' dir (name :: rest)))
    (cwd s : String) : P (lookup t cwd last s) (lookup t' cwd last' s) := by
  have hwalk : ∀ follow follow' : Location → List String → Except Refusal Found,
      (∀ dir names, P (follow dir names) (follow' dir names)) →
      ∀ dir names, P (walk t last follow dir names) (walk t' last' follow' dir names) := by
    intro follow follow' hfollow dir names
    induction names generalizing dir with
    | nil => exact hend dir
    | cons name rest ih =>
      cases hshort : t.bounds.shortcut? dir name with
      | error refusal =>
        rw [walk, walk, hbounds, hshort]
        exact hrefusal refusal
      | ok passed =>
        cases passed with
        | none => exact hname follow follow' dir name rest hfollow ih hshort
        | some dir' =>
          rw [walk, walk, hbounds, hshort]
          exact ih dir'
  have hfollowing : ∀ links dir names,
      P (walkFollowing t last links dir names) (walkFollowing t' last' links dir names) := by
    intro links
    induction links with
    | zero => exact hwalk _ _ fun _ _ => hrefusal .tooManyLinks
    | succ links ih => exact hwalk _ _ ih
  rw [lookup, lookup, hbounds]
  split
  · exact hrefusal _
  · exact hfollowing maxLinks _ _

/-- A look-up that finds something finds something in the larger tree too: the same, unless it does
not follow a last link that it followed before. -/
theorem lookup_within (h : t.Within R t') {cwd s : String} {last last' : Bool}
    (hlast : last = false → last' = false) {p : Location} {n : Node}
    (hlookup : lookup t cwd last s = .ok (.node p n)) :
    ∃ p' n', lookup t' cwd last' s = .ok (.node p' n') ∧
      (last = last' → p' = p ∧ n.Like R n') := by
  refine lookup_related t t' last last' (P := fun a b => ∀ p n, a = .ok (.node p n) →
      ∃ p' n', b = .ok (.node p' n') ∧ (last = last' → p' = p ∧ n.Like R n'))
    h.bounds (by simp) ?_ ?_ cwd s p n hlookup
  · rintro dir p n ⟨⟩
    exact ⟨_, _, rfl, fun _ => ⟨rfl, .directory⟩⟩
  intro follow follow' dir name rest hfollow hbehind hname p n hwalk
  rw [walk, hname] at hwalk
  rw [walk, h.bounds, hname]
  dsimp only at hwalk ⊢
  cases hat : t.at? (dir ++ [name]) with
  | none =>
    rw [hat] at hwalk
    dsimp only at hwalk
    split at hwalk <;> exact absurd hwalk (by simp)
  | some node =>
    obtain ⟨node', hat', hlike⟩ := h.nodes _ _ hat
    rw [hat] at hwalk
    rw [hat']
    cases hlike with
    | directory => exact hbehind _ _ _ hwalk
    | file hbytes =>
      dsimp only at hwalk ⊢
      split
      · next hrest =>
        rw [if_pos hrest] at hwalk
        cases hwalk
        exact ⟨_, _, rfl, fun _ => ⟨rfl, .file hbytes⟩⟩
      · next hrest =>
        rw [if_neg hrest] at hwalk
        exact absurd hwalk (by simp)
    | link target =>
      dsimp only at hwalk ⊢
      split at hwalk
      · next hstay =>
        -- the first walk stops at the link, so the second does
        rw [Bool.and_eq_true, Bool.not_eq_true'] at hstay
        rw [if_pos (by simp [hstay.1, hlast hstay.2])]
        cases hwalk
        exact ⟨_, _, rfl, fun _ => ⟨rfl, .link target⟩⟩
      · next hgo =>
        split
        · next hstay =>
          refine ⟨_, _, rfl, fun heq => ?_⟩
          rw [heq] at hgo
          exact absurd hstay hgo
        · exact hfollow _ _ _ _ hwalk

theorem stat_eq_ok_iff {cwd s : String} {p : Location} {n : Node} :
    stat t cwd s = .ok (p, n) ↔ lookup t cwd true s = .ok (.node p n) := by
  unfold stat
  split <;> simp_all

theorem lstat_eq_ok_iff {cwd s : String} {p : Location} {n : Node} :
    lstat t cwd s = .ok (p, n) ↔ lookup t cwd false s = .ok (.node p n) := by
  unfold lstat
  split <;> simp_all

theorem stat_within (h : t.Within R t') {cwd s : String} {p : Location} {n : Node}
    (hstat : stat t cwd s = .ok (p, n)) : ∃ n', stat t' cwd s = .ok (p, n') ∧ n.Like R n' := by
  obtain ⟨p', n', hlookup, hsame⟩ := lookup_within h id (stat_eq_ok_iff.1 hstat)
  obtain ⟨rfl, hlike⟩ := hsame rfl
  exact ⟨n', stat_eq_ok_iff.2 hlookup, hlike⟩

/-- A look-up that follows links does not end at one. -/
theorem stat_ne_link {cwd s target : String} {p : Location} :
    stat t cwd s ≠ .ok (p, .link target) := by
  rw [Ne, stat_eq_ok_iff]
  refine lookup_related t t true true
    (P := fun a _ => ∀ p, a ≠ .ok (.node p (.link target))) rfl (by simp) (by simp) ?_ cwd s p
  intro follow follow' dir name rest hfollow hbehind hname p
  rw [walk, hname]
  dsimp only
  split
  · split <;> simp
  · exact hbehind _ p
  · split <;> simp
  · simpa using hfollow _ _ p

theorem probe_iff {cwd s : String} {test : Node → Bool} :
    probe t cwd s test = .ok true ↔ ∃ p n, stat t cwd s = .ok (p, n) ∧ test n = true := by
  unfold probe
  rcases stat t cwd s with refusal | ⟨p, n⟩
  · simp only [reduceCtorEq, false_and, exists_false, iff_false]
    split <;> simp
  · simp

theorem isDirectory_iff {cwd s : String} :
    isDirectory t cwd s = .ok true ↔ ∃ p, stat t cwd s = .ok (p, .directory) := by
  rw [isDirectory, probe_iff]
  simp

theorem isDirectory_within (h : t.Within R t') {cwd s : String}
    (hdir : isDirectory t cwd s = .ok true) : isDirectory t' cwd s = .ok true := by
  obtain ⟨p, hstat⟩ := isDirectory_iff.1 hdir
  obtain ⟨n', hstat', hlike⟩ := stat_within h hstat
  cases hlike
  exact isDirectory_iff.2 ⟨p, hstat'⟩

theorem pathExists_iff {cwd s : String} :
    pathExists t cwd s = .ok true ↔ ∃ p n, stat t cwd s = .ok (p, n) := by
  rw [pathExists, probe_iff]
  simp

/-- A look-up that is refused because something is closed or too long is refused for the same reason
in a larger tree. -/
theorem lookup_refused (h : t.Within R t') {cwd s : String} {last : Bool} {refusal : Refusal}
    (hrefusal : refusal.isAbsence = false) (hlookup : lookup t cwd last s = .error refusal) :
    lookup t' cwd last s = .error refusal := by
  refine lookup_related t t' last last (P := fun a b => a = .error refusal → b = .error refusal)
    h.bounds (fun _ => id) (by simp) ?_ cwd s hlookup
  intro follow follow' dir name rest hfollow hbehind hname hwalk
  rw [walk, hname] at hwalk
  rw [walk, h.bounds, hname]
  dsimp only at hwalk ⊢
  cases hat : t.at? (dir ++ [name]) with
  | none =>
    -- where the smaller tree has nothing, its walk ends because of that
    rw [hat] at hwalk
    dsimp only at hwalk
    split at hwalk
    · exact absurd hwalk (by simp)
    · cases hwalk
      exact absurd hrefusal (by simp [Refusal.isAbsence])
  | some node =>
    obtain ⟨node', hat', hlike⟩ := h.nodes _ _ hat
    rw [hat] at hwalk
    rw [hat']
    cases hlike with
    | directory => exact hbehind _ hwalk
    | file hbytes =>
      dsimp only at hwalk
      split at hwalk
      · exact absurd hwalk (by simp)
      · cases hwalk
        exact absurd hrefusal (by simp [Refusal.isAbsence])
    | link target =>
      dsimp only at hwalk ⊢
      split at hwalk
      · exact absurd hwalk (by simp)
      · next hgo =>
        rw [if_neg hgo]
        exact hfollow _ _ hwalk

/-- A look-up ends where nothing stands, or not any more in another tree. -/
def Vanishes (t' : Tree) : Except Refusal Found → Prop
  | .ok (.node place node) => node ≠ .directory ∧ t'.at? place = none
  | .ok (.free _) | .error .notFound => True
  | .error _ => False

/-- A look-up ends where nothing stands. -/
def Absent : Except Refusal Found → Prop
  | .ok (.free _) | .error .notFound => True
  | _ => False

/-- What a look-up does not find, or what has gone since, is not found where less stands in the
tree. -/
theorem lookup_absent (h : t'.Within R t) {cwd s : String} {last : Bool}
    (hlookup : Vanishes t' (lookup t cwd last s)) : Absent (lookup t' cwd last s) := by
  have hrefusal : ∀ refusal, Vanishes t' (.error refusal) → Absent (.error refusal) := by
    intro refusal hgone
    cases refusal <;> exact hgone
  refine lookup_related t t' last last (P := fun a b => Vanishes t' a → Absent b) h.bounds.symm
    hrefusal (fun dir hgone => absurd rfl hgone.1) ?_ cwd s hlookup
  intro follow follow' dir name rest hfollow hbehind hname hwalk
  rw [walk, hname] at hwalk
  rw [walk, ← h.bounds, hname]
  dsimp only at hwalk ⊢
  cases hat' : t'.at? (dir ++ [name]) with
  | none =>
    dsimp only
    split <;> trivial
  | some node' =>
    obtain ⟨node, hat, hlike⟩ := h.nodes _ _ hat'
    rw [hat] at hwalk
    cases hlike with
    | directory => exact hbehind _ hwalk
    | file hbytes =>
      -- a file that is still there has not gone
      dsimp only at hwalk
      split at hwalk
      · exact absurd (hat'.symm.trans hwalk.2) (by simp)
      · exact hwalk.elim
    | link target =>
      dsimp only at hwalk ⊢
      split at hwalk
      · exact absurd (hat'.symm.trans hwalk.2) (by simp)
      · next hgo =>
        rw [if_neg hgo]
        exact hfollow _ _ hwalk

theorem lstat_eq_notFound_iff {cwd s : String} :
    lstat t cwd s = .error .notFound ↔ Absent (lookup t cwd false s) := by
  unfold lstat
  split
  · next heq => simp [heq, Absent]
  · next heq => simp [heq, Absent]
  · next e heq => cases e <;> simp [heq, Absent]

/-- What is missing stays missing where less stands in the tree. -/
theorem lstat_missing (h : t'.Within R t) {cwd s : String}
    (hlstat : lstat t cwd s = .error .notFound) : lstat t' cwd s = .error .notFound := by
  rw [lstat_eq_notFound_iff] at hlstat ⊢
  refine lookup_absent h ?_
  generalize lookup t cwd false s = found at hlstat
  unfold Absent at hlstat
  split at hlstat
  · trivial
  · trivial
  · exact hlstat.elim

/-- What has been removed is missing. -/
theorem lstat_removed (h : t'.Within R t) {cwd s : String} {place : Location} {node : Node}
    (hlstat : lstat t cwd s = .ok (place, node)) (hnode : node ≠ .directory)
    (hgone : t'.at? place = none) : lstat t' cwd s = .error .notFound := by
  rw [lstat_eq_notFound_iff]
  refine lookup_absent h ?_
  rw [lstat_eq_ok_iff.1 hlstat]
  exact ⟨hnode, hgone⟩

/-- If it can be told whether something stands at a path, it can still be told when less stands in
the tree. -/
theorem isOk_pathExists (h : t'.Within R t) {cwd s : String}
    (hok : ∃ there, pathExists t cwd s = .ok there) : ∃ there, pathExists t' cwd s = .ok there := by
  cases hexists : pathExists t' cwd s with
  | ok there => exact ⟨there, rfl⟩
  | error refusal =>
    have hrefused : refusal.isAbsence = false ∧ lookup t' cwd true s = .error refusal := by
      unfold pathExists probe stat at hexists
      cases hlookup : lookup t' cwd true s with
      | ok found => cases found <;> simp [hlookup, Refusal.isAbsence] at hexists
      | error refusal' =>
        rw [hlookup] at hexists
        dsimp only at hexists
        split at hexists
        · exact absurd hexists (by simp)
        · next habsence =>
          cases hexists
          exact ⟨by simpa using habsence, rfl⟩
    obtain ⟨habsence, hlookup⟩ := hrefused
    obtain ⟨there, hthere⟩ := hok
    simp [pathExists, probe, stat, lookup_refused h habsence hlookup, habsence] at hthere

/-! ## Directories that are made -/

/-- A look-up that ends at a free place ends there again once a directory has been made. -/
theorem lookup_free (h : t.Within R t') {cwd s : String} {place : Location}
    (hlookup : lookup t cwd false s = .ok (.free place)) (last' : Bool) :
    t.at? place = none ∧ (t'.at? place = some .directory →
      lookup t' cwd last' s = .ok (.node place .directory)) := by
  refine lookup_related t t' false last'
    (P := fun a b => a = .ok (.free place) → t.at? place = none ∧
      (t'.at? place = some .directory → b = .ok (.node place .directory)))
    h.bounds (by simp) (by simp) ?_ cwd s hlookup
  intro follow follow' dir name rest hfollow hbehind hname hwalk
  rw [walk, hname] at hwalk
  rw [walk, h.bounds, hname]
  dsimp only at hwalk ⊢
  cases hat : t.at? (dir ++ [name]) with
  | none =>
    rw [hat] at hwalk
    dsimp only at hwalk
    split at hwalk
    · next hrest =>
      -- this is the free place, and nothing stands behind it on the path
      rw [List.isEmpty_iff] at hrest
      subst hrest
      cases hwalk
      refine ⟨hat, fun hmade => ?_⟩
      rw [hmade]
      rfl
    · exact absurd hwalk (by simp)
  | some node =>
    obtain ⟨node', hat', hlike⟩ := h.nodes _ _ hat
    rw [hat] at hwalk
    rw [hat']
    cases hlike with
    | directory => exact hbehind _ hwalk
    | file hbytes =>
      dsimp only at hwalk
      split at hwalk <;> exact absurd hwalk (by simp)
    | link target =>
      dsimp only at hwalk ⊢
      split at hwalk
      · exact absurd hwalk (by simp)
      · next hgo =>
        have hrest : rest.isEmpty = false := by simpa using hgo
        rw [if_neg (by simp [hrest])]
        exact hfollow _ _ hwalk

theorem Node.like_refl (hR : ∀ bytes, R bytes bytes) (n : Node) : n.Like R n := by
  cases n with
  | directory => exact .directory
  | file bytes => exact .file (hR bytes)
  | link target => exact .link target

namespace Tree

theorem at?_insert (t : Tree) (l l' : Location) (n : Node) (hl : l ≠ []) :
    ({ t with nodes := t.nodes.insert l n } : Tree).at? l' =
      if l' = l then some n else t.at? l' := by
  unfold at?
  rw [Assoc.get?_insert]
  by_cases hl' : l' = l
  · subst hl'
    simp [hl]
  · simp [hl']

theorem within_of_forall (hbounds : t'.bounds = t.bounds)
    (h : ∀ l n, t.at? l = some n → t'.at? l = some n) (hR : ∀ bytes, R bytes bytes) :
    t.Within R t' :=
  ⟨hbounds, fun l n hat => ⟨n, h l n hat, n.like_refl hR⟩⟩

theorem within_refl (t : Tree) (hR : ∀ bytes, R bytes bytes) : t.Within R t :=
  within_of_forall rfl (fun _ _ h => h) hR

@[simp] theorem bounds_put (t : Tree) (l : Location) (n : Node) :
    (t.put l n).bounds = t.bounds := by
  have habove : ∀ (ls : List Location) (t : Tree),
      (ls.foldl ensureDirectory t).bounds = t.bounds := by
    intro ls
    induction ls with
    | nil => exact fun _ => rfl
    | cons a ls ih =>
      intro t
      rw [List.foldl_cons, ih, ensureDirectory]
      split <;> rfl
  unfold put
  dsimp only
  split <;> exact habove _ t

/-- Making the directories above a place leaves everything where it is. -/
theorem at?_ensureDirectories (ls : List Location) {l : Location} {n : Node}
    (hat : t.at? l = some n) : (ls.foldl ensureDirectory t).at? l = some n := by
  induction ls generalizing t with
  | nil => exact hat
  | cons a ls ih =>
    refine ih ?_
    unfold ensureDirectory
    split
    · exact hat
    · next hnone =>
      have ha : a ≠ [] := by
        rintro rfl
        exact hnone (by simp [at?])
      rw [at?_insert t a l .directory ha, if_neg]
      · exact hat
      · -- a directory is only made where nothing stands
        rintro rfl
        simp [hat] at hnone

/-- Making a directory at a free place leaves everything else where it is. -/
theorem put_directory {place : Location} (hfree : t.at? place = none) :
    (∀ l n, t.at? l = some n → (t.put place .directory).at? l = some n) ∧
      (t.put place .directory).at? place = some .directory := by
  have hplace : place ≠ [] := by
    rintro rfl
    exact absurd hfree (by simp [at?])
  unfold put
  rw [if_neg (by simpa using hplace)]
  refine ⟨fun l n hat => ?_, ?_⟩
  · rw [at?_insert _ _ _ _ hplace, if_neg]
    · exact at?_ensureDirectories _ hat
    · rintro rfl
      rw [hfree] at hat
      exact absurd hat (by simp)
  · rw [at?_insert _ _ _ _ hplace, if_pos rfl]

end Tree

end Files

open Files

theorem World.granted_eq_ok {α : Type} {path : String} {r : Except Files.Refusal α} {a : α} :
    World.granted path r = .ok a ↔ r = .ok a := by
  cases r <;> simp [World.granted]

namespace Act

/-- The world after an action differs in its files, where nothing has gone. -/
def Grows (w w' : World) : Prop :=
  ∃ files, w' = { w with files } ∧ files.bounds = w.files.bounds ∧
    ∀ l n, w.files.at? l = some n → files.at? l = some n

theorem Grows.refl (w : World) : Grows w w := ⟨w.files, rfl, rfl, fun _ _ h => h⟩

theorem Grows.trans {w w' w'' : World} (h : Grows w w') (h' : Grows w' w'') : Grows w w'' := by
  obtain ⟨files, rfl, hbounds, hfiles⟩ := h
  obtain ⟨files', rfl, hbounds', hfiles'⟩ := h'
  exact ⟨files', rfl, hbounds'.trans hbounds, fun l n hat => hfiles' l n (hfiles l n hat)⟩

theorem Grows.isDirectory {w w' : World} (h : Grows w w') {p : Path}
    (hdir : w.isDirectory p = .ok true) : w'.isDirectory p = .ok true := by
  obtain ⟨files, rfl, hbounds, hfiles⟩ := h
  exact World.granted_eq_ok.2 (isDirectory_within
    (Tree.within_of_forall hbounds hfiles fun _ => rfl) (World.granted_eq_ok.1 hdir))

theorem exec_get (w : World) : (get : Act World).exec w = (.ok w, w) := rfl

theorem exec_log (level : LogLevel) (source : LogSource) (text : String) (w : World) :
    (log level source text).exec w = (.ok (), w.record ⟨level, source, text⟩) := rfl

/-- Of a refusal nothing is left if the directory is there; if it cannot be told whether it is,
that is refused. -/
def excused (w : World) (p : Path) (refusal : Refusal) : Option Refusal :=
  if refusal = .notFound then some refusal
  else match Files.isDirectory w.files w.cwd p.text with
    | .ok there => if there then none else some refusal
    | .error refusal => some refusal

theorem isDirectory_of_excused {w : World} {p : Path} {refusal : Refusal}
    (h : excused w p refusal = none) : w.isDirectory p = .ok true := by
  unfold excused at h
  split at h
  · exact absurd h (by simp)
  · split at h
    · next hthere =>
      split at h
      · next there => exact World.granted_eq_ok.2 (there ▸ hthere)
      · exact absurd h (by simp)
    · exact absurd h (by simp)

theorem exec_makeDirectory (p : Path) (w : World) :
    (makeDirectory p).exec w = match Files.makeDirectory w.files w.cwd p.text with
      | .ok files => (.ok none, { w with files })
      | .error refusal => (.ok (excused w p refusal), w) := by
  rw [makeDirectory, Daemon.exec_bind, exec_get]
  dsimp only
  cases Files.makeDirectory w.files w.cwd p.text with
  | ok files => rfl
  | error refusal =>
    cases refusal with
    | notFound => rfl
    | _ =>
      simp only [excused, reduceCtorEq, if_false]
      cases Files.isDirectory w.files w.cwd p.text <;> rfl

theorem grows_makeDirectory (p : Path) (w : World) :
    Grows w ((makeDirectory p).exec w).2 ∧ (((makeDirectory p).exec w).1 = .ok none →
      ((makeDirectory p).exec w).2.isDirectory p = .ok true) := by
  rw [exec_makeDirectory]
  cases hmake : Files.makeDirectory w.files w.cwd p.text with
  | error refusal =>
    exact ⟨Grows.refl w, fun hnone => isDirectory_of_excused (Except.ok.inj hnone)⟩
  | ok files =>
    unfold Files.makeDirectory at hmake
    split at hmake
    · next place hlookup =>
      split at hmake
      · exact absurd hmake (by simp)
      · cases hmake
        have hfree := (lookup_free (Tree.within_refl w.files fun _ => rfl) hlookup false).1
        obtain ⟨hkept, hmade⟩ := Tree.put_directory hfree
        have hbounds := w.files.bounds_put place .directory
        refine ⟨⟨_, rfl, hbounds, hkept⟩, fun _ => ?_⟩
        have hagain := (lookup_free (Tree.within_of_forall hbounds hkept fun _ => rfl) hlookup
          true).2 hmade
        exact World.granted_eq_ok.2 (isDirectory_iff.2 ⟨place, stat_eq_ok_iff.2 hagain⟩)
    · exact absurd hmake (by simp)
    · exact absurd hmake (by simp)

/-- A directory that is there need not be made. -/
theorem exec_makeDirectory_of_isDirectory {p : Path} {w : World} (h : w.isDirectory p = .ok true) :
    (makeDirectory p).exec w = (.ok none, w) := by
  have hdir := World.granted_eq_ok.1 h
  obtain ⟨place, hstat⟩ := isDirectory_iff.1 hdir
  obtain ⟨place', node, hlookup, -⟩ := lookup_within (Tree.within_refl w.files fun _ => rfl)
    (fun _ => rfl : true = false → false = false) (stat_eq_ok_iff.1 hstat)
  rw [exec_makeDirectory]
  simp [Files.makeDirectory, hlookup, excused, hdir]

/-- The directory has been made, or what is refused is refused for good. -/
theorem grows_granted {p : Path} {w w' : World} {refusal : Option Refusal} (hgrows : Grows w w')
    (hmade : refusal = none → w'.isDirectory p = .ok true) :
    Grows w ((granted p refusal).exec w').2 ∧
      (((granted p refusal).exec w').1 = .ok () →
        ((granted p refusal).exec w').2.isDirectory p = .ok true) := by
  cases refusal with
  | none => exact ⟨hgrows, fun _ => hmade rfl⟩
  | some refusal => exact ⟨hgrows, fun h => absurd h (by simp [granted, exec])⟩

/-- A directory is made without those above it. -/
theorem grows_made (p : Path) (w : World) :
    Grows w ((makeDirectory p >>= granted p).exec w).2 ∧
      (((makeDirectory p >>= granted p).exec w).1 = .ok () →
        ((makeDirectory p >>= granted p).exec w).2.isDirectory p = .ok true) := by
  have hone := grows_makeDirectory p w
  rw [Daemon.exec_bind]
  generalize (makeDirectory p).exec w = out at hone ⊢
  obtain ⟨r, w'⟩ := out
  cases r with
  | error e => exact ⟨hone.1, fun h => absurd h (by simp)⟩
  | ok refusal => exact grows_granted hone.1 fun h => hone.2 (by rw [h])

theorem grows_makeDirectories (bound : Nat) (p : Path) (w : World) :
    Grows w ((makeDirectories bound p).exec w).2 ∧
      (((makeDirectories bound p).exec w).1 = .ok () →
        ((makeDirectories bound p).exec w).2.isDirectory p = .ok true) := by
  induction bound generalizing p w with
  | zero => exact grows_made p w
  | succ bound ih =>
    have hone := grows_makeDirectory p w
    rw [makeDirectories, Daemon.exec_bind]
    generalize (makeDirectory p).exec w = out at hone ⊢
    obtain ⟨r, w'⟩ := out
    cases r with
    | error e => exact ⟨hone.1, fun h => absurd h (by simp)⟩
    | ok refusal =>
      -- only a refusal because something above is missing leads further up
      dsimp only
      split
      · -- the directories above come first, then this one once more
        have habove := ih p.parent w'
        rw [Daemon.exec_bind]
        generalize (makeDirectories bound p.parent).exec w' = out at habove ⊢
        obtain ⟨r, w''⟩ := out
        have hgrows := hone.1.trans habove.1
        cases r with
        | error e => exact ⟨hgrows, fun h => absurd h (by simp)⟩
        | ok u =>
          obtain ⟨hagain, hmade⟩ := grows_made p w''
          exact ⟨hgrows.trans hagain, hmade⟩
      · exact grows_granted hone.1 fun h => hone.2 (by rw [h])

theorem exec_makeDirectories_of_isDirectory {p : Path} {w : World} (h : w.isDirectory p = .ok true)
    (bound : Nat) : (makeDirectories bound p).exec w = (.ok (), w) := by
  cases bound with
  | zero =>
    rw [makeDirectories, Daemon.exec_bind, exec_makeDirectory_of_isDirectory h]
    rfl
  | succ bound =>
    rw [makeDirectories, Daemon.exec_bind, exec_makeDirectory_of_isDirectory h]
    rfl

end Act

namespace Handle

/-- The directories of both files of a daemon are there. -/
def Housed (h : Handle) (w : World) : Prop :=
  w.isDirectory h.statusFile.parent = .ok true ∧ w.isDirectory h.logFile.parent = .ok true

theorem exec_ensureDirectories (h : Handle) (w : World) :
    Act.Grows w (h.ensureDirectories.exec w).2 ∧
      ((h.ensureDirectories.exec w).1 = .ok () → h.Housed (h.ensureDirectories.exec w).2) := by
  have hfirst := Act.grows_makeDirectories h.statusFile.parent.parts.length h.statusFile.parent w
  rw [ensureDirectories, Daemon.exec_bind]
  generalize (Act.makeDirectories h.statusFile.parent.parts.length h.statusFile.parent).exec w =
    out at hfirst ⊢
  obtain ⟨r, w'⟩ := out
  cases r with
  | error e => exact ⟨hfirst.1, fun h => absurd h (by simp)⟩
  | ok u =>
    have hsecond := Act.grows_makeDirectories h.logFile.parent.parts.length h.logFile.parent w'
    exact ⟨hfirst.1.trans hsecond.1, fun hok =>
      ⟨hsecond.1.isDirectory (hfirst.2 rfl), hsecond.2 hok⟩⟩

theorem exec_ensureDirectories_of_housed {h : Handle} {w : World} (hh : h.Housed w) :
    h.ensureDirectories.exec w = (.ok (), w) := by
  rw [ensureDirectories, Daemon.exec_bind, Act.exec_makeDirectories_of_isDirectory hh.1]
  exact Act.exec_makeDirectories_of_isDirectory hh.2 _

end Handle

/-! ## Text written to files, and files removed -/

namespace Files

/-- Text has been written at the end. -/
def Longer (bytes bytes' : List UInt8) : Prop := ∃ cs, bytes' = bytes ++ Text.encode cs

/-- Text has been taken from the end. -/
def Shorter (bytes bytes' : List UInt8) : Prop := Longer bytes' bytes

theorem longer_refl (bytes : List UInt8) : Longer bytes bytes := ⟨[], by simp [Text.encode]⟩

theorem shorter_refl (bytes : List UInt8) : Shorter bytes bytes := longer_refl bytes

theorem Longer.trans {a b c : List UInt8} (h : Longer a b) (h' : Longer b c) : Longer a c := by
  obtain ⟨cs, rfl⟩ := h
  obtain ⟨cs', rfl⟩ := h'
  exact ⟨cs ++ cs', by simp [Text.encode]⟩

theorem Tree.Within.trans {R : List UInt8 → List UInt8 → Prop} {t t' t'' : Tree}
    (h : t.Within R t') (h' : t'.Within R t'') (hR : ∀ a b c, R a b → R b c → R a c) :
    t.Within R t'' := by
  refine ⟨h'.bounds.trans h.bounds, fun l n hat => ?_⟩
  obtain ⟨n', hat', hlike⟩ := h.nodes l n hat
  obtain ⟨n'', hat'', hlike'⟩ := h'.nodes l n' hat'
  refine ⟨n'', hat'', ?_⟩
  cases hlike with
  | directory => exact hlike'
  | link target => exact hlike'
  | file hbytes =>
    cases hlike' with
    | file hbytes' => exact .file (hR _ _ _ hbytes hbytes')

@[simp] theorem bounds_append (t : Tree) (place : Location) (bytes : List UInt8) :
    (append t place bytes).bounds = t.bounds := by
  unfold append
  split <;> rfl

theorem at?_append (t : Tree) (place l : Location) (bytes : List UInt8) :
    (append t place bytes).at? l = t.at? l ∨
      ∃ old, t.at? l = some (.file old) ∧
        (append t place bytes).at? l = some (.file (old ++ bytes)) := by
  unfold append
  split
  · next old hold =>
    have hplace : place ≠ [] := by
      rintro rfl
      exact absurd hold (by simp [Tree.at?])
    rw [Tree.at?_insert t place l _ hplace]
    split
    · next hl => exact .inr ⟨old, by rw [hl, hold], rfl⟩
    · exact .inl rfl
  · exact .inl rfl

/-- A file or link that was found stands where it was found. -/
theorem at?_of_lstat {t : Tree} {cwd s : String} {p : Location} {n : Node}
    (h : lstat t cwd s = .ok (p, n)) (hn : n ≠ .directory) : t.at? p = some n := by
  refine lookup_related t t false false
    (P := fun a _ => ∀ p n, a = .ok (.node p n) → n ≠ .directory → t.at? p = some n) rfl (by simp)
    ?_ ?_ cwd s p n (lstat_eq_ok_iff.1 h) hn
  · rintro dir p n ⟨⟩ hn
    exact absurd rfl hn
  intro follow follow' dir name rest hfollow hbehind hname p n hwalk hn
  rw [walk, hname] at hwalk
  dsimp only at hwalk
  split at hwalk
  · split at hwalk <;> exact absurd hwalk (by simp)
  · exact hbehind _ _ _ hwalk hn
  · next hat =>
    split at hwalk
    · cases hwalk
      exact hat
    · exact absurd hwalk (by simp)
  · next hat =>
    split at hwalk
    · cases hwalk
      exact hat
    · exact hfollow _ _ _ _ hwalk hn

end Files

namespace World

/-- Text may have been written to files; nothing else has changed that a path or an environment
could depend on. -/
structure Appended (w w' : World) : Prop where
  cwd : w'.cwd = w.cwd
  environment : w'.environment = w.environment
  longer : w.files.Within Longer w'.files
  shorter : w'.files.Within Shorter w.files

/-- Text may have been written to files, and files may have been removed. -/
structure Worn (w w' : World) : Prop where
  cwd : w'.cwd = w.cwd
  environment : w'.environment = w.environment
  shorter : w'.files.Within Shorter w.files

variable {w w' w'' : World}

theorem Appended.worn (h : w.Appended w') : w.Worn w' := ⟨h.cwd, h.environment, h.shorter⟩

theorem Worn.trans (h : w.Worn w') (h' : w'.Worn w'') : w.Worn w'' :=
  ⟨h'.cwd.trans h.cwd, h'.environment.trans h.environment,
    h'.shorter.trans h.shorter fun _ _ _ h h' => Longer.trans h' h⟩

theorem Appended.trans (h : w.Appended w') (h' : w'.Appended w'') : w.Appended w'' :=
  ⟨h'.cwd.trans h.cwd, h'.environment.trans h.environment,
    h.longer.trans h'.longer fun _ _ _ => Longer.trans,
    h'.shorter.trans h.shorter fun _ _ _ h h' => Longer.trans h' h⟩

theorem Appended.isDirectory (h : w.Appended w') {p : Path} (hdir : w.isDirectory p = .ok true) :
    w'.isDirectory p = .ok true := by
  rw [World.isDirectory, h.cwd]
  exact granted_eq_ok.2 (isDirectory_within h.longer (granted_eq_ok.1 hdir))

/-- The same files. -/
theorem appended_of_files (hcwd : w'.cwd = w.cwd) (henvironment : w'.environment = w.environment)
    (hfiles : w'.files = w.files) : w.Appended w' := by
  refine ⟨hcwd, henvironment, ?_, ?_⟩
  · rw [hfiles]
    exact Tree.within_refl w.files longer_refl
  · rw [hfiles]
    exact Tree.within_refl w.files shorter_refl

theorem Appended.refl (w : World) : w.Appended w := appended_of_files rfl rfl rfl

theorem appended_writeTo (w : World) (line : String) (sink : LogSink) :
    w.Appended (w.writeTo line sink) := by
  cases sink with
  | console => exact appended_of_files rfl rfl rfl
  | file place =>
    have hbounds := bounds_append w.files place (Text.encode line.toList)
    refine ⟨rfl, rfl, ⟨hbounds, fun l n hat => ?_⟩, ⟨hbounds.symm, fun l n hat => ?_⟩⟩
    · rcases at?_append w.files place l (Text.encode line.toList) with h | ⟨old, hold, h⟩
      · exact ⟨n, h.trans hat, n.like_refl longer_refl⟩
      · obtain rfl : Node.file old = n := Option.some.inj (hold.symm.trans hat)
        exact ⟨_, h, .file ⟨line.toList, rfl⟩⟩
    · rcases at?_append w.files place l (Text.encode line.toList) with h | ⟨old, hold, h⟩
      · exact ⟨n, h.symm.trans hat, n.like_refl shorter_refl⟩
      · obtain rfl : Node.file (old ++ _) = n := Option.some.inj (h.symm.trans hat)
        exact ⟨_, hold, .file ⟨line.toList, rfl⟩⟩

theorem appended_record (w : World) (r : LogRecord) : w.Appended (w.record r) := by
  have hsinks : ∀ (sinks : List LogSink) (w : World),
      w.Appended (sinks.foldl (fun w s => w.writeTo r.line s) w) := by
    intro sinks
    induction sinks with
    | nil => exact Appended.refl
    | cons sink sinks ih =>
      intro w
      exact (appended_writeTo w r.line sink).trans (ih _)
  unfold record
  split
  · exact Appended.refl w
  · have hlog : w.Appended { w with log := w.log ++ [r] } := appended_of_files rfl rfl rfl
    exact hlog.trans (hsinks w.sinks _)

theorem worn_remove (w : World) (place : Location) :
    w.Worn { w with files := w.files.remove place } := by
  refine ⟨rfl, rfl, ⟨rfl, fun l n hat => ?_⟩⟩
  refine ⟨n, ?_, n.like_refl shorter_refl⟩
  simp only [Tree.at?, Tree.remove, Assoc.get?_erase] at hat ⊢
  split at hat
  · next hroot => rwa [if_pos hroot]
  · next hroot =>
    rw [if_neg hroot]
    split at hat
    · exact absurd hat (by simp)
    · exact hat

end World

namespace Handle

/-- The status file is missing. -/
def FileGone (h : Handle) (w : World) : Prop :=
  lstat w.files w.cwd h.statusFile.text = .error .notFound

/-- A status file that is missing stays missing when text is written to files and files are
removed. -/
theorem FileGone.worn {h h' : Handle} {w w' : World} (hgone : h.FileGone w) (hworn : w.Worn w')
    (hfile : h'.statusFile = h.statusFile) : h'.FileGone w' := by
  rw [FileGone, hfile, hworn.cwd]
  exact lstat_missing hworn.shorter hgone

end Handle

/-! ## The environment once more -/

namespace Workspace

variable {ws : Workspace} {w w' : World}

/-- A path setting is worked out from the variables of the environment. -/
theorem path?_of_environment (h : w'.environment = w.environment) (setting : Setting) :
    ws.path? w' setting = ws.path? w setting := by
  have hvariable : w'.lookupVariable = w.lookupVariable := by
    funext name
    simp only [World.lookupVariable, h]
  have hexpand : ∀ value, w'.expandSetting ws.root value = w.expandSetting ws.root value := by
    intro value
    cases value <;> simp only [World.expandSetting, World.expandPath, hvariable]
  simp only [path?, hexpand]

theorem cwd_of_environment (h : w'.environment = w.environment) : ws.cwd w' = ws.cwd w := by
  simp only [cwd, path?_of_environment h]

/-- An environment file can be read if the system lets the program read it and it is UTF-8. -/
theorem isOk_envFileText_iff {path : Path} {place : Location} {bytes : List UInt8}
    (hstat : stat w.files w.cwd path.text = .ok (place, .file bytes)) :
    (∃ text, envFileText w path = .ok text) ↔
      w.files.bounds.unreadable.contains place = false ∧ (Text.fileText? bytes).isSome = true := by
  have hdir : w.isDirectory path = .ok false := by
    simp [World.isDirectory, isDirectory, probe, hstat, World.granted]
  simp only [envFileText, hdir, World.readText, World.readBytes, readBytes, hstat]
  cases w.files.bounds.unreadable.contains place with
  | true => simp [World.granted, bind, Except.bind]
  | false =>
    cases hdecoded : Text.fileText? bytes <;> simp [World.granted, bind, Except.bind, hdecoded]

/-- An environment file that could be read can be read with more text in it, if it is there. -/
theorem isOk_envFileText (h : w.Worn w') {path : Path}
    (hread : w.pathExists path = .ok true → ∃ text, envFileText w path = .ok text)
    (hexists : w'.pathExists path = .ok true) : ∃ text', envFileText w' path = .ok text' := by
  obtain ⟨place, node', hstat'⟩ := pathExists_iff.1 (World.granted_eq_ok.1 hexists)
  obtain ⟨node, hstat, hlike⟩ := stat_within h.shorter hstat'
  rw [h.cwd] at hstat
  have htext := hread (World.granted_eq_ok.2 (pathExists_iff.2 ⟨place, node, hstat⟩))
  cases hlike with
  | directory =>
    have hdir : w'.isDirectory path = .ok true :=
      World.granted_eq_ok.2 (isDirectory_iff.2 ⟨place, hstat'⟩)
    exact ⟨"", by rw [envFileText, hdir]⟩
  | link target =>
    -- a look-up that follows links does not end at one
    exact absurd hstat stat_ne_link
  | file hbytes =>
    obtain ⟨cs, rfl⟩ := hbytes
    obtain ⟨hreadable, hdecoded⟩ := (isOk_envFileText_iff hstat).1 htext
    refine (isOk_envFileText_iff hstat').2 ⟨?_, Text.isSome_fileText?_append hdecoded cs⟩
    rw [← h.shorter.bounds]
    exact hreadable

/-- What it takes to work out the environment of a workspace. -/
theorem environment_eq_ok_iff :
    (∃ e, (ws.environment.exec w).1 = .ok e) ↔
      (∃ path, ws.path? w .envFile = .ok path ∧ ∀ p ∈ path,
        (∃ there, w.pathExists p = .ok there) ∧
          (w.pathExists p = .ok true → ∃ text, envFileText w p = .ok text)) ∧
      ∃ items, ws.envItems = .ok items := by
  have hmap : ∀ {α β ε : Type} (r : Except ε α) (f : α → β),
      (∃ b, r.map f = .ok b) ↔ ∃ a, r = .ok a := by
    intro α β ε r f
    cases r <;> simp [Except.map]
  have hfile : (∃ fromFile, (ws.fileItems.exec w).1 = .ok fromFile) ↔
      ∃ path, ws.path? w .envFile = .ok path ∧ ∀ p ∈ path,
        (∃ there, w.pathExists p = .ok there) ∧
          (w.pathExists p = .ok true → ∃ text, envFileText w p = .ok text) := by
    rw [Daemon.exec_fileItems]
    cases ws.path? w .envFile with
    | error e => simp
    | ok path =>
      cases path with
      | none => simp
      | some path =>
        rcases hexists : w.pathExists path with e | there
        · simp [hexists]
        · cases there with
          | false => simp [hexists]
          | true => simpa [hexists] using hmap (envFileText w path) (envFileItems w)
  rw [← hfile, Daemon.exec_environment]
  rcases ws.fileItems.exec w with ⟨e | fromFile, w'⟩
  · simp
  · simpa using hmap ws.envItems _

theorem appended_environment : w.Appended (ws.environment.exec w).2 := by
  have hfile : w.Appended (ws.fileItems.exec w).2 := by
    rw [Daemon.exec_fileItems]
    split
    · exact World.Appended.refl w
    · exact World.Appended.refl w
    · split
      · exact World.Appended.refl w
      · exact World.appended_record w _
      · exact World.Appended.refl w
  rw [Daemon.exec_environment]
  split
  · next heq => rwa [heq] at hfile
  · next heq => rwa [heq] at hfile

/-- An environment that could be worked out can be worked out again. -/
theorem isOk_environment (h : w.Worn w') (hok : ∃ e, (ws.environment.exec w).1 = .ok e) :
    ∃ e, (ws.environment.exec w').1 = .ok e := by
  rw [environment_eq_ok_iff] at hok ⊢
  obtain ⟨⟨path, hpath, htext⟩, hitems⟩ := hok
  have hpath' : ws.path? w' .envFile = .ok path := by
    rw [path?_of_environment h.environment, hpath]
  refine ⟨⟨path, hpath', fun p hp => ⟨?_, isOk_envFileText h (htext p hp).2⟩⟩, hitems⟩
  simp only [World.pathExists, h.cwd] at htext ⊢
  obtain ⟨there, hthere⟩ := (htext p hp).1
  obtain ⟨there', hthere'⟩ := isOk_pathExists h.shorter ⟨there, World.granted_eq_ok.1 hthere⟩
  exact ⟨there', World.granted_eq_ok.2 hthere'⟩

end Workspace

end Overseer
