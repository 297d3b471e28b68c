import Mathlib.Data.List.Induction
import Mathlib.Data.List.Infix
import Overseer.Files.Resolve
import Overseer.Proofs.Splitting
import Overseer.World

set_option autoImplicit false

/-! # Names in paths

The names of a path that is read from a text are neither empty nor `.` and have no slash in them
(`Path.IsName`), so that the path can be read back from its own text. The same is true of a path
that has been resolved: every name in it stems from a piece between slashes, of the path, of the
target of a link, or of the current directory. -/

namespace Overseer

namespace Path

/-! ## Reading a path -/

/-- What can stand between two slashes and is kept when a path is read. -/
structure IsName (name : String) : Prop where
  ne_empty : name ≠ ""
  ne_dot : name ≠ "."
  no_slash : '/' ∉ name.toList

/-- Names with slashes between them. -/
def slashed (names : List String) : List Char := List.intercalate ['/'] (names.map String.toList)

theorem no_slash_of_mem_segments {s name : String} (h : name ∈ segments s) :
    '/' ∉ name.toList := by
  obtain ⟨piece, hpiece, rfl⟩ := List.mem_map.1 h
  rw [String.toList_ofList]
  exact Text.not_mem_of_mem_splitAtChar hpiece

theorem isName_of_mem_ofString {s name : String} (h : name ∈ (ofString s).parts) :
    IsName name := by
  obtain ⟨hmem, hkept⟩ := List.mem_filter.1 h
  have hkept' : name ≠ "" ∧ name ≠ "." := by simpa using hkept
  exact ⟨hkept'.1, hkept'.2, no_slash_of_mem_segments hmem⟩

theorem toList_text {p : Path} (h : p.isAbsolute = true) :
    p.text.toList = (anchorText p.anchor).toList ++ slashed p.parts := by
  have hanchor : p.anchor ≠ .relative := by simpa [isAbsolute] using h
  simp [text, hanchor, slashed, String.toList_intercalate]

/-- What stands in a path behind a name that others follow. -/
def behind : List String → List Char
  | [] => []
  | names => '/' :: slashed names

theorem slashed_cons (name : String) (names : List String) :
    slashed (name :: names) = name.toList ++ behind names := by
  cases names with
  | nil => simp [slashed, behind]
  | cons next names => simp [slashed, behind, List.intercalate_cons_cons]

theorem slashed_append {front back : List String} (hfront : front ≠ []) (hback : back ≠ []) :
    slashed (front ++ back) = slashed front ++ '/' :: slashed back := by
  induction front with
  | nil => exact absurd rfl hfront
  | cons name front ih =>
    rw [List.cons_append, slashed_cons, slashed_cons, List.append_assoc]
    cases front with
    | nil =>
      obtain ⟨next, back, rfl⟩ := List.exists_cons_of_ne_nil hback
      rfl
    | cons next front =>
      have hbehind : ∀ name names, behind (name :: names) = '/' :: slashed (name :: names) :=
        fun _ _ => rfl
      rw [List.cons_append, hbehind, ← List.cons_append, ih (by simp), hbehind]
      simp

theorem mem_slashed {names : List String} {c : Char} (h : c ∈ slashed names) :
    c = '/' ∨ ∃ name ∈ names, c ∈ name.toList := by
  induction names with
  | nil => exact absurd h List.not_mem_nil
  | cons name names ih =>
    rw [slashed_cons, List.mem_append] at h
    rcases h with h | h
    · exact .inr ⟨name, List.mem_cons_self, h⟩
    · cases names with
      | nil => exact absurd h List.not_mem_nil
      | cons next names =>
        rcases List.mem_cons.1 h with h | h
        · exact .inl h
        · refine (ih h).imp_right fun ⟨name', hname', hc⟩ => ?_
          exact ⟨name', List.mem_cons_of_mem name hname', hc⟩

theorem mem_slashed_of_mem {names : List String} {name : String} (hname : name ∈ names) {c : Char}
    (hc : c ∈ name.toList) : c ∈ slashed names := by
  induction names with
  | nil => exact absurd hname List.not_mem_nil
  | cons first names ih =>
    rw [slashed_cons, List.mem_append]
    rcases List.mem_cons.1 hname with rfl | hname
    · exact .inl hc
    · cases names with
      | nil => exact absurd hname List.not_mem_nil
      | cons next names => exact .inr (List.mem_cons_of_mem _ (ih hname))

theorem splitAtChar_slashed {names : List String} (hne : names ≠ [])
    (h : ∀ name ∈ names, IsName name) :
    Text.splitAtChar '/' (slashed names) = names.map String.toList := by
  refine Text.splitAtChar_intercalate (by simpa using hne) fun piece hpiece => ?_
  obtain ⟨name, hname, rfl⟩ := List.mem_map.1 hpiece
  exact (h name hname).no_slash

/-- The names in a text are those in front of a slash and those behind it. -/
theorem parts_ofString_append (cs rest : List Char) :
    (ofString (String.ofList (cs ++ '/' :: rest))).parts =
      (ofString (String.ofList cs)).parts ++ (ofString (String.ofList rest)).parts := by
  simp only [ofString, segments, String.toList_ofList, Text.splitAtChar_append, List.map_append,
    List.filter_append]

theorem parts_ofString_slashed {names : List String} (hne : names ≠ [])
    (h : ∀ name ∈ names, IsName name) :
    (ofString (String.ofList (slashed names))).parts = names := by
  have hid : (names.map String.toList).map String.ofList = names := by
    simp [Function.comp_def]
  rw [ofString, segments, String.toList_ofList, splitAtChar_slashed hne h, hid,
    List.filter_eq_self]
  intro name hname
  simpa using And.intro (h name hname).ne_empty (h name hname).ne_dot

/-- The first name does not begin with a slash. -/
theorem exists_cons_slashed {names : List String} (hne : names ≠ [])
    (h : ∀ name ∈ names, IsName name) : ∃ c cs, slashed names = c :: cs ∧ c ≠ '/' := by
  obtain ⟨name, names, rfl⟩ := List.exists_cons_of_ne_nil hne
  obtain ⟨hempty, -, hslash⟩ := h name List.mem_cons_self
  obtain ⟨c, cs, hchars⟩ := List.exists_cons_of_ne_nil (mt String.toList_eq_nil_iff.1 hempty)
  refine ⟨c, cs ++ behind names, by rw [slashed_cons, hchars, List.cons_append], ?_⟩
  rintro rfl
  exact hslash (hchars ▸ List.mem_cons_self)

theorem div_of_relative {p q : Path} (h : q.isAbsolute = false) :
    p / q = ⟨p.anchor, p.parts ++ q.parts⟩ := if_neg (by simp [h])

/-- What is read behind the text of a path lies below that path, unless the path is an anchor. -/
theorem ofString_text_append {p : Path} (habsolute : p.isAbsolute = true) (hne : p.parts ≠ [])
    (hnames : ∀ name ∈ p.parts, IsName name) (rest : List Char) :
    ofString (String.ofList (p.text.toList ++ '/' :: rest)) =
      ⟨p.anchor, p.parts ++ (ofString (String.ofList rest)).parts⟩ := by
  have hparts : (ofString (String.ofList (slashed p.parts ++ '/' :: rest))).parts =
      p.parts ++ (ofString (String.ofList rest)).parts := by
    rw [parts_ofString_append, parts_ofString_slashed hne hnames]
  have hslash : ∀ cs, (ofString (String.ofList ('/' :: cs))).parts =
      (ofString (String.ofList cs)).parts := parts_ofString_append []
  -- no third slash follows those of the anchor
  obtain ⟨c, cs, hslashed, hc⟩ := exists_cons_slashed hne hnames
  have hread : ∀ s, ofString s = ⟨anchorOf s.toList, (ofString s).parts⟩ := fun _ => rfl
  obtain ⟨anchor, names⟩ := p
  rw [toList_text habsolute, hread, String.toList_ofList, Path.mk.injEq]
  cases anchor with
  | relative => simp [isAbsolute] at habsolute
  | root =>
    simp only [anchorText, String.reduceToList, List.cons_append, List.nil_append, hslash, hparts,
      and_true]
    simp [hslashed, anchorOf, hc]
  | doubleRoot =>
    simp only [anchorText, String.reduceToList, List.cons_append, List.nil_append, hslash, hparts,
      and_true]
    simp [hslashed, anchorOf, hc]

/-- A path is seen from another one if it has the names of that one in front. -/
theorem relativeTo?_eq_some_iff {p base seen : Path} :
    p.relativeTo? base = some seen ↔ p.anchor = base.anchor ∧
      ∃ names, p.parts = base.parts ++ names ∧ seen = ⟨.relative, names⟩ := by
  unfold relativeTo?
  split
  · next h =>
    rw [Bool.and_eq_true, decide_eq_true_iff, List.isPrefixOf_iff_prefix] at h
    obtain ⟨hanchor, names, hparts⟩ := h
    rw [← hparts, List.drop_left, Option.some.injEq]
    constructor
    · rintro rfl
      exact ⟨hanchor, names, rfl, rfl⟩
    · rintro ⟨-, names', hnames, rfl⟩
      rw [List.append_cancel_left hnames]
  · next h =>
    refine iff_of_false (by simp) ?_
    rintro ⟨hanchor, names, hparts, -⟩
    rw [Bool.and_eq_true, decide_eq_true_iff, List.isPrefixOf_iff_prefix] at h
    exact h ⟨hanchor, names, hparts.symm⟩

end Path

/-! ## Resolving a path -/

namespace Files

/-- No name has a slash in it. -/
def Spelled.Plain (p : Spelled) : Prop := ∀ name ∈ p.names, '/' ∉ name.toList

/-- No target of a link has a name with a slash in it. -/
def PlainlyMet (met : Met) : Prop := ∀ p r, met.get? p = some (some r) → r.Plain

namespace Spelled.Plain

variable {p : Spelled}

theorem child (h : p.Plain) {name : String} (hname : '/' ∉ name.toList) :
    (p.child name).Plain := by
  intro n hn
  rcases List.mem_append.1 hn with hn | hn
  · exact h n hn
  · rwa [List.mem_singleton.1 hn]

theorem up (h : p.Plain) : p.up.Plain := by
  have hdots : '/' ∉ "..".toList := by decide
  intro n hn
  unfold Spelled.up at hn
  split at hn
  · split at hn
    · exact h n hn
    · rwa [List.mem_singleton.1 hn]
  · simp only at hn
    split at hn
    · rcases List.mem_append.1 hn with hn | hn
      · exact h n hn
      · rwa [List.mem_singleton.1 hn]
    · exact h n (List.mem_of_mem_dropLast hn)

theorem append (h : p.Plain) {rest : List String} (hrest : ∀ name ∈ rest, '/' ∉ name.toList) :
    (p.append rest).Plain := by
  intro n hn
  unfold Spelled.append at hn
  split at hn
  · exact hrest n hn
  · exact (List.mem_append.1 hn).elim (h n) (hrest n)

end Spelled.Plain

theorem PlainlyMet.insert {met : Met} (h : PlainlyMet met) {p : Spelled} {r : Option Spelled}
    (hr : ∀ q, r = some q → q.Plain) : PlainlyMet (met.insert p r) := by
  intro q r' hget
  rw [Assoc.get?_insert] at hget
  split at hget
  · exact hr r' (Option.some.inj hget)
  · exact h q r' hget

section Resolving

variable (t : Tree) (cwd : String)

/-- What has been resolved has plain names, and so has what is known of links. -/
structure Resolving.Plain (r : Resolving) : Prop where
  path : r.path.Plain
  met : PlainlyMet r.met

/-- Going through names keeps names plain if following links does. -/
theorem plain_resolveNames {follow : Spelled → String → Met → Except Unresolved Resolving}
    (hfollow : ∀ path target met r, path.Plain → PlainlyMet met →
      follow path target met = .ok r → r.Plain)
    {names : List String} (hnames : ∀ name ∈ names, '/' ∉ name.toList) {path : Spelled} {met : Met}
    (hpath : path.Plain) (hmet : PlainlyMet met) {r : Resolving}
    (hr : resolveNames t cwd follow path met names = .ok r) : r.Plain := by
  induction names generalizing path met with
  | nil => exact Except.ok.inj hr ▸ ⟨hpath, hmet⟩
  | cons name rest ih =>
    obtain ⟨hname, hrest⟩ := List.forall_mem_cons.1 hnames
    have hnext : (path.child name).Plain := hpath.child hname
    rw [resolveNames] at hr
    split at hr
    · exact ih hrest hpath hmet hr
    split at hr
    · exact ih hrest hpath.up hmet hr
    simp only at hr
    split at hr
    · next target _ =>
      split at hr
      · next resolved hresolved => exact ih hrest (hmet _ _ hresolved) hmet hr
      · exact Except.ok.inj hr ▸ ⟨hnext.append hrest, hmet⟩
      · have hbegun : PlainlyMet (met.insert (path.child name) none) :=
          hmet.insert fun _ h => absurd h (by simp)
        split at hr
        · exact absurd hr (by simp)
        · next r' hr' =>
          obtain ⟨hfollowed, hmet'⟩ := hfollow path target _ r' hpath hbegun hr'
          split at hr
          · refine ih hrest hfollowed (hmet'.insert fun q hq => ?_) hr
            rwa [← Option.some.inj hq]
          · exact Except.ok.inj hr ▸ ⟨hfollowed.append hrest, hmet'⟩
    · exact absurd hr (by simp)
    · exact ih hrest hnext hmet hr

theorem plain_resolveFrom {depth : Nat} {path : Spelled} {s : String} {met : Met}
    (hpath : path.Plain) (hmet : PlainlyMet met) {r : Resolving}
    (hr : resolveFrom t cwd depth path s met = .ok r) : r.Plain := by
  have hsegments : ∀ {s}, ∀ name ∈ Path.segments s, '/' ∉ name.toList := fun _ =>
    Path.no_slash_of_mem_segments
  induction depth generalizing path s met r with
  | zero => exact Except.ok.inj hr ▸ ⟨hpath.append hsegments, hmet⟩
  | succ depth ih =>
    rw [resolveFrom] at hr
    refine plain_resolveNames t cwd (fun path target met r hpath hmet => ih hpath hmet) hsegments ?_
      hmet hr
    split
    · exact fun name hname => absurd hname List.not_mem_nil
    · exact hpath

end Resolving

/-- Collapsing drops names that are none, and makes no new ones. -/
theorem isName_of_mem_collapse {names : List String} (h : ∀ name ∈ names, '/' ∉ name.toList) :
    ∀ name ∈ collapse names, Path.IsName name := by
  induction names using List.reverseRecOn with
  | nil => exact fun name hname => absurd hname List.not_mem_nil
  | append_singleton names last ih =>
    have hkept := ih fun name hname => h name (List.mem_append_left _ hname)
    rw [collapse, List.foldl_append, ← collapse]
    intro name hname
    simp only [List.foldl_cons, List.foldl_nil] at hname
    split_ifs at hname with hnone hup
    · exact hkept name hname
    · exact hkept name (List.mem_of_mem_dropLast hname)
    · rcases List.mem_append.1 hname with hname | hname
      · exact hkept name hname
      · rw [List.mem_singleton.1 hname]
        have hsome : last ≠ "" ∧ last ≠ "." := by simpa using hnone
        exact ⟨hsome.1, hsome.2, h last (by simp)⟩

theorem isName_of_mem_resolve {t : Tree} {cwd s : String} {p : Path}
    (h : resolve t cwd s = .ok p) : p.anchor = .root ∧ ∀ name ∈ p.parts, Path.IsName name := by
  unfold resolve at h
  split at h
  · exact absurd h (by simp)
  · next r hr =>
    have hplain := (plain_resolveFrom t cwd (fun name hname => absurd hname List.not_mem_nil)
      (fun p r h => absurd h (by simp)) hr).path
    simp only at h
    split at h
    · exact absurd h (by simp)
    · exact absurd h (by simp)
    · obtain rfl := Except.ok.inj h
      refine ⟨rfl, isName_of_mem_collapse ?_⟩
      split
      · exact hplain
      · intro name hname
        rcases List.mem_append.1 hname with hname | hname
        · exact Path.no_slash_of_mem_segments hname
        · exact hplain name hname

end Files

/-- A resolved path starts at the root and has proper names. -/
theorem World.isName_of_mem_resolve {w : World} {p q : Path} (h : w.resolve p = .ok q) :
    q.anchor = .root ∧ ∀ name ∈ q.parts, Path.IsName name := by
  unfold World.resolve at h
  split at h
  · next hresolve =>
    obtain rfl := Except.ok.inj h
    exact Files.isName_of_mem_resolve hresolve
  · exact absurd h (by simp)
  · exact absurd h (by simp)

end Overseer
