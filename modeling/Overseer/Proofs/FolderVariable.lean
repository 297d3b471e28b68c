import Mathlib.Algebra.Order.BigOperators.Group.List
import Overseer.Proofs.LineGrammar
import Overseer.Proofs.Paths
import Overseer.Settings.Expand

set_option autoImplicit false

/-! # The workspace folder in settings

The name of the workspace folder is replaced by the root before variables of the environment are, so
that a dollar sign in a name of the root is taken for the beginning of a variable. The folder
denotes the root as long as no variable that is named this way has a value. There is an environment
in which it denotes something else as soon as one that can have a value is named
(`folder_denotes_root`). -/

namespace Overseer

open Overseer.Path

/-! ## Variables that a text names -/

/-- A variable is named behind a dollar sign: between braces, or by as many characters of a name as
there are. -/
inductive Refers : List Char → List Char → List Char → Prop
  | braced {name : List Char} (rest : List Char) (hname : '\x7d' ∉ name) :
      Refers ('\x7b' :: (name ++ '\x7d' :: rest)) name rest
  | bare {name rest : List Char} (hne : name ≠ []) (hname : ∀ c ∈ name, isNameChar c = true)
      (hrest : ∀ c ∈ rest.head?, isNameChar c = false) : Refers (name ++ rest) name rest

theorem refers_iff (cs name rest : List Char) :
    Refers cs name rest ↔
      ∃ length, reference? cs = some (name, length) ∧ cs.drop length = rest := by
  constructor
  · intro h
    cases h with
    | braced rest hname =>
      have hspan := (Output.span_eq_iff (· != '\x7d') (name ++ '\x7d' :: rest) name _).2
        ⟨rfl, fun c hc => bne_iff_ne.2 fun heq => hname (heq ▸ hc), by simp⟩
      rw [List.span_eq_takeWhile_dropWhile, Prod.mk.injEq] at hspan
      refine ⟨name.length + 2, ?_, by simp⟩
      simp [reference?, hspan.1]
    | bare hne hname hrest =>
      have hspan := (Output.span_eq_iff isNameChar (name ++ rest) name rest).2 ⟨rfl, hname, hrest⟩
      rw [List.span_eq_takeWhile_dropWhile, Prod.mk.injEq] at hspan
      refine ⟨name.length, ?_, by simp⟩
      unfold reference?
      split
      · next heq =>
        -- a brace begins no name
        obtain ⟨c, name, rfl⟩ := List.exists_cons_of_ne_nil hne
        obtain ⟨rfl, -⟩ := List.cons_eq_cons.1 heq
        exact absurd (hname _ List.mem_cons_self) (by decide)
      · simp [hspan.1, hne]
  · rintro ⟨length, href, rfl⟩
    unfold reference? at href
    split at href
    · next more =>
      obtain ⟨front, back, hspan⟩ : ∃ front back, more.span (· != '\x7d') = (front, back) :=
        ⟨_, _, rfl⟩
      obtain ⟨rfl, hfront, hback⟩ := (Output.span_eq_iff ..).1 hspan
      rw [List.span_eq_takeWhile_dropWhile, Prod.mk.injEq] at hspan
      simp only [hspan.1] at href
      split at href
      · next hlt =>
        obtain ⟨rfl, rfl⟩ : front = name ∧ front.length + 2 = length := by simpa using href
        cases back with
        | nil => simp at hlt
        | cons c back =>
          obtain rfl : c = '\x7d' := by simpa using hback
          simpa using Refers.braced back fun hmem => absurd (hfront _ hmem) (by decide)
      · exact absurd href (by simp)
    · obtain ⟨front, back, hspan⟩ : ∃ front back, cs.span isNameChar = (front, back) :=
        ⟨_, _, rfl⟩
      obtain ⟨rfl, hfront, hback⟩ := (Output.span_eq_iff ..).1 hspan
      rw [List.span_eq_takeWhile_dropWhile, Prod.mk.injEq] at hspan
      simp only [hspan.1] at href
      split at href
      · exact absurd href (by simp)
      · next hne =>
        obtain ⟨rfl, rfl⟩ : front = name ∧ front.length = length := by simpa using href
        rw [List.drop_left]
        exact .bare (by simpa using hne) hfront hback

/-- A text names a variable if a reference to it is met when the text is read from the left. -/
inductive Names : List Char → String → Prop
  | passed {c : Char} {cs : List Char} {name : String}
      (hc : c = '$' → ∀ other rest, ¬ Refers cs other rest) (h : Names cs name) :
      Names (c :: cs) name
  | here {cs name rest : List Char} (h : Refers cs name rest) :
      Names ('$' :: cs) (String.ofList name)
  | behind {cs other rest : List Char} {name : String} (hother : Refers cs other rest)
      (h : Names rest name) : Names ('$' :: cs) name

/-- Variables that a text names are written in it. -/
theorem Names.isInfix {cs : List Char} {name : String} (h : Names cs name) :
    name.toList <:+: cs := by
  induction h with
  | passed _ _ ih => exact ih.trans (List.suffix_cons ..).isInfix
  | @here _ _ rest h =>
    rw [String.toList_ofList]
    cases h with
    | braced => exact ⟨['$', '\x7b'], '\x7d' :: rest, by simp⟩
    | bare => exact ⟨['$'], rest, by simp⟩
  | behind hother _ ih =>
    obtain ⟨length, -, rfl⟩ := (refers_iff ..).1 hother
    exact ih.trans ((List.drop_suffix ..).trans (List.suffix_cons ..)).isInfix

theorem reference?_eq_none_iff (cs : List Char) :
    reference? cs = none ↔ ∀ name rest, ¬ Refers cs name rest := by
  constructor
  · intro hnone name rest h
    obtain ⟨length, href, -⟩ := (refers_iff cs name rest).1 h
    exact absurd (hnone.symm.trans href) (by simp)
  · intro h
    refine Option.eq_none_iff_forall_ne_some.2 fun ⟨name, length⟩ href => ?_
    exact h name _ ((refers_iff cs name _).2 ⟨length, href, rfl⟩)

/-! ## What becomes of a text -/

section Expanding

variable (value : String → Option String)

/-- What has been treated already is passed over. -/
theorem expandFrom_drop (skip : Nat) (cs : List Char) :
    expandFrom value skip cs = expandFrom value 0 (cs.drop skip) := by
  induction skip generalizing cs with
  | zero => rfl
  | succ skip ih =>
    cases cs with
    | nil => simp [expandFrom]
    | cons c cs => rw [expandFrom, ih, List.drop_succ_cons]

theorem expandFrom_passed {c : Char} {cs : List Char}
    (hc : c = '$' → ∀ name rest, ¬ Refers cs name rest) :
    expandFrom value 0 (c :: cs) = c :: expandFrom value 0 cs := by
  rw [expandFrom]
  split
  · next hdollar => rw [(reference?_eq_none_iff cs).2 (hc hdollar)]
  · rfl

theorem expandFrom_reference {cs name rest : List Char} (h : Refers cs name rest) :
    ∃ reference, cs = reference ++ rest ∧ expandFrom value 0 ('$' :: cs) =
      (value (String.ofList name)).elim ('$' :: reference) String.toList ++
        expandFrom value 0 rest := by
  obtain ⟨length, href, rfl⟩ := (refers_iff cs name rest).1 h
  refine ⟨cs.take length, (List.take_append_drop length cs).symm, ?_⟩
  rw [expandFrom, if_pos rfl, href]
  simp only [expandFrom_drop value length]
  cases value (String.ofList name) <;> rfl

variable {value}

/-- A text stays as it is if no variable that it names has a value. -/
theorem expandFrom_eq_self {cs : List Char} (h : ∀ name, Names cs name → value name = none) :
    expandFrom value 0 cs = cs := by
  induction hlength : cs.length using Nat.strong_induction_on generalizing cs with
  | _ length ih =>
  cases cs with
  | nil => rfl
  | cons c cs =>
    rw [List.length_cons] at hlength
    by_cases hc : c = '$' ∧ ∃ name rest, Refers cs name rest
    · obtain ⟨rfl, name, rest, hrefers⟩ := hc
      obtain ⟨reference, rfl, hstep⟩ := expandFrom_reference value hrefers
      rw [List.length_append] at hlength
      have hrest := ih rest.length (by omega) (fun name hname => h name (.behind hrefers hname)) rfl
      rw [hstep, h _ (.here hrefers), hrest]
      rfl
    · have hpassed : c = '$' → ∀ name rest, ¬ Refers cs name rest :=
        fun hdollar name rest hrefers => hc ⟨hdollar, name, rest, hrefers⟩
      have hrest := ih cs.length (by omega) (fun name hname => h name (.passed hpassed hname)) rfl
      rw [expandFrom_passed value hpassed, hrest]

/-- What a variable stands for takes the place of a reference to it. -/
theorem infix_expandFrom {cs : List Char} {name v : String} (h : Names cs name)
    (hvalue : value name = some v) : v.toList <:+: expandFrom value 0 cs := by
  induction h with
  | passed hc h ih =>
    rw [expandFrom_passed value hc]
    exact (ih hvalue).trans (List.suffix_cons ..).isInfix
  | here h =>
    obtain ⟨reference, -, hstep⟩ := expandFrom_reference value h
    rw [hstep, hvalue]
    exact (List.prefix_append ..).isInfix
  | behind hother h ih =>
    obtain ⟨reference, -, hstep⟩ := expandFrom_reference value hother
    rw [hstep]
    exact (ih hvalue).trans (List.suffix_append ..).isInfix

end Expanding

/-! ## What becomes of the folder -/

theorem replaceFrom_drop (old new : List Char) (skip : Nat) (cs : List Char) :
    Text.replaceFrom old new skip cs = Text.replaceFrom old new 0 (cs.drop skip) := by
  induction skip generalizing cs with
  | zero => rfl
  | succ skip ih =>
    cases cs with
    | nil => simp [Text.replaceFrom]
    | cons c cs => rw [Text.replaceFrom, ih, List.drop_succ_cons]

/-- Nothing is replaced where the first character of what is to be replaced does not occur. -/
theorem replaceFrom_of_not_mem {c : Char} (old new : List Char) {cs : List Char} (h : c ∉ cs) :
    Text.replaceFrom (c :: old) new 0 cs = cs := by
  induction cs with
  | nil => rfl
  | cons d cs ih =>
    rw [List.mem_cons, not_or] at h
    have hprefix : ¬ (c :: old).isPrefixOf (d :: cs) = true := by simp [h.1]
    rw [Text.replaceFrom, if_neg hprefix, ih h.2]

/-- The folder in front is replaced once. -/
theorem replaceAll_workspaceFolder (new : String) {rest : String} (h : '$' ∉ rest.toList) :
    Text.replaceAll workspaceFolder new (workspaceFolder ++ rest) = new ++ rest := by
  obtain ⟨old, hold⟩ : ∃ old, workspaceFolder.toList = '$' :: old := ⟨_, rfl⟩
  have hprefix : ('$' :: old).isPrefixOf ('$' :: (old ++ rest.toList)) = true :=
    List.isPrefixOf_iff_prefix.2 (List.prefix_append ('$' :: old) _)
  rw [← String.toList_inj, Text.replaceAll, String.toList_ofList, String.toList_append,
    String.toList_append, hold, List.cons_append, Text.replaceFrom, if_pos hprefix,
    replaceFrom_drop, List.length_cons, Nat.add_sub_cancel, List.drop_left,
    replaceFrom_of_not_mem old new.toList h]

/-- Whether a variable of the environment can have this name. -/
def CanBeSet (name : String) : Prop := name ≠ "" ∧ '=' ∉ name.toList ∧ '\x00' ∉ name.toList

/-- Whether an environment is one that a process can have. -/
def World.ProperEnvironment (w : World) : Prop :=
  ∀ name value, w.lookupVariable name = some value → CanBeSet name

/-- There are always further names. -/
theorem exists_isName_not_mem (names : List String) : ∃ name, IsName name ∧ name ∉ names := by
  have hlength : ∀ name ∈ names, name.length ≤ (names.map String.length).sum := fun name hname =>
    List.le_sum_of_mem (List.mem_map_of_mem hname)
  refine ⟨String.ofList ('x' :: List.replicate (names.map String.length).sum 'x'), ⟨?_, ?_, ?_⟩, ?_⟩
  · simp [← String.toList_inj]
  · simp [← String.toList_inj]
  · simp
  · intro hmem
    have hle := hlength _ hmem
    simp at hle

section Folder

variable {root : Path} {s : String} (habsolute : root.isAbsolute = true)
include habsolute

theorem exists_cons_text : ∃ cs, root.text.toList = '/' :: cs := by
  rw [toList_text habsolute]
  cases hanchor : root.anchor with
  | relative => simp [isAbsolute, hanchor] at habsolute
  | root => exact ⟨slashed root.parts, by simp [anchorText]⟩
  | doubleRoot => exact ⟨'/' :: slashed root.parts, by simp [anchorText]⟩

/-- Variables are replaced in the text of the root as well. -/
theorem expandPath_workspaceFolder (hs : '$' ∉ s.toList) (w : World) :
    w.expandPath root (workspaceFolder ++ "/" ++ s) = Path.ofString
      (String.ofList (expandFrom w.lookupVariable 0 (root.text ++ "/" ++ s).toList)) := by
  obtain ⟨cs, htext⟩ := exists_cons_text habsolute
  obtain ⟨more, hvalue⟩ : ∃ more, (root.text ++ "/" ++ s).toList = '/' :: more :=
    ⟨cs ++ '/' :: s.toList, by simp [htext]⟩
  have hhome : ∀ home, expandHome home (root.text ++ "/" ++ s) = root.text ++ "/" ++ s := by
    intro home
    unfold expandHome
    split
    · next heq => exact absurd (hvalue.symm.trans heq) (by simp)
    · rfl
  have hexpanded : expandFrom w.lookupVariable 0 ('/' :: more) =
      '/' :: expandFrom w.lookupVariable 0 more :=
    expandFrom_passed _ fun h => absurd h (by decide)
  have hresult : ∀ cs, (Path.ofString (String.ofList ('/' :: cs))).isAbsolute = true := by
    intro cs
    simp only [isAbsolute, ofString, String.toList_ofList, bne_iff_ne]
    unfold anchorOf
    split <;> simp_all
  have hslash : '$' ∉ ("/" ++ s).toList := by simpa using hs
  rw [World.expandPath, String.append_assoc, replaceAll_workspaceFolder _ hslash,
    ← String.append_assoc]
  simp only [hhome, expandVariables]
  rw [hvalue, hexpanded, if_pos (hresult _)]

/-- Without a value for a variable that is named, only the folder is replaced. -/
theorem expandPath_of_unset (hs : '$' ∉ s.toList) {w : World}
    (hunset : ∀ name, Names (root.text ++ "/" ++ s).toList name → w.lookupVariable name = none) :
    w.expandPath root (workspaceFolder ++ "/" ++ s) = Path.ofString (root.text ++ "/" ++ s) := by
  rw [expandPath_workspaceFolder habsolute hs, expandFrom_eq_self hunset, String.ofList_toList]

/-- Without variables the folder is read as the root. -/
theorem ofString_text_slash (hnames : ∀ name ∈ root.parts, IsName name)
    (hrelative : (Path.ofString s).isAbsolute = false) (hne : root.parts ≠ []) :
    Path.ofString (root.text ++ "/" ++ s) = root / Path.ofString s := by
  have hlist : root.text ++ "/" ++ s = String.ofList (root.text.toList ++ '/' :: s.toList) := by
    rw [← String.toList_inj]
    simp
  rw [hlist, ofString_text_append habsolute hne hnames, String.ofList_toList,
    div_of_relative hrelative]

/-- A slash behind an anchor makes another anchor. -/
theorem ofString_text_slash_ne (hrelative : (Path.ofString s).isAbsolute = false)
    (hempty : root.parts = []) :
    Path.ofString (root.text ++ "/" ++ s) ≠ root / Path.ofString s := by
  intro heq
  have hanchor : anchorOf (root.text ++ "/" ++ s).toList = root.anchor := by
    rw [div_of_relative hrelative] at heq
    exact congrArg Path.anchor heq
  rw [String.toList_append, String.toList_append, toList_text habsolute, hempty] at hanchor
  have hrelative' : anchorOf s.toList = .relative := by simpa [isAbsolute, ofString] using hrelative
  cases hroot : root.anchor with
  | relative => simp [isAbsolute, hroot] at habsolute
  | root =>
    cases hs : s.toList with
    | nil => simp [hroot, hs, anchorText, slashed, anchorOf] at hanchor
    | cons c cs =>
      have hc : c ≠ '/' := by
        rintro rfl
        rw [hs] at hrelative'
        unfold anchorOf at hrelative'
        split at hrelative' <;> simp_all
      simp [hroot, hs, anchorText, slashed, anchorOf, hc] at hanchor
  | doubleRoot => simp [hroot, anchorText, slashed, anchorOf] at hanchor

/-- If a variable that is named can be set, it can be set so that the folder is elsewhere. -/
theorem exists_elsewhere (hrelative : (Path.ofString s).isAbsolute = false) (hs : '$' ∉ s.toList)
    {name : String} (hname : Names (root.text ++ "/" ++ s).toList name) (hset : CanBeSet name) :
    ∃ w : World, w.ProperEnvironment ∧
      w.expandPath root (workspaceFolder ++ "/" ++ s) ≠ root / Path.ofString s := by
  obtain ⟨other, hother, hnew⟩ := exists_isName_not_mem (root.parts ++ (Path.ofString s).parts)
  obtain ⟨w, hlookup⟩ : ∃ w : World, ∀ name', w.lookupVariable name' =
      if name' = name then some ("/" ++ other ++ "/") else none :=
    ⟨{ environment := Assoc.empty.insert name ("/" ++ other ++ "/") },
      fun _ => Assoc.get?_insert ..⟩
  have hproper : w.ProperEnvironment := by
    intro name' value hvalue
    rw [hlookup] at hvalue
    split at hvalue
    · next heq => exact heq ▸ hset
    · exact absurd hvalue (by simp)
  refine ⟨w, hproper, fun heq => hnew ?_⟩
  obtain ⟨front, back, hexpanded⟩ := infix_expandFrom hname ((hlookup name).trans (if_pos rfl))
  have hcut : front ++ ("/" ++ other ++ "/").toList ++ back =
      front ++ '/' :: (slashed [other] ++ '/' :: back) := by
    simp [slashed]
  have hmem : other ∈ (w.expandPath root (workspaceFolder ++ "/" ++ s)).parts := by
    rw [expandPath_workspaceFolder habsolute hs, ← hexpanded, hcut, parts_ofString_append,
      parts_ofString_append, parts_ofString_slashed (by simp) (by simpa using hother)]
    simp
  rwa [heq, div_of_relative hrelative] at hmem

end Folder

/-- The folder denotes the root where no variable that is named has a value. It does so in every
environment only if no variable can be named, and if the root is more than an anchor. -/
theorem folder_denotes_root {root : Path} {t s : String} (hroot : root = Path.ofString t)
    (habsolute : root.isAbsolute = true) (hrelative : (Path.ofString s).isAbsolute = false)
    (hs : '$' ∉ s.toList) :
    (∀ w : World, root.parts ≠ [] →
      (∀ name, Names (root.text ++ "/" ++ s).toList name → w.lookupVariable name = none) →
        w.expandPath root (workspaceFolder ++ "/" ++ s) = root / Path.ofString s) ∧
    ((∀ w : World, w.ProperEnvironment →
        w.expandPath root (workspaceFolder ++ "/" ++ s) = root / Path.ofString s) ↔
      root.parts ≠ [] ∧ ∀ name, CanBeSet name → ¬ Names (root.text ++ "/" ++ s).toList name) := by
  have hnames : ∀ name ∈ root.parts, IsName name := by
    rintro name hname
    exact isName_of_mem_ofString (hroot ▸ hname)
  have hdenotes : ∀ w : World, root.parts ≠ [] →
      (∀ name, Names (root.text ++ "/" ++ s).toList name → w.lookupVariable name = none) →
        w.expandPath root (workspaceFolder ++ "/" ++ s) = root / Path.ofString s := by
    intro w hne hunset
    rw [expandPath_of_unset habsolute hs hunset,
      ofString_text_slash habsolute hnames hrelative hne]
  refine ⟨hdenotes, fun h => ⟨fun hempty => ?_, fun name hset hname => ?_⟩, ?_⟩
  · -- nothing is set, and the anchor is another one all the same
    have hnone : ∀ name, ({} : World).lookupVariable name = none := fun _ => rfl
    have hdenoted := h {} fun name value hvalue =>
      absurd ((hnone name).symm.trans hvalue) (by simp)
    rw [expandPath_of_unset habsolute hs fun name _ => hnone name] at hdenoted
    exact ofString_text_slash_ne habsolute hrelative hempty hdenoted
  · obtain ⟨w, hproper, hne⟩ := exists_elsewhere habsolute hrelative hs hname hset
    exact hne (h w hproper)
  · rintro ⟨hne, hnone⟩ w hproper
    refine hdenotes w hne fun name hname => ?_
    refine Option.eq_none_iff_forall_ne_some.2 fun value hvalue => ?_
    exact hnone name (hproper name value hvalue) hname

theorem folder_denotes_root_beside_variable :
    ({ environment := Assoc.ofList [("Y", "z")] } : World).expandPath (Path.ofString "/w$X")
      (workspaceFolder ++ "/" ++ "s") = Path.ofString "/w$X" / Path.ofString "s" := by
  refine (folder_denotes_root rfl (by decide) (by decide) (by decide)).1 _ (by decide) ?_
  intro name hname
  have hne : name ≠ "Y" := by
    rintro rfl
    exact absurd hname.isInfix (by decide)
  simp [World.lookupVariable, Assoc.ofList, Assoc.insertAll, Assoc.get?_insert, hne]

/-- A variable whose name follows a dollar sign in the name of the root. -/
theorem folder_renamed_by_variable :
    ({ environment := Assoc.ofList [("X", "y")] } : World).expandPath (Path.ofString "/w$X")
      (workspaceFolder ++ "/" ++ "s") = Path.ofString "/wy/s" ∧
    Path.ofString "/w$X" / Path.ofString "s" = ⟨.root, ["w$X", "s"]⟩ ∧
    Path.ofString "/wy/s" = ⟨.root, ["wy", "s"]⟩ := by
  decide

end Overseer
