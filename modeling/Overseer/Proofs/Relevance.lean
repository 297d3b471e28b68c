import Overseer.Proofs.PatternLines
import Overseer.Watch

set_option autoImplicit false

/-! # Which changes matter

Whether a changed path matters is decided by two lists of patterns, each pattern about a single name
of the path as it is seen from the root. Read name by name (`Matters`) the rule needs no patterns:
no directory on the way is an environment, a cache or a store of versions, no name is that of the
daemon's status file, and some name is that of a source or of a configuration file. So it is
whatever library reads the patterns, if it reads lines about names as they are documented. -/

namespace Overseer.Watch

open Overseer.Path Wildmatch

/-! ## The rule for names -/

/-- Directories below which no change matters. -/
def ignoredDirectories : List String := [".venv", "venv", "env", "__pycache__", ".mypy_cache",
  ".tox", ".nox", "node_modules", ".git", ".hg", ".svn"]

/-- Files that configure the checker. -/
def configurationFiles : List String := ["mypy.ini", ".mypy.ini", "setup.cfg", "pyproject.toml"]

/-- A change below the root matters because of the names on the way to it. -/
structure Matters (names : List String) : Prop where
  /-- The last name need not be a directory. -/
  looked : ∀ name ∈ names.dropLast, name ∉ ignoredDirectories
  status : ".dmypy.json" ∉ names
  affects : ∃ name ∈ names, ".py".toList <:+ name.toList ∨ ".pyi".toList <:+ name.toList ∨
    name ∈ configurationFiles

/-! ## The two lists -/

/-- The lines of the list of ignored paths, as lines about names. -/
def ignoredLines : List Line := [
  .remark " Environments and caches",
  .directory ".venv", .directory "venv", .directory "env", .directory "__pycache__",
  .directory ".mypy_cache", .name ".dmypy.json", .directory ".tox", .directory ".nox",
  .directory "node_modules",
  .empty,
  .remark " Version control",
  .directory ".git", .directory ".hg", .directory ".svn"]

theorem text_ignoredLines : ignoredLines.map Line.text = ignoredPatterns := rfl

theorem isPlain_ignoredLines : ∀ line ∈ ignoredLines, line.IsPlain := by decide

theorem selects_ignoredLines_iff {names : List String} :
    (∃ line ∈ ignoredLines, line.Selects names) ↔
      ".dmypy.json" ∈ names ∨ ∃ name ∈ names.dropLast, name ∈ ignoredDirectories := by
  simp only [ignoredLines, ignoredDirectories, List.mem_cons, List.not_mem_nil, or_false,
    exists_eq_or_imp, exists_eq_left, Line.Selects, false_or, and_or_left, exists_or,
    exists_eq_right]
  -- the file stands in the midst of the directories
  tauto

/-- The patterns of paths that can affect a check, as lines about names. -/
def triggerNames : List Line :=
  .ending ".py" :: .ending ".pyi" :: configurationFiles.map .name

theorem text_triggerNames : triggerNames.map Line.text = triggerLines [] := rfl

theorem isPlain_triggerNames : ∀ line ∈ triggerNames, line.IsPlain := by decide

theorem selects_triggerNames_iff {names : List String} :
    (∃ line ∈ triggerNames, line.Selects names) ↔
      ∃ name ∈ names, ".py".toList <:+ name.toList ∨ ".pyi".toList <:+ name.toList ∨
        name ∈ configurationFiles := by
  simp only [triggerNames, List.mem_cons, List.mem_map, exists_eq_or_imp, Line.Selects,
    and_or_left, exists_or]
  refine or_congr_right (or_congr_right ⟨?_, ?_⟩)
  · rintro ⟨_, ⟨name, hname, rfl⟩, hmem⟩
    exact ⟨name, hmem, hname⟩
  · rintro ⟨name, hmem, hname⟩
    exact ⟨_, ⟨name, hname, rfl⟩, hmem⟩

/-- A path matters if the one list does not select it and the other one does. -/
theorem matters_iff_selects (names : List String) :
    Matters names ↔ (¬ ∃ line ∈ ignoredLines, line.Selects names) ∧
      ∃ line ∈ triggerNames, line.Selects names := by
  rw [selects_ignoredLines_iff, selects_triggerNames_iff, not_or]
  constructor
  · intro h
    exact ⟨⟨h.status, fun ⟨name, hmem, hname⟩ => h.looked name hmem hname⟩, h.affects⟩
  · rintro ⟨⟨hstatus, hlooked⟩, haffects⟩
    exact ⟨fun name hmem hname => hlooked ⟨name, hmem, hname⟩, hstatus, haffects⟩

/-! ## The whole decision -/

section Decision

variable {w : World} {root r q : Path} {configFile : Option String} {path : String}
  (hroot : w.resolve root = .ok r) (hpath : w.resolve (r / Path.ofString path) = .ok q)
include hroot hpath

/-- Without a configured file a path is inside or outside. -/
theorem position_eq (hconfig : ∀ c ∈ configFile, c = "") :
    position w root configFile path =
      .ok (match q.relativeTo? r with | some p => .inside p.text | none => .outside) := by
  have hjoin : (if (Path.ofString path).isAbsolute then Path.ofString path
      else r / Path.ofString path) = r / Path.ofString path := by
    split
    · next h => exact (if_pos h).symm
    · rfl
  unfold position
  simp only [hroot, hjoin, hpath, bind, Except.bind]
  cases configFile with
  | none => cases q.relativeTo? r <;> rfl
  | some c =>
    rw [hconfig c rfl]
    cases q.relativeTo? r <;> rfl

/-- Without a configured file and without own patterns the two lists decide. -/
theorem isRelevant_eq (hconfig : ∀ c ∈ configFile, c = "")
    (hown : w.pathExists (r.child ignoreFile) = .ok false) {ignored triggers : String → Bool}
    (hignored : w.libraries.patterns ignoredPatterns = .ok ignored)
    (htriggers : w.libraries.patterns (triggerLines []) = .ok triggers) :
    isRelevant w root configFile path =
      .ok (match q.relativeTo? r with
        | some p => !ignored p.text && triggers p.text
        | none => false) := by
  have hrules : ignoreRules w r = .ok ignored := by
    simp [ignoreRules, hown, hignored, bind, Except.bind, pure, Except.pure]
  have hposition := position_eq hroot hpath hconfig
  simp only [isRelevant, isRelevantWith, hroot, hposition, hrules, Watch.triggers, htriggers, bind,
    Except.bind]
  cases q.relativeTo? r with
  | none => rfl
  | some p =>
    simp only
    cases ignored p.text <;> rfl

theorem isRelevant_iff_matters (hlibrary : NamesRead w.libraries.patterns)
    (hline : '\n' ∉ q.text.toList) (hconfig : ∀ c ∈ configFile, c = "")
    (hown : w.pathExists (r.child ignoreFile) = .ok false) :
    ∃ relevant, isRelevant w root configFile path = .ok relevant ∧
      (relevant = true ↔ ∃ names, q.parts = r.parts ++ names ∧ Matters names) := by
  obtain ⟨ignored, hignored⟩ := hlibrary.reads _ isPlain_ignoredLines
  obtain ⟨triggers, htriggers⟩ := hlibrary.reads _ isPlain_triggerNames
  refine ⟨_, isRelevant_eq hroot hpath hconfig hown (text_ignoredLines ▸ hignored)
    (text_triggerNames ▸ htriggers), ?_⟩
  obtain ⟨hanchor, hnames⟩ := World.isName_of_mem_resolve hpath
  have hsame : q.anchor = r.anchor := hanchor.trans (World.isName_of_mem_resolve hroot).1.symm
  cases hseen : q.relativeTo? r with
  | none =>
    refine iff_of_false Bool.false_ne_true ?_
    rintro ⟨names, hparts, -⟩
    have hsome := relativeTo?_eq_some_iff.2 ⟨hsame, names, hparts, rfl⟩
    exact absurd (hseen.symm.trans hsome) (by simp)
  | some seen =>
    obtain ⟨-, names, hparts, rfl⟩ := relativeTo?_eq_some_iff.1 hseen
    have hbelow : ∀ name ∈ names, name ∈ q.parts := fun name hname =>
      hparts ▸ List.mem_append_right _ hname
    have hnames' : ∀ name ∈ names, IsName name := fun name hname => hnames name (hbelow name hname)
    have hlf : ∀ name ∈ names, '\n' ∉ name.toList := by
      intro name hname hlf
      rw [toList_text (by simp [isAbsolute, hanchor])] at hline
      exact hline (List.mem_append_right _ (mem_slashed_of_mem (hbelow name hname) hlf))
    have hbehind : (∃ names', q.parts = r.parts ++ names' ∧ Matters names') ↔ Matters names := by
      simp [hparts]
    rw [hbehind, matters_iff_selects, Bool.and_eq_true, Bool.not_eq_true', ← Bool.not_eq_true,
      hlibrary.selects_iff _ _ isPlain_ignoredLines hignored names hnames' hlf,
      hlibrary.selects_iff _ _ isPlain_triggerNames htriggers names hnames' hlf]

end Decision

/-- A workspace with a link to a directory that is named like a source. -/
def linkedDirectory : World := { files := Files.Tree.put {} ["w", "main"] (.link "lib/code.py") }

/-- What is named like an environment may matter if it is the last name. -/
theorem isRelevant_env_in_linkedDirectory :
    isRelevant linkedDirectory (Path.ofString "/w") none "main/env" = .ok true := by
  have hroot : linkedDirectory.resolve (Path.ofString "/w") = .ok ⟨.root, ["w"]⟩ := by
    decide +kernel
  have hpath : linkedDirectory.resolve (⟨.root, ["w"]⟩ / Path.ofString "main/env") =
      .ok ⟨.root, ["w", "lib", "code.py", "env"]⟩ := by
    decide +kernel
  obtain ⟨relevant, hrelevant, hiff⟩ := isRelevant_iff_matters hroot hpath namesRead_builtIn
    (by decide) (fun c (hc : c ∈ none) => absurd hc (by simp)) (by decide +kernel)
  have hmatters : Matters ["lib", "code.py", "env"] :=
    ⟨by decide, by decide, "code.py", by decide, .inl (by decide)⟩
  rw [hrelevant, hiff.2 ⟨_, rfl, hmatters⟩]

end Overseer.Watch
