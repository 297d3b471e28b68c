import Overseer.Proofs.Reports

set_option autoImplicit false

/-! # Findings are sorted, filed and counted

What a report says is sorted by the path of the file or by the number of the fragment. Sorting
neither loses nor moves anything (`Partitions`): keys stand in the order in which they first occur,
each with what goes by it, also if many ways to write a path lead to the same file. Since a change
of a collection files exactly these groups, the number in the result of a check is that of the
diagnostics that are filed afterwards (`Totals`).

It is so for every check of a whole workspace, and for a check of fragments unless there is nothing
to check and a file has the name of the document: then nothing is counted, and the fragments stay as
they were (`counted_as_filed`). -/

namespace Overseer

open Op History Chronicle

/-! ## Sorting by a key -/

namespace Assoc

variable {α κ ν : Type} [DecidableEq κ]

/-- A map has the members of a list sorted by a key: the keys in the order in which they first
occur, and under each of them what becomes of its members, in order. -/
structure Partitions (m : Assoc κ (List ν)) (xs : List α) (key : α → κ) (value : α → ν) : Prop where
  keys : m.keys = (xs.map key).eraseDups
  members : ∀ e ∈ m.entries, e.2 = (xs.filter fun x => key x = e.1).map value
  ne_nil : ∀ e ∈ m.entries, e.2 ≠ []

theorem keys_insert {β : Type} (m : Assoc κ β) (k : κ) (v : β) :
    (m.insert k v).keys = if k ∈ m.keys then m.keys else m.keys ++ [k] := by
  split
  · next hk =>
    rw [keys, insert, dif_pos hk]
    exact keys_replace m.entries k v
  · next hk =>
    rw [keys, entries_insert_of_not_mem m k v hk, List.map_append]
    rfl

/-- Groups stand in the order in which their keys first occur. -/
theorem keys_group (l : List (κ × ν)) : (group l).keys = (l.map Prod.fst).eraseDups := by
  induction l using List.reverseRecOn with
  | nil => rfl
  | append_singleton l e ih =>
    rw [group_concat, keys_insert, ih, List.map_append, List.eraseDups_append]
    by_cases he : e.1 ∈ l.map Prod.fst
    · simp [List.removeAll, he]
    · simp [List.removeAll, he, List.eraseDups_cons]

theorem partitions_group (xs : List α) (key : α → κ) (value : α → ν) :
    (group (xs.map fun x => (key x, value x))).Partitions xs key value where
  keys := by
    rw [keys_group, List.map_map]
    rfl
  members e he := by
    have hgroup := getD_get?_group (xs.map fun x => (key x, value x)) e.1
    rw [(get?_eq_some_iff _ e.1 e.2).2 he, List.filter_map, List.map_map] at hgroup
    exact hgroup
  ne_nil _ := group_ne_nil

end Assoc

/-- Findings whose paths can be resolved are sorted by these. -/
theorem World.exists_partitions {w : World} {found : List Finding}
    (hpaths : ∀ f ∈ found, ∃ p, w.resolve (Path.ofString f.file) = .ok p) :
    ∃ place : Finding → String, (∀ f ∈ found, w.documentPath f.file = .ok (place f)) ∧
      ∃ files, w.diagnosticsByFile found = .ok files ∧
        files.Partitions found place Diagnostic.ofFinding := by
  have hplace : ∃ place : Finding → String, ∀ f ∈ found, w.documentPath f.file = .ok (place f) := by
    refine ⟨fun f => (w.documentPath f.file).toOption.getD "", fun f hf => ?_⟩
    obtain ⟨p, hp⟩ := hpaths f hf
    have hok : w.documentPath f.file = .ok p.text := by
      rw [documentPath, hp]
      rfl
    simp only [hok, Except.toOption, Option.getD_some]
  obtain ⟨place, hplace⟩ := hplace
  refine ⟨place, hplace, _, ?_, Assoc.partitions_group found place Diagnostic.ofFinding⟩
  have hsorted : (found.mapM fun f => do return (← w.documentPath f.file, Diagnostic.ofFinding f)) =
      .ok (found.map fun f => (place f, Diagnostic.ofFinding f)) := by
    refine mapM_eq_ok fun f hf => ?_
    rw [hplace f hf]
    rfl
  rw [diagnosticsByFile, hsorted]
  rfl

/-! ## The end of a check -/

/-- What the number in a good result of a check that was not skipped says of what is filed before
and afterwards: it is the number of diagnostics under files or under the fragments of the document.
But if a file with the name of the document kept the fragments from being cleared, it is not, unless
there was nothing to clear. -/
structure Request.Totals (q : Request) (r : CheckResult)
    (before after : List (DocumentKey × List Diagnostic)) : Prop where
  whole : q.isWhole = true → r.diagnostics = (Collection.under DocumentKey.isFile after).length
  fragments : ∀ document, q.document? = some document →
    (r.diagnostics = (Collection.under (DocumentKey.isFragmentOf document) after).length ↔
      ¬ (q.Obstructed document r before ∧
        Collection.under (DocumentKey.isFragmentOf document) before ≠ []))

/-- Dropping a file leaves the fragments of all documents in place. -/
theorem Collection.under_of_not_file (entries : List (DocumentKey × List Diagnostic))
    (document name : String) :
    under (DocumentKey.isFragmentOf document) (entries.filter fun e => e.1 ≠ .file name) =
      under (DocumentKey.isFragmentOf document) entries := by
  have hfragment : ∀ k : DocumentKey, k.isFragmentOf document = true → k ≠ .file name := by
    rintro _ hk rfl
    exact absurd hk (by simp [DocumentKey.isFragmentOf])
  rw [under, under, List.filter_filter]
  congr 1
  refine List.filter_congr fun e _ => ?_
  cases hk : e.1.isFragmentOf document with
  | false => rfl
  | true => simp [hfragment e.1 hk]

namespace History

variable {h : History} {s : State} {reply : Except Fault Reply}

/-- A check that ends well and was not skipped counts what is filed for its workspace, if that is
still registered. -/
def Totalled (h : History) (s : State) (reply : Except Fault Reply) : Prop :=
  ∀ r, reply = .ok (.checked r) → r.ok = true → r.skipped = false → ∀ q ∈ h.request?,
    q.isCheck = true → ∀ n ∈ h.subject?, s.registry.get? (s.key n) = some n →
    r.workspace = s.key n ∧ q.Totals r (h.start.filed (s.key n)) (s.filed (s.key n))

theorem Settled.totalled (hsettled : h.Settled s reply)
    (hknown : ∀ n ∈ h.subject?, n < h.start.registrations.length) : h.Totalled s reply := by
  rintro r rfl hok hskipped q hq hcheck n hn hregistered
  have htended := tended_of_registered hsettled.steady.1.2 hn (hknown n hn) hregistered
  have hverdict := hsettled.verdict?_eq hq hcheck hn hok
  have hcounted := hsettled.counted _ htended
  have hrefiled := hsettled.refiled _ htended
  rw [Counted, hverdict] at hcounted
  rw [Refiled, hverdict] at hrefiled
  obtain ⟨hwhole, hfragments, hobstructed⟩ := hcounted hskipped
  refine ⟨hsettled.named q hq hcheck n hn r rfl hok, hwhole, fun document hdocument => ?_⟩
  by_cases hfile : q.Obstructed document r (h.start.filed (s.key n))
  · -- nothing is counted, and the fragments are as they were
    rw [hobstructed document hdocument hfile, (hrefiled.2 document hdocument).1 hfile,
      Collection.under_of_not_file, eq_comm, List.length_eq_zero_iff]
    simp [hfile]
  · exact iff_of_true (hfragments document hdocument hfile) fun h => hfile h.1

end History

/-- Findings are sorted by the resolved path of their file, and findings in fragments by the number
of the fragment, in order and without loss. In every session, a check that ends well and was not
skipped counts the diagnostics that are filed afterwards for its workspace, if that is still
registered: for files, or for the fragments of the document unless a file with its name kept them
from being cleared. This goes for a request that is made next, whatever happens while it waits, and
for all that have come to an end. -/
theorem counted_as_filed (setup : Setup) (moves : List Move) :
    (∀ (w : World) (found : List Finding),
      (∀ f ∈ found, ∃ p, w.resolve (Path.ofString f.file) = .ok p) →
      ∃ place : Finding → String, (∀ f ∈ found, w.documentPath f.file = .ok (place f)) ∧
        ∃ files, w.diagnosticsByFile found = .ok files ∧
          files.Partitions found place Diagnostic.ofFinding) ∧
    (∀ rs : List Rebased, (Rebased.group rs).Partitions rs Rebased.fragment Rebased.finding) ∧
    (∀ (q : Request) (i : TaskId), q.isKnown (after setup moves).session.state = true →
      q.operation.Keeps (conduct i) (fun reply h s => h.Totalled s reply)
        (opening i q (after setup moves).session.state (after setup moves).session.state)
        (after setup moves).session.state) ∧
    ∀ (m : Moment) (h : History), m :: h <:+ (after setup moves).history → ∀ reply,
      m.what = .ended reply → (h.story m.who).Totalled m.state reply :=
  ⟨fun _ _ => World.exists_partitions, fun rs => Assoc.partitions_group rs _ _,
    all_checks_of_settled (fun hsettled hknown => hsettled.totalled hknown) setup moves⟩

/-- A finding in some file. -/
def Sample.inFile (file : String) : Finding := ⟨file, 0, 0, 0, 0, "error", "Bad", none, none⟩

/-- Three findings, two of which are about the same file under different names. -/
def Sample.spellings : List Finding :=
  [Sample.inFile "a.py", Sample.inFile "/b.py", Sample.inFile "./a.py"]

/-- They are sorted into two groups, and the finding in the cell of a document that has the name of
a file is counted. -/
theorem counted_as_filed_beside_file :
    (∃ files, World.diagnosticsByFile {} Sample.spellings = .ok files ∧
      files.keys = ["/cwd/a.py", "/b.py"]) ∧
    ∃ (m : Moment) (h : History) (q : Request) (r : CheckResult),
      m :: h = (after .small sameName).history ∧ m.what = .ended (.ok (.checked r)) ∧
      q.document? = some "/cwd/a.py" ∧ r.diagnostics = 1 ∧
      q.Totals r ((History.story h m.who).start.filed "/w") (m.state.filed "/w") := by
  constructor
  · have hplaces : Sample.spellings.map (fun f => (World.documentPath {} f.file).toOption) =
        [some "/cwd/a.py", some "/b.py", some "/cwd/a.py"] := by
      decide +kernel
    have hresolved : Sample.spellings.all (fun f =>
        (World.resolve {} (Path.ofString f.file)).toOption.isSome) = true := by
      decide +kernel
    have hpaths : ∀ f ∈ Sample.spellings,
        ∃ p, World.resolve {} (Path.ofString f.file) = .ok p := by
      intro f hf
      obtain ⟨p, hp⟩ := Option.isSome_iff_exists.1 (List.all_eq_true.1 hresolved f hf)
      exact ⟨p, eq_ok_of_toOption hp⟩
    obtain ⟨place, hplace, files, hfiles, hsorted⟩ :=
      (counted_as_filed .small sameName).1 {} Sample.spellings hpaths
    have hsome : (Sample.spellings.map place).map some =
        ["/cwd/a.py", "/b.py", "/cwd/a.py"].map some := by
      rw [List.map_map]
      refine Eq.trans (List.map_congr_left fun f hf => ?_) hplaces
      rw [hplace f hf]
      rfl
    have hsame := List.map_injective_iff.2 (Option.some_injective String) hsome
    refine ⟨files, hfiles, ?_⟩
    rw [hsorted.keys, hsame]
    decide
  · have hrun : (after .small sameName).atLast (fun m h =>
        m.what.result?.any (fun r => r.ok && !r.skipped && r.diagnostics == 1) &&
        (History.story h m.who).request?.bind Request.document? == some "/cwd/a.py" &&
        (History.story h m.who).subject? == some 0 && m.state.key 0 == "/w" &&
        m.state.registry.get? "/w" == some 0) = true := by
      decide +kernel
    obtain ⟨m, h, hpast, hlast⟩ := exists_of_atLast hrun
    simp only [Bool.and_eq_true, beq_iff_eq, Option.any_eq_true, Option.bind_eq_some_iff,
      Bool.not_eq_true', and_assoc] at hlast
    obtain ⟨⟨r, hr, hok, hskipped, hcount⟩, ⟨q, hq, hdocument⟩, hsubject, hkey, hregistered⟩ :=
      hlast
    have hended := Happening.ended_of_result? hr
    obtain ⟨-, htotals⟩ := (counted_as_filed .small sameName).2.2.2 m h ⟨[], hpast⟩ _ hended r rfl
      hok hskipped q hq (Check.isCheck_of_document? hdocument) 0 hsubject
      (by rw [hkey]; exact hregistered)
    rw [hkey] at htotals
    exact ⟨m, h, q, r, hpast, hended, hdocument, hcount, htotals⟩

/-- A check of a document without any cells counts nothing, and the diagnostic of a cell is still
there. -/
theorem fragment_not_counted :
    (after .small emptied).history.head?.bind (fun m => m.what.result?) =
        some { workspace := "/w", ok := true, outcome := some .nothingToCheck } ∧
      (Collection.under (DocumentKey.isFragmentOf "/cwd/a.py")
        ((after .small emptied).session.state.filed "/w")).length = 1 := by
  decide +kernel

end Overseer
