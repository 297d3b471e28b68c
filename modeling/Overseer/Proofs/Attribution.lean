import Overseer.Proofs.FragmentChecks
import Overseer.Proofs.FragmentLines

set_option autoImplicit false

/-! # Where the diagnostics of a fragment come from

The checker is given the fragments of a document as one buffer, and it may report on other files
as well. What it reports is attributed by line numbers alone: a diagnostic of a fragment stems
from a finding whose first and last line came from that fragment (`StemsFrom`), and every such
finding leads to a diagnostic, whatever file it is about (`attributed_by_lines`). So findings about
the buffer are the only ones to be attributed as long as no other finding is on lines of one
fragment, and a module that is imported by a cell may be taken for the cell. -/

namespace Overseer

open Chronicle

/-- A finding is about the buffer that the checker was given as a text. -/
def Finding.IsAboutBuffer (f : Finding) : Prop :=
  f.file = "<string>" ∨ "/<string>".toList <:+ f.file.toList

instance (f : Finding) : Decidable f.IsAboutBuffer :=
  inferInstanceAs (Decidable (_ ∨ _))

namespace Buffer

/-- A diagnostic of the fragment with a number is a finding whose first and last line came from
fragments with that number; all but the lines is as it was. -/
def StemsFrom (fragments : List Fragment) (language : String) (f : Finding) (index : Int)
    (d : Diagnostic) : Prop :=
  ∃ g l g' l', CameFrom fragments language f.line g l ∧
    CameFrom fragments language f.endLine g' l' ∧ g.index = index ∧ g'.index = index ∧
    d = Diagnostic.ofFinding { f with line := (l : Nat), endLine := (l' : Nat) }

variable {fragments : List Fragment} {language : String}

theorem rebase_eq_ok_iff (f : Finding) (r : Rebased) :
    (ofFragments fragments language).map.rebase f = .ok r ↔
      ∃ g l g' l', CameFrom fragments language f.line g l ∧
        CameFrom fragments language f.endLine g' l' ∧ g.index = r.fragment ∧
        g'.index = r.fragment ∧
        r.finding = { f with line := (l : Nat), endLine := (l' : Nat) } := by
  simp only [LineMap.rebase]
  constructor
  · intro h
    split at h
    · next start stop hstart hstop =>
      obtain ⟨g, l, hg, rfl⟩ := (resolve_eq_some_iff fragments language f.line start).1 hstart
      obtain ⟨g', l', hg', rfl⟩ := (resolve_eq_some_iff fragments language f.endLine stop).1 hstop
      split at h
      · next hsame =>
        obtain rfl := Except.ok.inj h
        exact ⟨g, l, g', l', hg, hg', rfl, hsame.symm, by simp⟩
      · exact absurd h (by simp)
    · exact absurd h (by simp)
  · rintro ⟨g, l, g', l', hg, hg', hindex, hindex', hfinding⟩
    rw [(resolve_eq_some_iff fragments language f.line _).2 ⟨g, l, hg, rfl⟩,
      (resolve_eq_some_iff fragments language f.endLine _).2 ⟨g', l', hg', rfl⟩]
    obtain ⟨number, finding⟩ := r
    simp only at hindex hindex' hfinding
    subst hindex hfinding
    simp [hindex']

/-- The groups of moved findings hold the findings that could be moved. -/
theorem mem_group_iff_rebase (found : List Finding) (index : Int) (finding : Finding) :
    (∃ fs, (index, fs) ∈ (Rebased.group ((ofFragments fragments language).map.rebaseAll
        found)).entries ∧ finding ∈ fs) ↔
      ∃ f ∈ found, (ofFragments fragments language).map.rebase f = .ok ⟨index, finding⟩ := by
  rw [Rebased.group, Assoc.mem_group_iff, List.mem_map]
  constructor
  · rintro ⟨r, hr, heq⟩
    obtain ⟨rfl, rfl⟩ := Prod.mk.inj heq
    obtain ⟨f, hf, hrebase⟩ := List.mem_filterMap.1 hr
    refine ⟨f, hf, ?_⟩
    cases hmoved : (ofFragments fragments language).map.rebase f with
    | ok r' => simpa [hmoved, Except.toOption] using hrebase
    | error e => simp [hmoved, Except.toOption] at hrebase
  · rintro ⟨f, hf, hrebase⟩
    refine ⟨⟨index, finding⟩, List.mem_filterMap.2 ⟨f, hf, ?_⟩, rfl⟩
    rw [hrebase]
    rfl

/-- The groups of moved findings hold what stems from some finding, and nothing else. -/
theorem mem_group_rebaseAll (found : List Finding) (index : Int) (d : Diagnostic) :
    (∃ fs, (index, fs) ∈ (Rebased.group ((ofFragments fragments language).map.rebaseAll
        found)).entries ∧ d ∈ fs.map Diagnostic.ofFinding) ↔
      ∃ f ∈ found, StemsFrom fragments language f index d := by
  constructor
  · rintro ⟨fs, hfs, hd⟩
    obtain ⟨finding, hfinding, rfl⟩ := List.mem_map.1 hd
    obtain ⟨f, hf, hrebase⟩ := (mem_group_iff_rebase found index finding).1 ⟨fs, hfs, hfinding⟩
    obtain ⟨g, l, g', l', hg, hg', hindex, hindex', heq⟩ := (rebase_eq_ok_iff f _).1 hrebase
    exact ⟨f, hf, g, l, g', l', hg, hg', hindex, hindex', congrArg Diagnostic.ofFinding heq⟩
  · rintro ⟨f, hf, g, l, g', l', hg, hg', hindex, hindex', rfl⟩
    obtain ⟨fs, hfs, hmem⟩ := (mem_group_iff_rebase found index
      { f with line := (l : Nat), endLine := (l' : Nat) }).2
        ⟨f, hf, (rebase_eq_ok_iff f _).2 ⟨g, l, g', l', hg, hg', hindex, hindex', rfl⟩⟩
    exact ⟨fs, hfs, List.mem_map.2 ⟨_, hmem, rfl⟩⟩

end Buffer

namespace Request.FragmentsShown

variable {answer : Option (Except Fault Ended)} {q : Request} {document : String} {r : CheckResult}
  {shown : List (DocumentKey × List Diagnostic)}

theorem eq_nil (h : FragmentsShown answer q document r shown) (hcleared : q.Cleared r) :
    shown = [] := by
  by_cases hskipped : r.skipped = true
  · exact h.1 hskipped
  · obtain ⟨targets, htargets, hempty, -⟩ := h.2 (by simpa using hskipped)
    obtain ⟨targets', htargets', hsize⟩ := hcleared.resolve_left hskipped
    obtain rfl := Except.ok.inj (htargets.symm.trans htargets')
    exact hempty hsize

theorem exists_findings (h : FragmentsShown answer q document r shown) (hcode : ¬ q.Cleared r) :
    ∃ ended found targets, answer = some (.ok ended) ∧
      Output.parse (RunResult.judge "-c" ended).stdout = .ok found ∧
      Cell.targets q.cells q.language = .ok targets ∧
      shown = (Rebased.group ((Buffer.ofFragments targets q.language).map.rebaseAll
        found)).entries.map fun e => (.fragment document e.1, e.2.map Diagnostic.ofFinding) := by
  have hskipped : r.skipped = false := by
    by_contra hskipped
    exact hcode (.inl (by simpa using hskipped))
  obtain ⟨targets, htargets, -, hreport⟩ := h.2 hskipped
  obtain ⟨ended, found, hanswer, -, hparse, hshown⟩ :=
    hreport fun hsize => hcode (.inr ⟨targets, htargets, hsize⟩)
  exact ⟨ended, found, targets, hanswer, hparse, htargets, hshown⟩

end Request.FragmentsShown

namespace History

/-- A diagnostic is among entries, under a fragment of a document. -/
def FiledUnder (entries : List (DocumentKey × List Diagnostic)) (document : String) (index : Int)
    (d : Diagnostic) : Prop :=
  ∃ ds, (.fragment document index, ds) ∈ entries ∧ d ∈ ds

/-- What is filed under the fragments of a document before and after a check of them. -/
structure Attributed (q : Request) (document : String) (reply : Except Fault Reply)
    (answer : Option (Except Fault Ended)) (before after : List (DocumentKey × List Diagnostic)) :
    Prop where
  /-- A check that does not end well, or has nothing to check, files nothing. -/
  idle : (∀ r, reply = .ok (.checked r) → r.ok = true → q.Cleared r) → ∀ index d,
    FiledUnder after document index d → FiledUnder before document index d
  /-- A check that ends well files what stems from the findings of its process. These are all about
  the buffer if and only if nothing stems from another finding alone. -/
  lines : ∀ r, reply = .ok (.checked r) → r.ok = true → ¬ q.Cleared r → ∃ ended found targets,
    answer = some (.ok ended) ∧ Output.parse (RunResult.judge "-c" ended).stdout = .ok found ∧
    Cell.targets q.cells q.language = .ok targets ∧
    (∀ index d, FiledUnder after document index d ↔
      ∃ f ∈ found, Buffer.StemsFrom targets q.language f index d) ∧
    ((∀ index d, FiledUnder after document index d →
        ∃ f ∈ found, f.IsAboutBuffer ∧ Buffer.StemsFrom targets q.language f index d) ↔
      ∀ f ∈ found, ¬ f.IsAboutBuffer → ∀ index d, Buffer.StemsFrom targets q.language f index d →
        ∃ f' ∈ found, f'.IsAboutBuffer ∧ Buffer.StemsFrom targets q.language f' index d)

variable {q : Request} {document : String} {reply : Except Fault Reply}
  {answer : Option (Except Fault Ended)} {before after new : List (DocumentKey × List Diagnostic)}

/-- Under the fragments of a document stands what they have been replaced by. -/
theorem filedUnder_of_replaced
    (h : Collection.Replaced (DocumentKey.isFragmentOf document) before after new) (index : Int)
    (d : Diagnostic) : FiledUnder after document index d ↔ FiledUnder new document index d := by
  have hkey : DocumentKey.isFragmentOf document (.fragment document index) = true := by
    simp [DocumentKey.isFragmentOf]
  unfold FiledUnder
  rw [← h.shown]
  simp only [List.mem_filter, hkey, and_true]

theorem Confined.filedUnder_of_kept (h : Confined q document (.ended reply) answer before after)
    (hidle : ∀ r, reply = .ok (.checked r) → r.ok = true → q.Cleared r) (index : Int)
    (d : Diagnostic) (hd : FiledUnder after document index d) :
    FiledUnder before document index d := by
  by_cases hgood : ∃ r, reply = .ok (.checked r) ∧ r.ok = true
  · obtain ⟨r, rfl, hok⟩ := hgood
    have hcleared := hidle r rfl hok
    by_cases hobstructed : q.Obstructed document r before
    · rw [h.obstructed r rfl hok hobstructed] at hd
      obtain ⟨ds, hds, hd⟩ := hd
      exact ⟨ds, (List.mem_filter.1 hds).1, hd⟩
    · -- the fragments have been cleared, so nothing is filed under them
      obtain ⟨new, hreplaced, hshown⟩ := h.replaced r rfl hok hobstructed
      rw [filedUnder_of_replaced hreplaced, hshown.eq_nil hcleared] at hd
      obtain ⟨ds, hds, -⟩ := hd
      exact absurd hds (by simp)
  · have hsame : after = before := by
      refine h.kept fun r hr => ?_
      by_contra hok
      exact hgood ⟨r, by simpa using hr, by simpa using hok⟩
    rwa [hsame] at hd

theorem filedUnder_rebased (fragments : List Fragment) (language : String) (found : List Finding)
    (document : String) (index : Int) (d : Diagnostic) :
    FiledUnder ((Rebased.group ((Buffer.ofFragments fragments language).map.rebaseAll
        found)).entries.map fun e => (.fragment document e.1, e.2.map Diagnostic.ofFinding))
        document index d ↔
      ∃ f ∈ found, Buffer.StemsFrom fragments language f index d := by
  rw [← Buffer.mem_group_rebaseAll]
  constructor
  · rintro ⟨ds, hds, hd⟩
    obtain ⟨e, he, heq⟩ := List.mem_map.1 hds
    simp only [Prod.mk.injEq, DocumentKey.fragment.injEq, true_and] at heq
    obtain ⟨rfl, rfl⟩ := heq
    exact ⟨e.2, he, hd⟩
  · rintro ⟨fs, hfs, hd⟩
    exact ⟨_, List.mem_map.2 ⟨_, hfs, rfl⟩, hd⟩

/-- The end of a check of fragments that is confined to these. -/
theorem Confined.attributed (h : Confined q document (.ended reply) answer before after) :
    Attributed q document reply answer before after := by
  refine ⟨h.filedUnder_of_kept, fun r hreply hok hcode => ?_⟩
  have hclear : ¬ q.Obstructed document r before := fun hobstructed => hcode hobstructed.1
  obtain ⟨new, hreplaced, hshown⟩ := h.replaced r (congrArg _ hreply) hok hclear
  obtain ⟨ended, found, targets, hanswer, hparse, htargets, rfl⟩ := hshown.exists_findings hcode
  have hlines : ∀ index d, FiledUnder after document index d ↔
      ∃ f ∈ found, Buffer.StemsFrom targets q.language f index d := by
    intro index d
    rw [filedUnder_of_replaced hreplaced, filedUnder_rebased]
  refine ⟨ended, found, targets, hanswer, hparse, htargets, hlines,
    fun hall f hf _ index d hd => ?_, fun hothers index d hd => ?_⟩
  · exact hall index d ((hlines index d).2 ⟨f, hf, hd⟩)
  · obtain ⟨f, hf, hstems⟩ := (hlines index d).1 hd
    by_cases hbuffer : f.IsAboutBuffer
    · exact ⟨f, hf, hbuffer, hstems⟩
    · exact hothers f hf hbuffer index d hstems

end History

/-- When a check of the fragments of a document ends and its workspace is still registered, the
diagnostics that it has filed under the fragments stem, by their lines, from findings of its
process, and every finding on lines of one fragment has led to one. So they all stem from findings
about the buffer if and only if nothing stems from a finding about another file alone. -/
theorem attributed_by_lines (setup : Setup) (moves : List Move) {m : Moment} {h : History}
    (hm : m :: h <:+ (after setup moves).history) {reply : Except Fault Reply}
    (hended : m.what = .ended reply) {q : Request} {document : String}
    (hq : (h.story m.who).request? = some q) (hdocument : q.document? = some document) {n : Nat}
    (hn : (h.story m.who).subject? = some n)
    (hregistered : m.state.registry.get? (m.state.key n) = some n) :
    History.Attributed q document reply (h.story m.who).answer?
      ((h.story m.who).start.filed (m.state.key n)) (m.state.filed (m.state.key n)) := by
  have h₀ := coherent_setup setup
  obtain ⟨b, hsuffix⟩ := (lawful_after setup moves).suffix hm
  obtain ⟨hlawful, hbefore, hduty⟩ := hsuffix.pause (by simp [hended, Happening.isPause])
  obtain ⟨hend, -⟩ | ⟨reply', hended', hsettled⟩ := hduty
  · exact absurd hend (by simp [hended, Happening.isEnd])
  · obtain rfl := Happening.ended.inj (hended.symm.trans hended')
    have hremoved := ((hlawful.coherent h₀).registered _ n hregistered).2.2
    have htended : (h.story m.who).Tended m.state (m.state.key n) :=
      .inr ⟨n, hn, (hbefore.known h₀ m.who).subject n hn, hremoved, rfl⟩
    exact (hsettled.confined hq hdocument hn htended).attributed

/-- What the checker says about a cell that imports a module with an error. -/
def Chronicle.importedError : String := "/w/helper.py:1:1:1:2: error: Bad  [misc]\n"

/-- A document with one cell is checked, and the checker reports on an imported module. -/
def Chronicle.importing : List Move :=
  [.respond [
      { command := some "direct", exitCode := 1, stdout := Text.encode importedError.toList }],
    .request (.add "/w" none), .take,
    .request (.notebook "/w" "/w/nb.ipynb" [⟨0, .str "import helper", .str "python", .str "code"⟩]
      "python"), .take]

/-- The only cell gets a diagnostic by its line, from a finding about the module. -/
theorem attributed_by_lines_when_importing :
    ∃ m h q r, m :: h = (after .small importing).history ∧
      m.what = .ended (.ok (.checked r)) ∧ r.ok = true ∧ q.document? = some "/w/nb.ipynb" ∧
      (m.state.filed "/w").map (·.1) = [.fragment "/w/nb.ipynb" 0] ∧
      History.Attributed q "/w/nb.ipynb" (.ok (.checked r)) (History.story h m.who).answer?
        ((History.story h m.who).start.filed "/w") (m.state.filed "/w") := by
  have hrun : (after .small importing).atLast (fun m h =>
      m.what.result?.any (·.ok) &&
      (History.story h m.who).request?.bind Request.document? == some "/w/nb.ipynb" &&
      (History.story h m.who).subject? == some 0 && m.state.key 0 == "/w" &&
      m.state.registry.get? "/w" == some 0 &&
      (m.state.filed "/w").map (·.1) == [.fragment "/w/nb.ipynb" 0]) = true := by
    decide +kernel
  obtain ⟨m, h, hpast, hlast⟩ := exists_of_atLast hrun
  simp only [Bool.and_eq_true, beq_iff_eq, Option.any_eq_true, Option.bind_eq_some_iff,
    and_assoc] at hlast
  obtain ⟨⟨r, hr, hok⟩, ⟨q, hq, hdocument⟩, hsubject, hkey, hregistered, hfiled⟩ := hlast
  have hended := Happening.ended_of_result? hr
  have hattributed := attributed_by_lines .small importing ⟨[], hpast⟩ hended hq hdocument
    hsubject (by rw [hkey]; exact hregistered)
  rw [hkey] at hattributed
  exact ⟨m, h, q, r, hpast, hended, hok, hdocument, hfiled, hattributed⟩

/-- The report has no finding about the buffer, and still a diagnostic is filed under the cell. -/
theorem imported_error_attributed :
    (Output.parse importedError).toOption.map
        (·.map fun f => (f.file, decide f.IsAboutBuffer)) = some [("/w/helper.py", false)] ∧
      ((after .small importing).session.state.filed "/w").map
          (fun e => (e.1, e.2.map (·.message))) =
        [(.fragment "/w/nb.ipynb" 0, ["Bad"])] := by
  decide +kernel

end Overseer
