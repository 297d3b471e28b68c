import Overseer.Proofs.LineEnds
import Overseer.Proofs.NoteRuns
import Overseer.Proofs.Reports

set_option autoImplicit false

/-! # Errors that block a run

An error of syntax keeps the checker from checking anything: it ends with exit code two and a report
of that error. Such a run has done its work. Exit code two alone means that the checker itself has
failed, so the report is looked through for a statement (`Output.hasStatements`). This is not the
reader of reports, which drops carriage returns, joins notes and gives up at a number that is too
long. But the two agree on whether there is anything to read (`hasStatements_iff`). So a run that is
taken for blocked is never one without findings, which would clear all diagnostics: the check counts
and files something (`blocking_error_filed`). -/

namespace Overseer

open Op History Chronicle

/-! ## Two readers of a report -/

namespace Output

open Text

/-- The lines of a report have no carriage returns to drop. -/
theorem dropReturns_of_mem_lines {report line : String} (hline : line ∈ lines report) :
    dropReturns line = line := by
  obtain ⟨l, hl, rfl⟩ := List.mem_map.1 hline
  have hkept : l.rdropWhile (· == '\r') = l := by
    rw [List.rdropWhile_eq_self_iff]
    intro hne heq
    have hbreak := isBreak_of_mem_splitLines hl (List.getLast_mem hne)
    rw [eq_of_beq heq] at hbreak
    exact absurd hbreak (by decide)
  rw [dropReturns, String.toList_ofList]
  exact congrArg String.ofList hkept

theorem isStatement_iff (line : String) :
    isStatement line = true ↔ parseLine line ≠ .ok none := by
  rw [isStatement, parseLine]
  cases split? line.toList with
  | none => simp
  | some cut =>
    obtain ⟨file, t⟩ := cut
    cases hfinding : finding file t <;> simp [hfinding, Except.map]

/-- Joining notes leaves nothing over only if there was nothing to begin with. -/
theorem foldl_addFinding_eq_nil_iff (fs : List Finding) :
    fs.foldl addFinding [] = [] ↔ fs = [] := by
  have hsums := (sums_runs fs).length_eq
  rw [List.length_map, List.length_reverse] at hsums
  rw [← List.length_eq_zero_iff, ← hsums, List.length_eq_zero_iff]
  constructor
  · intro h
    rw [← List.flatten_splitBy (r := oneRun) (l := fs), h, List.flatten_nil]
  · rintro rfl
    rfl

/-- A report has a finding if and only if some line of it is a statement. -/
theorem hasStatements_iff {report : String} {found : List Finding} (h : parse report = .ok found) :
    hasStatements report = true ↔ found ≠ [] := by
  have hread := parseLine_of_parseLines_ok h
  have hfound := Except.ok.inj (h.symm.trans (parseLines_eq hread))
  have hempty : found = [] ↔ ∀ line ∈ lines report, recordOf? line = none := by
    rw [hfound, List.map_eq_nil_iff, List.reverse_eq_nil_iff, foldl_addFinding_eq_nil_iff, records,
      List.filterMap_eq_nil_iff]
  have hline : ∀ line ∈ lines report, isStatement line = true ↔ recordOf? line ≠ none := by
    intro line hline
    have hsame : parseLine line = .ok (recordOf? line) := by
      rw [← hread line hline]
      exact congrArg parseLine (dropReturns_of_mem_lines hline).symm
    rw [isStatement_iff, hsame, ne_eq, Except.ok.injEq]
  rw [hasStatements, List.any_eq_true, ne_eq, hempty]
  push Not
  exact exists_congr fun line => and_congr_right (hline line)

end Output

theorem Outcome.hasStatements_of_syntaxFatal {ended : Ended} {command : String}
    (h : classify ended command = .syntaxFatal) : Output.hasStatements ended.stdout = true := by
  unfold classify at h
  split_ifs at h with _ _ _ _ _ hfatal
  exact (Bool.and_eq_true_iff.1 hfatal).2

/-! ## The end of a check -/

namespace History

/-- What a run of the checker that an error blocks leads to in a check of a whole workspace that
ends in a state: if the report can be read and the files in it can be resolved, the check ends well
and has counted something. If the workspace is still registered, diagnostics are filed for a file.
-/
def FilesBlocking (h : History) (s : State) (reply : Except Fault Reply) : Prop :=
  ∀ q ∈ h.request?, q.isWhole = true → ∀ d ∈ h.dealings, d.call.command? = some "run" →
    ∀ ended, d.answer = .ok ended → Outcome.classify ended "run" = .syntaxFatal →
    ∀ found, Output.parse ended.stdout = .ok found →
    (∀ f ∈ found, ∃ p, s.world.resolve (Path.ofString f.file) = .ok p) →
    ∃ r, reply = .ok (.checked r) ∧ r.ok = true ∧ r.skipped = false ∧
      r.outcome = some .syntaxFatal ∧ 1 ≤ r.diagnostics ∧
      ∀ n ∈ h.subject?, s.registry.get? (s.key n) = some n → r.workspace = s.key n ∧
        ∃ e ∈ s.filed (s.key n), e.1.isFile = true ∧ e.2 ≠ []

variable {h : History} {s : State} {reply : Except Fault Reply}

theorem Settled.filesBlocking (hsettled : h.Settled s reply)
    (hknown : ∀ n ∈ h.subject?, n < h.start.registrations.length) : h.FilesBlocking s reply := by
  intro q hq hwhole d hd hrun ended hanswer hfatal found hparse hpaths
  have hfound : found ≠ [] :=
    (Output.hasStatements_iff hparse).1 (Outcome.hasStatements_of_syntaxFatal hfatal)
  have houtcome : (RunResult.judge "run" ended).outcome = .syntaxFatal := hfatal
  have hreport : (RunResult.judge "run" ended).stdout = ended.stdout := by
    simp [RunResult.judge, hfatal]
  obtain ⟨r, hr, hok, hskipped, hr', hcount, hfiled⟩ := hsettled.filed_of_success hknown hq hwhole
    hd hrun hanswer (by rw [houtcome]; rfl) (by rw [hreport]; exact hparse) hpaths
  refine ⟨r, hr, hok, hskipped, by rw [hr', houtcome], ?_, fun n hn hregistered => ?_⟩
  · rw [hcount]
    exact List.length_pos_iff.2 hfound
  · obtain ⟨hname, files, w, hfiles, -, hreplaced⟩ := hfiled n hn hregistered
    -- some file has diagnostics, since all findings are filed and there is one
    have hentries : files.entries ≠ [] := by
      intro hnil
      have hlength := Check.length_of_diagnosticsByFile hfiles
      rw [Assoc.values, hnil] at hlength
      exact hfound (List.length_eq_zero_iff.1 hlength.symm)
    obtain ⟨e, he⟩ := List.exists_mem_of_ne_nil _ hentries
    have hshown : (.file e.1, e.2) ∈ (s.filed (s.key n)).filter fun e => e.1.isFile := by
      rw [hreplaced.shown]
      exact List.mem_map.2 ⟨e, he, rfl⟩
    obtain ⟨hmem, hfile⟩ := List.mem_filter.1 hshown
    exact ⟨hname, _, hmem, hfile, Check.ne_nil_of_diagnosticsByFile hfiles e he⟩

end History

/-- A report that can be read has a finding if and only if it is taken for one with a statement. In
every session, a check of a whole workspace whose run is blocked by an error ends well, has counted
something and leaves diagnostics for a file, if the files in the report can be resolved. This goes
for a request that is made next, whatever happens while it waits, and for all that have come to an
end. -/
theorem blocking_error_filed (setup : Setup) (moves : List Move) :
    (∀ report found, Output.parse report = .ok found →
      (Output.hasStatements report = true ↔ found ≠ [])) ∧
    (∀ (q : Request) (i : TaskId), q.isKnown (after setup moves).session.state = true →
      q.operation.Keeps (conduct i) (fun reply h s => h.FilesBlocking s reply)
        (opening i q (after setup moves).session.state (after setup moves).session.state)
        (after setup moves).session.state) ∧
    ∀ (m : Moment) (h : History), m :: h <:+ (after setup moves).history → ∀ reply,
      m.what = .ended reply → (h.story m.who).FilesBlocking m.state reply :=
  ⟨fun _ _ hparse => Output.hasStatements_iff hparse,
    all_checks_of_settled (fun hsettled hknown => hsettled.filesBlocking hknown) setup moves⟩

/-- A check whose run ends with a report and exit code two. -/
def Chronicle.blocked (report : String) : List Move :=
  [.respond [{ command := some "run", exitCode := 2, stdout := Text.encode report.toList }],
    .request (.add "/w" none), .take, .request (.job (.check 0)), .take]

/-- The error is counted, and filed for its file. -/
theorem blocking_error_filed_one :
    ∃ m h r, m :: h = (after .small (blocked (oneFinding "Bad"))).history ∧
      m.what = .ended (.ok (.checked r)) ∧ r.ok = true ∧ r.outcome = some .syntaxFatal ∧
      1 ≤ r.diagnostics ∧ ∃ e ∈ m.state.filed "/w", e.1.isFile = true ∧ e.2 ≠ [] := by
  have hrun : (after .small (blocked (oneFinding "Bad"))).atLast (fun m h =>
      m.what.result?.isSome && (History.story h m.who).request?.any Request.isWhole &&
      (History.story h m.who).subject? == some 0 && m.state.key 0 == "/w" &&
      m.state.registry.get? "/w" == some 0 &&
      (History.story h m.who).dealings.any (fun d => d.call.command? == some "run" &&
        d.answer.toOption.any fun ended => ended.stdout == oneFinding "Bad" &&
          Outcome.classify ended "run" == .syntaxFatal) &&
      (m.state.world.resolve (Path.ofString "/w/a.py")).toOption.isSome) = true := by
    decide +kernel
  obtain ⟨m, h, hpast, hlast⟩ := exists_of_atLast hrun
  simp only [Bool.and_eq_true, beq_iff_eq, Option.any_eq_true, List.any_eq_true, and_assoc,
    Option.isSome_iff_exists] at hlast
  obtain ⟨⟨r, hr⟩, ⟨q, hq, hwhole⟩, hsubject, hkey, hregistered,
    ⟨d, hd, hcommand, ended, hanswer, hstdout, hfatal⟩, p, hp⟩ := hlast
  obtain ⟨f, hparse, hfile, -⟩ := exists_parse_oneFinding
  have hended := Happening.ended_of_result? hr
  have hblocking := (blocking_error_filed .small (blocked (oneFinding "Bad"))).2.2 m h ⟨[], hpast⟩
    (.ok (.checked r)) hended
  have hresolves : ∀ f' ∈ [f], ∃ p, m.state.world.resolve (Path.ofString f'.file) = .ok p := by
    intro f' hf'
    rw [List.mem_singleton.1 hf', hfile]
    exact ⟨p, eq_ok_of_toOption hp⟩
  obtain ⟨r', hr', hok, -, houtcome, hcount, hfiled⟩ := hblocking q hq hwhole d hd hcommand ended
    (eq_ok_of_toOption hanswer) hfatal [f] (by rw [hstdout]; exact hparse) hresolves
  cases hr'
  obtain ⟨-, hentry⟩ := hfiled 0 hsubject (by rw [hkey]; exact hregistered)
  rw [hkey] at hentry
  exact ⟨m, h, r, hpast, hended, hok, houtcome, hcount, hentry⟩

end Overseer
