import Mathlib.Data.List.DropRight
import Mathlib.Data.List.Forall2
import Mathlib.Data.List.SplitBy
import Overseer.Output.Report
import Overseer.Proofs.LineGrammar

set_option autoImplicit false

/-! # Runs of notes

The findings of a report are those of its lines, cut into runs: a run is a longest sequence of
notes about the same place, or a single finding that is no note. Each run is summed up in one
finding (`Sums`).

The reader works from line to line and joins a note to the finding that it has made of the lines
before. The invariant (`Grouped`) says of which run each finding made so far is the sum, and that
the runs are as long as can be; the runs stand in the order of the reader's list, the last one
first. -/

namespace Overseer.Output

open Overseer.Text

/-! ## Runs and their sums -/

/-- A line without the carriage returns at its end. -/
def stripped (line : String) : String := String.ofList (line.toList.rdropWhile (· == '\r'))

/-- What a line says. -/
def recordOf? (line : String) : Option Finding :=
  match parseLine (stripped line) with
  | .ok r => r
  | .error _ => none

/-- What the lines of a report say, one by one. -/
def records (lines : List String) : List Finding := lines.filterMap recordOf?

/-- Two findings are notes about the same place. -/
def oneRun (f g : Finding) : Bool :=
  decide (f.severity = "note" ∧ g.severity = "note" ∧ f.place = g.place)

/-- A finding has the place and the severity of the first one of a run, the messages of all and the
first error code of any. -/
structure Joins (run : List Finding) (f : Finding) : Prop where
  head : ∃ first, run.head? = some first ∧ f.place = first.place ∧ f.severity = first.severity
  message : f.message = "\n".intercalate (run.map (·.message))
  code : f.code = run.findSome? (·.code)

/-- A finding is the sum of a run. -/
structure Sums (run : List Finding) (f : Finding) : Prop extends Joins run f where
  link : f.link = findLink f.message f.code

/-- A list is cut into runs, the last one first, and each run is joined. -/
structure Grouped (fs : List Finding) (runs : List (List Finding)) (joined : List Finding) :
    Prop where
  flatten : runs.reverse.flatten = fs
  ne_nil : [] ∉ runs
  run : ∀ run ∈ runs, run.IsChain fun f g => oneRun f g
  /-- No run goes on with the next one. -/
  longest : runs.IsChain fun next run => ∃ h h', oneRun (run.getLast h) (next.head h') = false
  joins : List.Forall₂ Joins runs joined

/-! ## One more finding -/

theorem continues_eq_oneRun (f g : Finding) : continues f g = oneRun f g := by
  rw [Bool.eq_iff_iff]
  simp only [continues, oneRun, Finding.isNote, Bool.and_eq_true, beq_iff_eq, decide_eq_true_eq]
  constructor
  · rintro ⟨⟨hg, hf⟩, hplace⟩
    exact ⟨hf, hg, hplace⟩
  · rintro ⟨hf, hg, hplace⟩
    exact ⟨⟨hg, hf⟩, hplace⟩

theorem oneRun_iff (f g : Finding) :
    oneRun f g = true ↔ f.severity = "note" ∧ g.severity = "note" ∧ f.place = g.place := by
  simp [oneRun]

/-- All findings of a run have the same severity and place. -/
theorem same_of_run {first : Finding} {rest : List Finding}
    (h : (first :: rest).IsChain fun f g => oneRun f g) :
    ∀ f ∈ first :: rest, f.severity = first.severity ∧ f.place = first.place := by
  induction rest generalizing first with
  | nil => simp
  | cons next rest ih =>
    obtain ⟨hnext, hrest⟩ := List.isChain_cons_cons.1 h
    obtain ⟨hfirst, hnote, hplace⟩ := (oneRun_iff _ _).1 hnext
    rintro f (_ | ⟨_, hf⟩)
    · exact ⟨rfl, rfl⟩
    · obtain ⟨hs, hp⟩ := ih hrest f hf
      exact ⟨by rw [hs, hnote, hfirst], by rw [hp, hplace]⟩

/-- Whether a run goes on can be seen from the finding that it was joined into. -/
theorem Joins.oneRun_getLast {run : List Finding} {f : Finding} (h : Joins run f) (hne : run ≠ [])
    (hrun : run.IsChain fun f g => oneRun f g) (g : Finding) :
    oneRun (run.getLast hne) g = oneRun f g := by
  cases run with
  | nil => exact absurd rfl hne
  | cons first rest =>
    obtain ⟨first', hfirst, hplace, hseverity⟩ := h.head
    obtain rfl : first = first' := by simpa using hfirst
    obtain ⟨hs, hp⟩ := same_of_run hrun _ (List.getLast_mem hne)
    simp only [oneRun, hs, hp, hplace, hseverity]

/-- A note that continues a run is joined to it. -/
theorem Joins.join {run : List Finding} {f g : Finding} (h : Joins run f) (hne : run ≠ []) :
    Joins (run ++ [g]) (join f g) := by
  obtain ⟨first, hfirst, hplace, hseverity⟩ := h.head
  refine ⟨⟨first, ?_, hplace, hseverity⟩, ?_, ?_⟩
  · rw [List.head?_append, hfirst]
    rfl
  · rw [List.map_append, String.intercalate_append_of_ne_nil (by simpa using hne) (by simp),
      ← h.message]
    simp [Output.join]
  · rw [List.findSome?_append, ← h.code]
    cases hg : g.code <;> simp [Output.join, hg]

theorem joins_singleton (f : Finding) : Joins [f] f :=
  ⟨⟨f, rfl, rfl, rfl⟩, by simp, by cases h : f.code <;> simp [h]⟩

/-- One more finding goes on with the last run or starts a new one. -/
theorem Grouped.add {fs : List Finding} {runs : List (List Finding)} {joined : List Finding}
    (h : Grouped fs runs joined) (g : Finding) :
    ∃ runs', Grouped (fs ++ [g]) runs' (addFinding joined g) := by
  obtain ⟨rfl, hne, hrun, hlongest, hjoins⟩ := h
  cases hjoins with
  | nil => exact ⟨[[g]], by simp, by simp, by simp, by simp, .cons (joins_singleton g) .nil⟩
  | @cons run f runs joined hjoin hjoins =>
    have hrun' : run ≠ [] := fun hnil => hne (by simp [hnil])
    have hlast := hjoin.oneRun_getLast hrun' (hrun run (by simp)) g
    rw [addFinding, continues_eq_oneRun]
    split
    · next hgoes =>
      refine ⟨(run ++ [g]) :: runs, by simp, ?_, ?_, ?_, .cons (hjoin.join hrun') hjoins⟩
      · exact fun h => hne (List.mem_cons_of_mem run (by simpa using h))
      · rintro run' (_ | ⟨_, hrun''⟩)
        · rw [List.isChain_append]
          refine ⟨hrun run (by simp), by simp, fun x hx y hy => ?_⟩
          obtain rfl : g = y := by simpa using hy
          rw [← List.getLast_of_mem_getLast? hx, hlast, hgoes]
        · exact hrun run' (List.mem_cons_of_mem run hrun'')
      · rw [List.isChain_cons] at hlongest ⊢
        refine ⟨fun run' hrun'' => ?_, hlongest.2⟩
        obtain ⟨hne', hne'', hbefore⟩ := hlongest.1 run' hrun''
        exact ⟨hne', by simp, by rwa [List.head_append_of_ne_nil]⟩
    · next hends =>
      refine ⟨[g] :: run :: runs, by simp, by simpa using hne, ?_, ?_,
        .cons (joins_singleton g) (.cons hjoin hjoins)⟩
      · rintro run' (_ | ⟨_, hrun''⟩)
        · simp
        · exact hrun run' hrun''
      · refine List.isChain_cons_cons.2 ⟨⟨hrun', by simp, ?_⟩, hlongest⟩
        simpa [hlast] using hends

/-- Whatever has been read is grouped into runs. -/
theorem exists_grouped (fs : List Finding) : ∃ runs, Grouped fs runs (fs.foldl addFinding []) := by
  induction fs using List.reverseRecOn with
  | nil => exact ⟨[], rfl, by simp, by simp, by simp, .nil⟩
  | append_singleton fs g ih =>
    obtain ⟨runs, hruns⟩ := ih
    rw [List.foldl_append]
    exact hruns.add g

theorem Grouped.splitBy_eq {fs : List Finding} {runs : List (List Finding)} {joined : List Finding}
    (h : Grouped fs runs joined) : fs.splitBy oneRun = runs.reverse := by
  rw [List.splitBy_eq_iff]
  refine ⟨h.flatten.symm, by simpa using h.ne_nil, by simpa using h.run, ?_⟩
  rw [List.isChain_reverse]
  exact h.longest

/-- The findings made of a list are the sums of its runs. -/
theorem sums_runs (fs : List Finding) :
    List.Forall₂ Sums (fs.splitBy oneRun) ((fs.foldl addFinding []).reverse.map withLink) := by
  obtain ⟨runs, hruns⟩ := exists_grouped fs
  rw [hruns.splitBy_eq, List.forall₂_map_right_iff, List.forall₂_reverse_iff]
  refine hruns.joins.imp fun run f hjoins => ?_
  exact { hjoins with link := rfl }

/-! ## What runs tell about their sums -/

/-- The messages of runs, joined run by run, are the messages of all findings. -/
theorem messages_of_sums {runs : List (List Finding)} {fs : List Finding}
    (h : List.Forall₂ Sums runs fs) (hne : [] ∉ runs) :
    "\n".intercalate (fs.map (·.message)) = "\n".intercalate (runs.flatten.map (·.message)) := by
  induction h with
  | nil => rfl
  | @cons run f runs fs hsum hsums ih =>
    have hrun : run ≠ [] := fun hnil => hne (by simp [hnil])
    have hruns : [] ∉ runs := fun hnil => hne (List.mem_cons_of_mem run hnil)
    rw [List.map_cons, List.flatten_cons, List.map_append]
    cases runs with
    | nil =>
      cases hsums
      simp [hsum.message]
    | cons next runs =>
      have hnext : next ≠ [] := fun hnil => hruns (by simp [hnil])
      have hfs : fs.map (·.message) ≠ [] := by
        cases hsums
        simp
      rw [String.intercalate_cons_of_ne_nil hfs, ih hruns, hsum.message,
        String.intercalate_append_of_ne_nil (by simpa using hrun) (by simp [hnext])]

/-- The sums of runs that do not go on with each other do not go on with each other. -/
theorem apart_of_sums {runs : List (List Finding)} {fs : List Finding}
    (h : List.Forall₂ Sums runs fs) (hrun : ∀ run ∈ runs, run.IsChain fun f g => oneRun f g)
    (hlongest : runs.IsChain fun run next =>
      ∃ h h', oneRun (run.getLast h) (next.head h') = false) :
    fs.IsChain fun f g => ¬ (f.severity = "note" ∧ g.severity = "note" ∧ f.place = g.place) := by
  induction h with
  | nil => simp
  | @cons run f runs fs hsum hsums ih =>
    have hrest := ih (fun run' hmem => hrun run' (List.mem_cons_of_mem run hmem)) hlongest.tail
    cases hsums with
    | nil => simp
    | @cons next g runs fs hnext hsums =>
      obtain ⟨⟨hne, hne', hends⟩, -⟩ := List.isChain_cons_cons.1 hlongest
      refine List.isChain_cons_cons.2 ⟨fun hgoes => ?_, hrest⟩
      obtain ⟨first, hfirst, hplace, hseverity⟩ := hnext.head
      rw [hsum.toJoins.oneRun_getLast hne (hrun run (by simp)),
        (List.head_eq_iff_head?_eq_some hne').2 hfirst] at hends
      have hgoes' := (oneRun_iff f first).2 (by rwa [← hplace, ← hseverity])
      exact absurd (hends.symm.trans hgoes') (by simp)

/-! ## Reports -/

/-- A line whose numbers can be read is read. -/
theorem parseLine_of_readable {line : String} (h : Readable (stripped line)) :
    parseLine (stripped line) = .ok (recordOf? line) := by
  have hok : ∃ r, parseLine (stripped line) = .ok r := by
    cases hcs : oneLine? (stripped line).toList with
    | none =>
      have hsplit : split? (stripped line).toList = none := by rw [split?, hcs]; rfl
      exact ⟨none, by rw [parseLine, hsplit]⟩
    | some cs =>
      rcases parseLine_spec hcs fun file t => h cs file t hcs with
        ⟨_, _, f, -, -, hparse⟩ | ⟨-, hparse⟩
      · exact ⟨some f, hparse⟩
      · exact ⟨none, hparse⟩
  obtain ⟨r, hr⟩ := hok
  rw [recordOf?, hr]

theorem parseLines_eq {lines : List String}
    (h : ∀ line ∈ lines, parseLine (stripped line) = .ok (recordOf? line)) :
    parseLines lines = .ok (((records lines).foldl addFinding []).reverse.map withLink) := by
  have hread : lines.mapM (fun line => parseLine (dropReturns line)) =
      .ok (lines.map recordOf?) := mapM_eq_ok h
  rw [parseLines, hread]
  simp only [bind, Except.bind, List.filterMap_map, Function.id_comp, records]
  rfl

/-- If a report can be read then each of its lines can. -/
theorem parseLine_of_parseLines_ok {lines : List String} {fs : List Finding}
    (h : parseLines lines = .ok fs) :
    ∀ line ∈ lines, parseLine (stripped line) = .ok (recordOf? line) := by
  intro line hline
  obtain ⟨r, hr⟩ : ∃ r, parseLine (stripped line) = .ok r := by
    rw [parseLines] at h
    cases hmap : lines.mapM fun line => parseLine (dropReturns line) with
    | error count => exact absurd h (by simp [hmap, bind, Except.bind])
    | ok read => exact exists_of_mapM_ok hmap line hline
  rw [recordOf?, hr]

/-- Whatever is read of a report are the sums of its runs. -/
theorem sums_of_parseLines_ok {lines : List String} {fs : List Finding}
    (h : parseLines lines = .ok fs) : List.Forall₂ Sums ((records lines).splitBy oneRun) fs := by
  have hfs := Except.ok.inj (h.symm.trans (parseLines_eq (parseLine_of_parseLines_ok h)))
  rw [hfs]
  exact sums_runs (records lines)

/-- The findings of a report are the sums of its runs. No message is lost or moved, lines that say
nothing make no difference, and no two findings next to each other are notes about the same
place. -/
theorem parseLines_sums_runs (lines : List String)
    (hread : ∀ line ∈ lines, Readable (stripped line)) :
    ∃ fs, parseLines lines = .ok fs ∧ List.Forall₂ Sums ((records lines).splitBy oneRun) fs ∧
      "\n".intercalate (fs.map (·.message)) =
        "\n".intercalate ((records lines).map (·.message)) ∧
      (∀ front noise back, lines = front ++ back →
        (∀ line ∈ noise, parseLine (stripped line) = .ok none) →
        parseLines (front ++ noise ++ back) = .ok fs) ∧
      fs.IsChain fun f g =>
        ¬ (f.severity = "note" ∧ g.severity = "note" ∧ f.place = g.place) := by
  have hlines := fun line hline => parseLine_of_readable (hread line hline)
  have hsums := sums_runs (records lines)
  refine ⟨_, parseLines_eq hlines, hsums, ?_, ?_, ?_⟩
  · rw [messages_of_sums hsums (by simp), List.flatten_splitBy]
  · rintro front noise back rfl hnoise
    have hnone : ∀ line ∈ noise, recordOf? line = none := by
      intro line hline
      rw [recordOf?, hnoise line hline]
    have hrecords : records (front ++ noise ++ back) = records (front ++ back) := by
      simp only [records, List.filterMap_append, List.filterMap_eq_nil_iff.2 hnone,
        List.append_nil]
    rw [parseLines_eq, hrecords]
    intro line hline
    rcases List.mem_append.1 hline with hline | hline
    · rcases List.mem_append.1 hline with hline | hline
      · exact hlines line (by simp [hline])
      · rw [hnoise line hline, hnone line hline]
    · exact hlines line (by simp [hline])
  · exact apart_of_sums hsums (fun run hrun => List.isChain_of_mem_splitBy hrun)
      (List.isChain_getLast_head_splitBy _ _)

/-- Two notes with a banner between them, and an error at the same place. -/
def threeStatements : List String :=
  ["a.py:1: note: x\r", "Found 1 error", "a.py:1: note: y  [misc]", "a.py:1: error: z"]

theorem parseLines_three_statements :
    ∃ fs, parseLines threeStatements = .ok fs ∧
      List.Forall₂ Sums ((records threeStatements).splitBy oneRun) fs ∧
      fs.map (·.message) = ["x\ny", "z"] ∧ fs.map (·.code) = [some "misc", none] := by
  have hread : ∀ line ∈ threeStatements, Readable (stripped line) := by
    have hshort : ∀ line ∈ threeStatements, (stripped line).toList.length ≤ 4300 := by decide
    exact fun line hline => readable_of_length (hshort line hline)
  obtain ⟨fs, hparse, hsums, -⟩ := parseLines_sums_runs threeStatements hread
  have hvalue : (parseLines threeStatements).toOption.map
      (fun fs => (fs.map (·.message), fs.map (·.code))) =
        some (["x\ny", "z"], [some "misc", none]) := by decide +kernel
  rw [hparse] at hvalue
  simp only [Except.toOption, Option.map_some, Option.some.injEq, Prod.mk.injEq] at hvalue
  exact ⟨fs, hparse, hsums, hvalue⟩

end Overseer.Output
