import Overseer.Proofs.Attribution
import Overseer.Proofs.Collections
import Overseer.Proofs.Ledger
import Overseer.Proofs.LineGrammar

set_option autoImplicit false

/-! # Ranges that end behind their start

Every range that reaches the store is proper: its positions count from zero and it does not end
before it starts (`Range.Proper`). A line of the report gives a proper range, because one that is
not is collapsed, and a note that is continued keeps its own. Moving a finding to a fragment
subtracts one and the same number from its first and its last line (`CameFrom.sub_eq`), so the range
stays proper, and it ends inside the fragment. What is filed at any time has been found by a
check in one of these ways (`proper_ranges`). -/

namespace Overseer

open Chronicle

/-- All positions count from zero, and the end does not lie before the start. -/
structure Range.Proper (r : Range) : Prop where
  start : 0 ≤ r.startLine ∧ 0 ≤ r.startColumn
  stop : 0 ≤ r.endLine ∧ 0 ≤ r.endColumn
  ordered : toLex (r.startLine, r.startColumn) ≤ toLex (r.endLine, r.endColumn)

/-- The range of a finding. -/
def Finding.range (f : Finding) : Range := ⟨f.line, f.column, f.endLine, f.endColumn⟩

theorem Diagnostic.range_ofFinding (f : Finding) : (ofFinding f).range = f.range := rfl

/-- The range is proper, and its lines are lines of the fragment. -/
structure Range.LiesIn (r : Range) (f : Fragment) : Prop where
  proper : r.Proper
  start : r.startLine < f.lines.length
  stop : r.endLine < f.lines.length

/-- A caret is proper. -/
theorem Range.proper_caret {line column : Int} (hline : 0 ≤ line) (hcolumn : 0 ≤ column) :
    Proper ⟨line, column, line, column⟩ :=
  ⟨⟨hline, hcolumn⟩, ⟨hline, hcolumn⟩, le_refl _⟩

/-- Moving the lines of a range by one and the same number keeps the order of its ends. -/
theorem Range.Proper.moved {r : Range} (h : r.Proper) {line endLine : Nat}
    (hmoved : (endLine : Int) - line = r.endLine - r.startLine) :
    Proper ⟨line, r.startColumn, endLine, r.endColumn⟩ := by
  refine ⟨⟨Int.natCast_nonneg _, h.start.2⟩, ⟨Int.natCast_nonneg _, h.stop.2⟩, ?_⟩
  have hordered := h.ordered
  rw [Prod.Lex.toLex_le_toLex] at hordered ⊢
  simp only at hordered ⊢
  omega

namespace Output

/-! ## Findings of a report -/

theorem fromZero_nonneg (n : Nat) : 0 ≤ fromZero n := le_max_right _ _

theorem startOf_nonneg (ns : List Nat) : 0 ≤ (startOf ns).1 ∧ 0 ≤ (startOf ns).2 := by
  unfold startOf
  split
  · exact ⟨le_refl _, le_refl _⟩
  · exact ⟨fromZero_nonneg _, le_refl _⟩
  · exact ⟨fromZero_nonneg _, le_refl _⟩
  · exact ⟨fromZero_nonneg _, fromZero_nonneg _⟩

theorem endOf?_nonneg {ns : List Nat} {e : Int × Int} (h : endOf? ns = some e) :
    0 ≤ e.1 ∧ 0 ≤ e.2 := by
  unfold endOf? at h
  split at h
  · cases h
    exact ⟨fromZero_nonneg _, fromZero_nonneg _⟩
  · cases h
    exact ⟨fromZero_nonneg _, fromZero_nonneg _⟩
  · exact absurd h (by simp)

/-- What a line says has a proper range: an end that lies before the start is not taken. -/
theorem Says.proper {file : List Char} {t : Tail} {f : Finding} (h : Says file t f) :
    f.range.Proper := by
  have hstart := startOf_nonneg (t.numbers.map number)
  rw [← h.start] at hstart
  rcases max_choice (toLex (f.line, f.column))
    (toLex ((endOf? (t.numbers.map number)).getD (f.line, f.column))) with hmax | hmax
  · obtain ⟨hline, hcolumn⟩ := Prod.mk.inj (toLex.injective (h.stop.trans hmax))
    rw [Finding.range, hline, hcolumn]
    exact Range.proper_caret hstart.1 hstart.2
  · have hstop := toLex.injective (h.stop.trans hmax)
    have hnonneg : 0 ≤ f.endLine ∧ 0 ≤ f.endColumn := by
      cases hend : endOf? (t.numbers.map number) with
      | none =>
        rw [hend, Option.getD_none] at hstop
        obtain ⟨hline, hcolumn⟩ := Prod.mk.inj hstop
        exact ⟨hline ▸ hstart.1, hcolumn ▸ hstart.2⟩
      | some e =>
        rw [hend, Option.getD_some] at hstop
        obtain rfl := hstop
        exact endOf?_nonneg hend
    exact ⟨hstart, hnonneg, le_of_le_of_eq (le_max_left _ _) h.stop.symm⟩

theorem proper_of_parseLine {line : String} {f : Finding} (h : parseLine line = .ok (some f)) :
    f.range.Proper := by
  obtain ⟨cs, file, t, -, -, -, hsaid⟩ := (parseLine_eq_some_iff line f).1 h
  exact hsaid.proper

theorem range_join (previous next : Finding) : (join previous next).range = previous.range := rfl

theorem range_withLink (f : Finding) : (withLink f).range = f.range := rfl

/-- Adding a finding adds no range but its own. -/
theorem proper_addFinding {read : List Finding} {next : Finding}
    (hread : ∀ f ∈ read, f.range.Proper) (hnext : next.range.Proper) :
    ∀ f ∈ addFinding read next, f.range.Proper := by
  cases read with
  | nil => simpa [addFinding] using hnext
  | cons previous rest =>
    rw [List.forall_mem_cons] at hread
    rw [addFinding]
    split
    · refine List.forall_mem_cons.2 ⟨?_, hread.2⟩
      rw [range_join]
      exact hread.1
    · exact List.forall_mem_cons.2 ⟨hnext, List.forall_mem_cons.2 hread⟩

theorem proper_foldl_addFinding {new read : List Finding} (hnew : ∀ f ∈ new, f.range.Proper)
    (hread : ∀ f ∈ read, f.range.Proper) :
    ∀ f ∈ new.foldl addFinding read, f.range.Proper := by
  induction new generalizing read with
  | nil => exact hread
  | cons f new ih =>
    rw [List.forall_mem_cons] at hnew
    exact ih hnew.2 (proper_addFinding hread hnew.1)

/-- All findings of a report have proper ranges. -/
theorem proper_of_parse {report : String} {found : List Finding} (h : parse report = .ok found) :
    ∀ f ∈ found, f.range.Proper := by
  simp only [parse, parseLines, bind, Except.bind] at h
  split at h
  · exact absurd h (by simp)
  · next read hread =>
    cases h
    have hnew : ∀ f ∈ read.filterMap id, f.range.Proper := by
      intro f hf
      obtain ⟨o, ho, rfl⟩ := List.mem_filterMap.1 hf
      obtain ⟨line, -, hline⟩ := exists_of_mem_mapM_ok hread _ ho
      exact proper_of_parseLine hline
    intro f hf
    obtain ⟨f', hf', rfl⟩ := List.mem_map.1 hf
    rw [range_withLink]
    exact proper_foldl_addFinding hnew (by simp) f' (List.mem_reverse.1 hf')

end Output

namespace Buffer

/-! ## Findings in fragments -/

variable {fragments : List Fragment} {language : String}

/-- Fragments with pairwise different numbers stand in one place each. -/
theorem nodup_targets (hnodup : (fragments.map Fragment.index).Nodup) :
    (targets fragments language).Nodup :=
  (List.Nodup.of_map _ hnodup).sublist List.filter_sublist

/-- Inside a fragment, lines are as far apart as in the buffer. -/
theorem CameFrom.sub_eq (hnodup : (fragments.map Fragment.index).Nodup) {k k' : Int} {f : Fragment}
    {l l' : Nat} (h : CameFrom fragments language k f l)
    (h' : CameFrom fragments language k' f l') :
    (l' : Int) - l = k' - k := by
  obtain ⟨before, after, -, hsplit, rfl, -⟩ := h
  obtain ⟨before', after', -, hsplit', rfl, -⟩ := h'
  -- the fragment occurs once, so the same fragments stand in front of it
  have hnot : f ∉ before ∧ f ∉ after := by
    have hf : (targets fragments language).Nodup := nodup_targets hnodup
    rw [hsplit, List.nodup_middle, List.nodup_cons, List.mem_append, not_or] at hf
    exact hf.1
  obtain ⟨rfl, -⟩ := (List.append_cons_inj_of_notMem hnot.1 hnot.2).1 (hsplit.symm.trans hsplit')
  omega

theorem CameFrom.lt_length {k : Int} {f : Fragment} {l : Nat}
    (h : CameFrom fragments language k f l) : l < f.lines.length := by
  obtain ⟨before, after, line, -, -, hline, -⟩ := h
  exact (List.getElem?_eq_some_iff.1 hline).1

/-- Findings with proper ranges still have proper ranges when they have been moved to fragments with
pairwise different numbers, and end there inside the fragment. -/
theorem liesIn_of_mem_group (hnodup : (fragments.map Fragment.index).Nodup) {found : List Finding}
    (hfound : ∀ d ∈ found, d.range.Proper) {index : Int} {moved : List Finding}
    (hmoved : (index, moved) ∈ (Rebased.group ((ofFragments fragments language).map.rebaseAll
      found)).entries) {d : Finding} (hd : d ∈ moved) :
    ∃ f ∈ targets fragments language, f.index = index ∧ d.range.LiesIn f := by
  obtain ⟨d₀, hd₀, hrebase⟩ := (mem_group_iff_rebase found index d).1 ⟨moved, hmoved, hd⟩
  obtain ⟨f, hf, l, l', hstart, hstop, heq, -⟩ := movedTo_of_rebase hnodup hrebase
  obtain ⟨rfl, rfl⟩ := Rebased.mk.inj heq
  exact ⟨f, hf, rfl, (hfound d₀ hd₀).moved (hstart.sub_eq hnodup hstop),
    Int.ofNat_lt.2 hstart.lt_length, Int.ofNat_lt.2 hstop.lt_length⟩

end Buffer

/-! ## What is filed -/

/-- The diagnostics of a file are those of findings about it. -/
theorem World.exists_of_mem_diagnosticsByFile {w : World} {found : List Finding}
    {files : Assoc String (List Diagnostic)} (hfiles : w.diagnosticsByFile found = .ok files)
    {e : String × List Diagnostic} (he : e ∈ files.entries) {d : Diagnostic} (hd : d ∈ e.2) :
    ∃ f ∈ found, d = Diagnostic.ofFinding f := by
  simp only [World.diagnosticsByFile, bind, Except.bind] at hfiles
  split at hfiles
  · exact absurd hfiles (by simp)
  · next filed hfiled =>
    cases hfiles
    have hmem := (Assoc.mem_group_iff filed e.1 d).1 ⟨e.2, he, hd⟩
    obtain ⟨f, hf, hstep⟩ := exists_of_mem_mapM_ok hfiled _ hmem
    split at hstep
    · exact absurd hstep (by simp)
    · cases hstep
      exact ⟨f, hf, rfl⟩

namespace Request

variable {answer : Option (Except Fault Ended)} {r : CheckResult}
  {shown : List (DocumentKey × List Diagnostic)}

/-- What a check of a whole workspace shows has proper ranges. -/
theorem WholeShown.proper {w : World} (h : WholeShown answer w r shown) :
    ∀ e ∈ shown, ∀ d ∈ e.2, d.range.Proper := by
  intro e he d hd
  by_cases hskipped : r.skipped = true
  · rw [h.1 hskipped] at he
    exact absurd he (by simp)
  · obtain ⟨ended, found, files, w₀, -, -, hparse, hfiles, -, rfl⟩ := h.2 (by simpa using hskipped)
    obtain ⟨file, hfile, rfl⟩ := List.mem_map.1 he
    obtain ⟨f, hf, rfl⟩ := World.exists_of_mem_diagnosticsByFile hfiles hfile hd
    rw [Diagnostic.range_ofFinding]
    exact Output.proper_of_parse hparse f hf

/-- A diagnostic of a fragment of a document that somebody asked to check. -/
def LiesIn (q : Request) (document : String) (index : Int) (d : Diagnostic) : Prop :=
  q.document? = some document ∧ ∃ fragments f, Cell.targets q.cells q.language = .ok fragments ∧
    f ∈ fragments ∧ f.index = index ∧ d.range.LiesIn f

/-- What a check of fragments shows lies in these. -/
theorem FragmentsShown.liesIn {q : Request} {document : String}
    (h : FragmentsShown answer q document r shown) (hdocument : q.document? = some document)
    (hcells : (q.cells.map Cell.index).Nodup) {index : Int} {ds : List Diagnostic}
    (he : (.fragment document index, ds) ∈ shown) : ∀ d ∈ ds, q.LiesIn document index d := by
  intro d hd
  by_cases hcleared : q.Cleared r
  · rw [h.eq_nil hcleared] at he
    exact absurd he (by simp)
  · obtain ⟨ended, found, fragments, -, hparse, htargets, rfl⟩ := h.exists_findings hcleared
    obtain ⟨group, hgroup, heq⟩ := List.mem_map.1 he
    simp only [Prod.mk.injEq, DocumentKey.fragment.injEq, true_and] at heq
    obtain ⟨rfl, rfl⟩ := heq
    obtain ⟨f, hf, rfl⟩ := List.mem_map.1 hd
    obtain ⟨fragment, hfragment, hindex, hlies⟩ := Buffer.liesIn_of_mem_group
      (Buffer.nodup_index_of_targets hcells htargets) (Output.proper_of_parse hparse) hgroup hf
    exact ⟨hdocument, fragments, fragment, htargets, (List.mem_filter.1 hfragment).1, hindex, hlies⟩

end Request

namespace History

variable {s₀ b s : State} {h : History} {m : Moment} {i : TaskId} {k : String}

/-- Whenever fragments were to be checked their numbers were pairwise different. -/
def Numbered (h : History) : Prop :=
  ∀ m ∈ h, ∀ q, m.what = .asked q → (q.cells.map Cell.index).Nodup

/-- The ranges of an entry are proper; those of a fragment lie in a fragment with that number that
somebody asked to check, as long as the fragments are numbered apart. -/
def Placeable (h : History) : DocumentKey × List Diagnostic → Prop
  | (.file _, ds) => ∀ d ∈ ds, d.range.Proper
  | (.fragment document index, ds) => h.Numbered → ∀ d ∈ ds, ∃ m ∈ h, ∃ q, m.what = .asked q ∧
      q.LiesIn document index d

theorem Placeable.cons {e : DocumentKey × List Diagnostic} (he : h.Placeable e) (m : Moment) :
    Placeable (m :: h) e := by
  obtain ⟨key, ds⟩ := e
  cases key with
  | file path => exact he
  | fragment document index =>
    intro hnumbered d hd
    obtain ⟨m', hm', hasked⟩ := he (fun m' hm' => hnumbered m' (List.mem_cons_of_mem _ hm')) d hd
    exact ⟨m', List.mem_cons_of_mem _ hm', hasked⟩

theorem placeable_of_isFile {e : DocumentKey × List Diagnostic} (hfile : e.1.isFile = true)
    (he : ∀ d ∈ e.2, d.range.Proper) : h.Placeable e := by
  obtain ⟨key, ds⟩ := e
  cases key with
  | file path => exact he
  | fragment document index => exact absurd hfile (by simp [DocumentKey.isFile])

theorem placeable_of_shown {q : Request} {document : String} {r : CheckResult}
    {answer : Option (Except Fault Ended)} {shown : List (DocumentKey × List Diagnostic)}
    (hq : (h.story i).request? = some q) (hdocument : q.document? = some document)
    (hshown : Request.FragmentsShown answer q document r shown)
    {e : DocumentKey × List Diagnostic} (hfragment : e.1.isFragmentOf document = true)
    (he : e ∈ shown) : h.Placeable e := by
  obtain ⟨key, ds⟩ := e
  cases key with
  | file path => exact absurd hfragment (by simp [DocumentKey.isFragmentOf])
  | fragment document' index =>
    obtain rfl : document' = document := by simpa [DocumentKey.isFragmentOf] using hfragment
    intro hnumbered d hd
    obtain ⟨m, hm, hasked⟩ := exists_asked hq
    exact ⟨m, hm, q, hasked, hshown.liesIn hdocument (hnumbered m hm q hasked) he d hd⟩

/-- What is filed at the end of a task was filed before or is what the task has found. -/
theorem placeable_of_refiled {reply : Except Fault Reply} {e : DocumentKey × List Diagnostic}
    (hrefiled : (h.story i).Refiled s reply k)
    (hold : ∀ e ∈ (h.story i).start.filed k, h.Placeable e) (he : e ∈ s.filed k) :
    h.Placeable e := by
  rw [Refiled] at hrefiled
  cases hverdict : (h.story i).verdict? reply k with
  | none =>
    rw [hverdict] at hrefiled
    exact hold e (hrefiled ▸ he)
  | some x =>
    obtain ⟨q, r⟩ := x
    rw [hverdict] at hrefiled
    obtain ⟨hq, hcheck⟩ := request_of_verdict hverdict
    rw [Request.isCheck, Bool.or_eq_true] at hcheck
    rcases hcheck with hwhole | hdocument
    · obtain ⟨new, hreplaced, hshown⟩ := hrefiled.1 hwhole
      rcases hreplaced.mem he with hbefore | ⟨hfile, hnew⟩
      · exact hold e hbefore
      · exact placeable_of_isFile hfile (hshown.proper e hnew)
    · obtain ⟨document, hdocument⟩ := Option.isSome_iff_exists.1 hdocument
      obtain ⟨hobstructed, hclear⟩ := hrefiled.2 document hdocument
      by_cases h₀ : q.Obstructed document r ((h.story i).start.filed k)
      · rw [hobstructed h₀] at he
        exact hold e (List.mem_filter.1 he).1
      · obtain ⟨new, hreplaced, hshown⟩ := hclear h₀
        rcases hreplaced.mem he with hbefore | ⟨hfragment, hnew⟩
        · exact hold e hbefore
        · exact placeable_of_shown hq hdocument hshown hfragment hnew

/-- All that is ever filed is placeable. -/
theorem Lawful.placeable (h₀ : s₀.Coherent) (hnone : ∀ id, s₀.store.at? id = none)
    (hlawful : Lawful s₀ b h) {id : Nat} {c : Collection} {e : DocumentKey × List Diagnostic}
    (hc : b.store.at? id = some c) (he : e ∈ c.entries.entries) : h.Placeable e := by
  -- only the end of a check adds an entry; until then all of them are as at the last wait
  induction hlawful generalizing id c e with
  | nil =>
    rw [hnone id] at hc
    exact absurd hc (by simp)
  | asked i r hb hnew hknown ih => exact (ih hc he).cons _
  | resumed i hb ih => exact (ih hc he).cons _
  | spawned i call hb hstart hduty ih =>
    obtain ⟨c₀, hc₀, he₀⟩ := hduty.1.exists_entry hc he
    exact (ih (hstart ▸ hc₀) he₀).cons _
  | outside hb hworld ih => exact ih (State.store_of_core hworld ▸ hc) he
  | returned i r hb hworld ih => exact (ih (State.store_of_core hworld ▸ hc) he).cons _
  | slept i ms hb hstart hduty ih =>
    obtain ⟨c₀, hc₀, he₀⟩ := hduty.exists_entry hc he
    exact (ih (hstart ▸ hc₀) he₀).cons _
  | reached i l hb hstart hduty ih =>
    obtain ⟨c₀, hc₀, he₀⟩ := hduty.1.exists_entry hc he
    exact (ih (hstart ▸ hc₀) he₀).cons _
  | entered i l hb hon hfree hfirst ih => exact (ih hc he).cons _
  | left i l hb hstart hduty ih => exact (ih hc he).cons _
  | gathered i jobs hb hstart hduty ih =>
    obtain ⟨c₀, hc₀, he₀⟩ := hduty.1.exists_entry hc he
    exact (ih (hstart ▸ hc₀) he₀).cons _
  | @ended b s h i r hb hstart hduty ih =>
    refine Placeable.cons ?_ _
    rcases hduty.placed id c hc e he with ⟨c₀, hc₀, he₀⟩ | ⟨q, -, n, hn, -, -, hremoved, hcurrent⟩
    · exact ih (hstart ▸ hc₀) he₀
    · have hknown := (hb.known h₀ i).subject n hn
      have htended : (h.story i).Tended s (s.key n) :=
        .inr ⟨n, hn, hstart ▸ hknown, hremoved, rfl⟩
      have hfiled : e ∈ s.filed (s.key n) := by
        rw [State.filed_of_current hcurrent hc]
        exact he
      refine placeable_of_refiled (hduty.refiled _ htended) (fun e' he' => ?_) hfiled
      obtain ⟨id', c', hc', he'⟩ := State.exists_of_mem_filed he'
      exact ih (hstart ▸ hc') he'

end History

/-- Every finding of a report has a proper range. Moved to fragments with pairwise different numbers
it still has one, with lines of its fragment. So every diagnostic that is ever filed has a proper
range, and one that is filed under a fragment lies in a fragment with that number. -/
theorem proper_ranges :
    (∀ report found, Output.parse report = .ok found → ∀ d ∈ found, d.range.Proper) ∧
    (∀ report found fragments language, Output.parse report = .ok found →
      (fragments.map Fragment.index).Nodup → ∀ index moved,
        (index, moved) ∈ (Rebased.group ((Buffer.ofFragments fragments language).map.rebaseAll
          found)).entries →
        ∀ d ∈ moved, ∃ f ∈ fragments, f.index = index ∧ d.range.LiesIn f) ∧
    ∀ setup moves id c, (after setup moves).session.state.store.at? id = some c →
      ∀ e ∈ c.entries.entries, (after setup moves).history.Placeable e := by
  refine ⟨fun report found hparse => Output.proper_of_parse hparse,
    fun report found fragments language hparse hnodup index moved hmoved d hd => ?_,
    fun setup moves id c hc e he => ?_⟩
  · obtain ⟨f, hf, hlies⟩ :=
      Buffer.liesIn_of_mem_group hnodup (Output.proper_of_parse hparse) hmoved hd
    exact ⟨f, (List.mem_filter.1 hf).1, hlies⟩
  · exact (lawful_after setup moves).placeable (coherent_setup setup)
      (fun id => by simp [Setup.state, Store.at?]) hc he

/-- A finding that ends before it starts, one around a directive, and one across two cells. -/
def Output.crossed : String :=
  "<string>:1:4:1:2: error: A  [misc]\n<string>:1:1:3:2: error: B\n<string>:3:1:4:1: error: C\n"

/-- Two cells, the first with a directive. -/
def Output.crossedCells : List Fragment :=
  [⟨4, "x = 1\r\n%time f()\ny = x", "python", "code"⟩, ⟨6, "", "python", "code"⟩]

/-- The first finding is collapsed, the second is kept, and the third is not moved. What two checks
have filed is placeable. -/
theorem proper_ranges_of_crossed :
    (∃ found moved, Output.parse Output.crossed = .ok found ∧ found.length = 3 ∧
      (Rebased.group ((Buffer.ofFragments Output.crossedCells "python").map.rebaseAll
        found)).entries = [(4, moved)] ∧ moved.map Finding.range = [⟨0, 3, 0, 3⟩, ⟨0, 0, 2, 1⟩] ∧
      (∀ d ∈ found, d.range.Proper) ∧
      ∀ d ∈ moved, ∃ f ∈ Output.crossedCells, f.index = 4 ∧ d.range.LiesIn f) ∧
    ∃ c, (after .small twoChecks).session.state.store.at? 0 = some c ∧ c.total = 2 ∧
      ∀ e ∈ c.entries.entries, (after .small twoChecks).history.Placeable e := by
  constructor
  · have hrun : (Output.parse Output.crossed).toOption.any (fun found => found.length == 3 &&
        ((Rebased.group ((Buffer.ofFragments Output.crossedCells "python").map.rebaseAll
          found)).entries.map fun e => (e.1, e.2.map Finding.range)) ==
          [(4, [⟨0, 3, 0, 3⟩, ⟨0, 0, 2, 1⟩])]) = true := by
      decide +kernel
    obtain ⟨found, hfound, hrun⟩ := (Option.any_eq_true _ _).1 hrun
    rw [Bool.and_eq_true, beq_iff_eq, beq_iff_eq, List.map_eq_singleton_iff] at hrun
    obtain ⟨hlength, ⟨index, moved⟩, hentries, heq⟩ := hrun
    obtain ⟨rfl, hranges⟩ := Prod.mk.inj heq
    have hparse : Output.parse Output.crossed = .ok found :=
      eq_ok_of_toOption (Option.mem_def.1 hfound)
    exact ⟨found, moved, hparse, hlength, hentries, hranges,
      proper_ranges.1 _ _ hparse, proper_ranges.2.1 _ _ _ _ hparse (by decide) 4 moved
        (hentries ▸ List.mem_singleton_self _)⟩
  · have hrun : ((after .small twoChecks).session.state.store.at? 0).any (·.total == 2) = true := by
      decide +kernel
    obtain ⟨c, hc, htotal⟩ := (Option.any_eq_true _ _).1 hrun
    exact ⟨c, hc, by simpa using htotal, proper_ranges.2.2 .small twoChecks 0 c hc⟩

end Overseer
