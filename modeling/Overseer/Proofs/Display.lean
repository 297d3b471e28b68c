import Overseer.CommandLine.Report
import Overseer.Proofs.Deeds
import Overseer.Proofs.Maps

set_option autoImplicit false

/-! # What a command shows of the diagnostics

Diagnostics are shown by location, and a location has room for one list. The entries of all
registered workspaces are gone through in order, so what is shown at a location is the last entry
there: `emit_shows_last` says so of the lines and of the JSON value, and when a diagnostic is not
among what is shown at its location. Nested workspaces that report the same file lose diagnostics
that way. -/

namespace Overseer.CommandLine

/-- The entries of all registered workspaces, workspace after workspace, by location. -/
def placed (s : State) : List (String × List Diagnostic) :=
  (s.registry.keys.flatMap s.filed).map fun e => (location e.1, e.2)

/-- A list has each location once, with the diagnostics of the last entry there. -/
structure Lists (s : State) (shown : List (String × List Diagnostic)) : Prop where
  nodup : (shown.map Prod.fst).Nodup
  mem_iff : ∀ e, e ∈ shown ↔ Assoc.IsLast (placed s) e

/-- The last entry at a location does not have a diagnostic. -/
def Overwritten (s : State) (place : String) (d : Diagnostic) : Prop :=
  ∃ ds, Assoc.IsLast (placed s) (place, ds) ∧ d ∉ ds

theorem lists_collected (s : State) : Lists s (collected s).entries := by
  refine ⟨(collected s).nodup, ?_⟩
  rintro ⟨place, ds⟩
  rw [← Assoc.get?_eq_some_iff]
  exact Assoc.get?_ofList_iff_isLast (placed s) place ds

theorem Lists.sorted {s : State} {shown : List (String × List Diagnostic)} (h : Lists s shown) :
    Lists s (shown.mergeSort fun a b => a.1 ≤ b.1) := by
  have hperm : (shown.mergeSort fun a b => a.1 ≤ b.1).Perm shown := List.mergeSort_perm _ _
  refine ⟨(hperm.map Prod.fst).nodup_iff.2 h.nodup, ?_⟩
  intro e
  rw [hperm.mem_iff, h.mem_iff]

theorem pairwise_sorted (shown : List (String × List Diagnostic)) :
    (shown.mergeSort fun a b => a.1 ≤ b.1).Pairwise fun a b => a.1 ≤ b.1 := by
  have htrans : ∀ a b c : String × List Diagnostic, decide (a.1 ≤ b.1) = true →
      decide (b.1 ≤ c.1) = true → decide (a.1 ≤ c.1) = true := by
    intro a b c hab hbc
    exact decide_eq_true (String.le_trans (of_decide_eq_true hab) (of_decide_eq_true hbc))
  have htotal : ∀ a b : String × List Diagnostic,
      (decide (a.1 ≤ b.1) || decide (b.1 ≤ a.1)) = true := by
    intro a b
    simpa using String.le_total a.1 b.1
  exact (List.pairwise_mergeSort htrans htotal shown).imp fun h => of_decide_eq_true h

/-! ## What is written -/

section
variable {children : Children} {deeds : List Deed} {s : State}

/-- The state with more on the standard output and the error stream. -/
def showing (s : State) (out err : String) : State :=
  { s with world := (s.world.print out).printError err }

theorem showing_showing (s : State) (out err out' err' : String) :
    showing (showing s out err) out' err' = showing s (out ++ out') (err ++ err') := by
  simp [showing, World.print, World.printError, String.append_assoc]

theorem ofWrite_showing (s : State) (out err : String) :
    Deed.ofWrite s (showing s out err) = [] := by
  have hsame : s.world.files.Within Eq (showing s out err).world.files :=
    Files.Tree.within_refl _ fun _ => rfl
  exact Deed.ofWrite_eq_nil hsame

theorem plays_print (text : String) (Q : Except Fault Unit → List Deed → State → Prop) :
    (print text).Plays children Q deeds s ↔ Q (.ok ()) deeds (showing s text "") := by
  have hsame : { s with world := s.world.print text } = showing s text "" := by
    simp [showing, World.print, World.printError]
  rw [print, Op.plays_modify, hsame, ofWrite_showing, List.append_nil]

theorem plays_printError (text : String) (Q : Except Fault Unit → List Deed → State → Prop) :
    (printError text).Plays children Q deeds s ↔ Q (.ok ()) deeds (showing s "" text) := by
  have hsame : { s with world := s.world.printError text } = showing s "" text := by
    simp [showing, World.print, World.printError]
  rw [printError, Op.plays_modify, hsame, ofWrite_showing, List.append_nil]

theorem plays_prints (lines : List String) (Q : Except Fault Unit → List Deed → State → Prop) :
    (lines.forM print).Plays children Q deeds s ↔
      Q (.ok ()) deeds (showing s (String.join lines) "") := by
  induction lines generalizing s with
  | nil => simp [List.forM, showing, World.print, World.printError]
  | cons line lines ih =>
    rw [List.forM, Op.plays_bind, plays_print, Op.then_ok, ih, showing_showing, String.join_cons]
    rfl

theorem plays_printErrors {α : Type} (items : List α) (text : α → String)
    (Q : Except Fault Unit → List Deed → State → Prop) :
    (items.forM fun a => printError (text a)).Plays children Q deeds s ↔
      Q (.ok ()) deeds (showing s "" (String.join (items.map text))) := by
  induction items generalizing s with
  | nil => simp [List.forM, showing, World.print, World.printError]
  | cons a items ih =>
    rw [List.forM, Op.plays_bind, plays_printError, Op.then_ok, ih, showing_showing,
      List.map_cons, String.join_cons]
    rfl

theorem plays_emit_lines (report : BatchReport)
    (Q : Except Fault Unit → List Deed → State → Prop) :
    (emit report false).Plays children Q deeds s ↔
      Q (.ok ()) deeds (showing s (String.join (diagnosticLines (collected s)))
        (String.join (report.failures.map failureLine))) := by
  unfold emit
  rw [Op.plays_bind, Op.plays_state, Op.then_ok]
  simp only [Bool.false_eq_true, if_false]
  rw [Op.plays_bind, plays_prints, Op.then_ok, plays_printErrors, showing_showing,
    String.append_empty, String.empty_append]

theorem plays_emit_json (report : BatchReport)
    (Q : Except Fault Unit → List Deed → State → Prop) :
    (emit report true).Plays children Q deeds s ↔
      Q (.ok ()) deeds (showing s ((reportJson (collected s) report).pretty ++ "\n") "") := by
  unfold emit
  rw [Op.plays_bind, Op.plays_state, Op.then_ok, if_pos rfl, plays_print]

end

/-! ## What is among it -/

/-- The lines of a listing. -/
def linesOf (shown : List (String × List Diagnostic)) : List String :=
  shown.flatMap fun e => e.2.map (diagnosticLine e.1)

/-- The members of a listing as JSON. -/
def membersOf (shown : List (String × List Diagnostic)) : List (String × Json) :=
  shown.map fun e => (e.1, .arr (e.2.map Diagnostic.toJson))

theorem optionalText_injective : Function.Injective Diagnostic.optionalText := by
  intro a b h
  cases a <;> cases b <;> simp_all [Diagnostic.optionalText]

theorem toJson_injective : Function.Injective Diagnostic.toJson := by
  intro a b h
  simp only [Diagnostic.toJson, Json.obj.injEq, List.cons.injEq, Prod.mk.injEq, Json.arr.injEq,
    Json.int.injEq, Json.str.injEq, true_and, and_true] at h
  obtain ⟨⟨h₁, h₂, h₃, h₄⟩, hmessage, hseverity, hcode, hlink⟩ := h
  have hrange : a.range = b.range := by
    cases ha : a.range
    cases hb : b.range
    simp_all
  have hsame : a.severity = b.severity := by
    cases ha : a.severity <;> cases hb : b.severity <;> simp_all [Severity.name]
  have hcode' := optionalText_injective hcode
  have hlink' := optionalText_injective hlink
  cases a
  cases b
  simp_all

variable {s : State} {shown : List (String × List Diagnostic)}

theorem Lists.mem_linesOf (h : Lists s shown) (line : String) :
    line ∈ linesOf shown ↔ ∃ place ds, Assoc.IsLast (placed s) (place, ds) ∧
      ∃ d ∈ ds, line = diagnosticLine place d := by
  simp only [linesOf, List.mem_flatMap, List.mem_map]
  constructor
  · rintro ⟨e, he, d, hd, rfl⟩
    exact ⟨e.1, e.2, (h.mem_iff e).1 he, d, hd, rfl⟩
  · rintro ⟨place, ds, hlast, d, hd, rfl⟩
    exact ⟨(place, ds), (h.mem_iff _).2 hlast, d, hd, rfl⟩

theorem Lists.mem_membersOf (h : Lists s shown) (place : String) (v : Json) :
    (place, v) ∈ membersOf shown ↔
      ∃ ds, Assoc.IsLast (placed s) (place, ds) ∧ v = .arr (ds.map Diagnostic.toJson) := by
  simp only [membersOf, List.mem_map, Prod.mk.injEq]
  constructor
  · rintro ⟨e, he, rfl, rfl⟩
    exact ⟨e.2, (h.mem_iff e).1 he, rfl⟩
  · rintro ⟨ds, hlast, rfl⟩
    exact ⟨(place, ds), (h.mem_iff _).2 hlast, rfl, rfl⟩

/-- A diagnostic is listed as JSON at its location unless it is overwritten. -/
theorem Lists.listed_iff (h : Lists s shown) {place : String} {ds : List Diagnostic}
    (hplaced : (place, ds) ∈ placed s) (d : Diagnostic) :
    (∃ items, (place, Json.arr items) ∈ membersOf shown ∧ d.toJson ∈ items) ↔
      ¬ Overwritten s place d := by
  obtain ⟨last, hlast⟩ := Assoc.exists_isLast hplaced
  have hitems : ∀ items, (place, Json.arr items) ∈ membersOf shown ↔
      items = last.map Diagnostic.toJson := by
    intro items
    rw [h.mem_membersOf]
    constructor
    · rintro ⟨ds', hds', hv⟩
      rw [hlast.unique hds']
      exact Json.arr.inj hv
    · rintro rfl
      exact ⟨last, hlast, rfl⟩
  have hover : Overwritten s place d ↔ d ∉ last := by
    constructor
    · rintro ⟨ds', hds', hd⟩
      rwa [hlast.unique hds']
    · exact fun hd => ⟨last, hlast, hd⟩
  simp only [hitems, exists_eq_left, hover, not_not]
  rw [List.mem_map_of_injective toJson_injective]

/-- A diagnostic has its line unless it is overwritten. -/
theorem Lists.line_mem (h : Lists s shown) {place : String} {ds : List Diagnostic}
    (hplaced : (place, ds) ∈ placed s) {d : Diagnostic} (hd : ¬ Overwritten s place d) :
    diagnosticLine place d ∈ linesOf shown := by
  obtain ⟨last, hlast⟩ := Assoc.exists_isLast hplaced
  have hmem : d ∈ last := by
    by_contra hnot
    exact hd ⟨last, hlast, hnot⟩
  exact (h.mem_linesOf _).2 ⟨place, last, hlast, d, hmem, rfl⟩

theorem mem_placed {key : String} {k : DocumentKey} {ds : List Diagnostic}
    (hkey : key ∈ s.registry.keys) (hfiled : (k, ds) ∈ s.filed key) :
    (location k, ds) ∈ placed s :=
  List.mem_map.2 ⟨(k, ds), List.mem_flatMap.2 ⟨key, hkey, hfiled⟩, rfl⟩

/-- A command shows the last entry at each location, and nothing else: as lines in the order of
locations or as a JSON value with a list for each location. A diagnostic that a registered
workspace has on file is in the list of its location if and only if the last entry there has it,
and then it also has its line. -/
theorem emit_shows_last (s : State) (report : BatchReport) (children : Children)
    (deeds : List Deed) :
    ∃ sorted listed, Lists s sorted ∧ Lists s listed ∧
      sorted.Pairwise (fun a b => a.1 ≤ b.1) ∧
      (emit report false).Plays children (fun r deeds' s' => r = .ok () ∧ deeds' = deeds ∧
        s' = showing s (String.join (linesOf sorted))
          (String.join (report.failures.map failureLine))) deeds s ∧
      (emit report true).Plays children (fun r deeds' s' => r = .ok () ∧ deeds' = deeds ∧
        s' = showing s ((Json.obj [("report", report.toJson),
          ("diagnostics", .obj (membersOf listed))]).pretty ++ "\n") "") deeds s ∧
      ∀ key ∈ s.registry.keys, ∀ e ∈ s.filed key, ∀ d ∈ e.2,
        ((∃ items, (location e.1, Json.arr items) ∈ membersOf listed ∧ d.toJson ∈ items) ↔
          ¬ Overwritten s (location e.1) d) ∧
        (¬ Overwritten s (location e.1) d → diagnosticLine (location e.1) d ∈ linesOf sorted) := by
  have hlists := lists_collected s
  refine ⟨_, _, hlists.sorted, hlists, pairwise_sorted _, ?_, ?_, ?_⟩
  · rw [plays_emit_lines]
    exact ⟨rfl, rfl, rfl⟩
  · rw [plays_emit_json]
    exact ⟨rfl, rfl, rfl⟩
  · intro key hkey e he d _
    have hplaced := mem_placed hkey he
    exact ⟨hlists.listed_iff hplaced d, fun hd => hlists.sorted.line_mem hplaced hd⟩

/-- An error with a code in the first columns of a line. -/
def Sample.error (line : Int) (message : String) : Diagnostic :=
  { range := ⟨line, 0, line, 1⟩, message, severity := .error, code := some "misc" }

/-- Two nested workspaces, each with an error in the file they have in common. -/
def Sample.nested : State :=
  let file := DocumentKey.file "/w/sub/a.py"
  let outer := (({} : Store).replace "/w" file [error 0 "Seen from above"]).1
  { registry := Assoc.ofList [("/w", 0), ("/w/sub", 1)]
    store := (outer.replace "/w/sub" file [error 1 "Seen from below"]).1 }

/-- What the outer workspace has on file is neither among what is listed nor on a line. -/
theorem lost_between_nested :
    Sample.nested.registry.keys = ["/w", "/w/sub"] ∧
      Sample.nested.filed "/w" = [(.file "/w/sub/a.py", [Sample.error 0 "Seen from above"])] ∧
      (collected Sample.nested).entries = [("/w/sub/a.py", [Sample.error 1 "Seen from below"])] ∧
      ((emit ⟨[]⟩ false).run.play (.ofScript []) [] Sample.nested).map (·.2.2.world.stdout) =
        some "/w/sub/a.py:2:1: error: Seen from below  [misc]\n" := by
  decide +kernel

end Overseer.CommandLine
