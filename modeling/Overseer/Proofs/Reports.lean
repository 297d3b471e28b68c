import Overseer.Proofs.FragmentChecks

set_option autoImplicit false

/-! # What becomes of the findings of a run

A run of the checker that ends with exit code one and an empty error stream has found something. If
the report can be read and the files in it can be resolved, the check ends well, whatever others do
meanwhile. As a rule it counts all findings and files them, and this depends on nothing that is
written in them. There is one exception: a report in which one of the phrases for nothing to check
occurs, be it in a message, is taken for the report of a run without input, and nothing in it is
counted or filed (`Outcome.isNoted`, `findings_conveyed`). -/

namespace Overseer

open Op History Chronicle

/-! ## The outcome of a run -/

namespace Text

/-- A line feed at the end is of no use to a phrase without one. -/
theorem contains_append_lf (text : String) {needle : String} (hneedle : '\n' ∉ needle.toList) :
    contains (text ++ "\n") needle = contains text needle := by
  rw [Bool.eq_iff_iff, contains, contains, occursIn_iff, occursIn_iff, String.toList_append]
  show needle.toList <:+: text.toList ++ ['\n'] ↔ _
  rw [List.infix_concat_iff, List.suffix_concat_iff]
  constructor
  · rintro ((hnil | ⟨t, ht, -⟩) | hinfix)
    · rw [hnil]
      exact List.nil_infix
    · exact absurd (by rw [ht]; simp) hneedle
    · exact hinfix
  · exact .inr

end Text

namespace Outcome

/-- Whether a report says that there was nothing to check. -/
def isNoted (report : String) : Bool := mentions nothingWords report

theorem mentions_empty : mentions environmentWords "" = false ∧ mentions stuckWords "" = false := by
  decide +kernel

/-- What the end of a run with findings means depends on its report only. -/
theorem classify_of_findings {ended : Ended} (hcode : ended.exitCode = some 1)
    (hstderr : ended.stderr = "") : classify ended "run" =
      if isNoted ended.stdout then .nothingToCheck else .success := by
  have hnoted : mentions nothingWords (ended.stdout ++ "\n" ++ "") = isNoted ended.stdout := by
    have hlf : ∀ needle ∈ nothingWords, '\n' ∉ needle.toList := by decide
    rw [String.append_empty, isNoted, mentions, mentions, Bool.eq_iff_iff, List.any_eq_true,
      List.any_eq_true]
    refine exists_congr fun needle => and_congr_right fun hneedle => ?_
    rw [Text.contains_append_lf ended.stdout (hlf needle hneedle)]
  rw [classify, hcode, hstderr, mentions_empty.1, mentions_empty.2, hnoted]
  simp [isCheck]

end Outcome

/-- The findings of a report that are heeded: none if it says that there was nothing to check. -/
def Ended.heeded (ended : Ended) (found : List Finding) : List Finding :=
  if Outcome.isNoted ended.stdout then [] else found

/-- What a call of the checker takes from the report of a run with findings. -/
theorem parse_judge {ended : Ended} {found : List Finding} (hcode : ended.exitCode = some 1)
    (hstderr : ended.stderr = "") (hparse : Output.parse ended.stdout = .ok found) :
    Output.parse (RunResult.judge "run" ended).stdout = .ok (ended.heeded found) := by
  simp only [RunResult.judge, Outcome.classify_of_findings hcode hstderr, Ended.heeded]
  by_cases hnoted : Outcome.isNoted ended.stdout = true
  · simp only [hnoted, if_true]
    rfl
  · simpa [hnoted] using hparse

/-! ## The end of a check -/

namespace History

/-- What a run of the checker with findings leads to in a check of a whole workspace that ends in a
state: if the report can be read and the files in it can be resolved, the check ends well, with the
findings that are heeded. If the workspace is still registered they have replaced what was filed
for files. -/
def Conveys (h : History) (s : State) (reply : Except Fault Reply) : Prop :=
  ∀ q ∈ h.request?, q.isWhole = true → ∀ d ∈ h.dealings, d.call.command? = some "run" →
    ∀ ended, d.answer = .ok ended → ended.exitCode = some 1 → ended.stderr = "" →
    ∀ found, Output.parse ended.stdout = .ok found →
    (∀ f ∈ found, ∃ p, s.world.resolve (Path.ofString f.file) = .ok p) →
    ∃ r, reply = .ok (.checked r) ∧ r.ok = true ∧ r.skipped = false ∧
      r.outcome = some (if Outcome.isNoted ended.stdout then .nothingToCheck else .success) ∧
      r.diagnostics = (ended.heeded found).length ∧
      ∀ n ∈ h.subject?, s.registry.get? (s.key n) = some n → r.workspace = s.key n ∧
        ∃ files, ∃ w : World, w.diagnosticsByFile (ended.heeded found) = .ok files ∧
          w.Logged s.world ∧
          Collection.Replaced DocumentKey.isFile (h.start.filed (s.key n)) (s.filed (s.key n))
            (files.entries.map fun e => (.file e.1, e.2))

variable {i : TaskId} {h : History} {s : State} {q : Request} {reply : Except Fault Reply}

/-- A task is about a registration that was there when it last went on. -/
def Grounded (h : History) : Prop :=
  h.began?.isSome = true ∧ ∀ n ∈ h.subject?, n < h.start.registrations.length

/-- A check whose run has done its work ends well, if the report can be read and the files in it can
be resolved. If the workspace is still registered, what is reported has replaced what was filed for
files. -/
theorem Settled.filed_of_success (hsettled : h.Settled s reply)
    (hknown : ∀ n ∈ h.subject?, n < h.start.registrations.length) (hq : q ∈ h.request?)
    (hwhole : q.isWhole = true) {d : Dealing} (hd : d ∈ h.dealings)
    (hrun : d.call.command? = some "run") {ended : Ended} (hanswer : d.answer = .ok ended)
    (hsuccess : (RunResult.judge "run" ended).outcome.isSuccess = true) {found : List Finding}
    (hparse : Output.parse (RunResult.judge "run" ended).stdout = .ok found)
    (hpaths : ∀ f ∈ found, ∃ p, s.world.resolve (Path.ofString f.file) = .ok p) :
    ∃ r, reply = .ok (.checked r) ∧ r.ok = true ∧ r.skipped = false ∧
      r.outcome = some (RunResult.judge "run" ended).outcome ∧ r.diagnostics = found.length ∧
      ∀ n ∈ h.subject?, s.registry.get? (s.key n) = some n → r.workspace = s.key n ∧
        ∃ files, ∃ w : World, w.diagnosticsByFile found = .ok files ∧ w.Logged s.world ∧
          Collection.Replaced DocumentKey.isFile (h.start.filed (s.key n)) (s.filed (s.key n))
            (files.entries.map fun e => (.file e.1, e.2)) := by
  obtain ⟨hlast, hreport⟩ := hsettled.reported q hq hwhole d hd hrun ended hanswer hsuccess
  obtain ⟨r, rfl, hok, hskipped, houtcome, hcount⟩ := hreport _ hparse hpaths
  refine ⟨r, rfl, hok, hskipped, houtcome, hcount, fun n hn hregistered => ?_⟩
  -- the workspace is registered, so the check is held to what is filed for it
  have hcheck := Check.isCheck_of_isWhole hwhole
  have htended := tended_of_registered hsettled.steady.1.2 hn (hknown n hn) hregistered
  have hrefiled := hsettled.refiled _ htended
  rw [Refiled, hsettled.verdict?_eq hq hcheck hn hok] at hrefiled
  obtain ⟨new, hreplaced, hshown⟩ := hrefiled.1 hwhole
  obtain ⟨ended', found', files, w, hanswer', -, hparse', hfiles, hlogged, rfl⟩ :=
    hshown.2 hskipped
  obtain rfl : ended = ended' := Except.ok.inj (Option.some.inj (hlast.symm.trans hanswer'))
  obtain rfl := Except.ok.inj (hparse.symm.trans hparse')
  exact ⟨hsettled.named q hq hcheck n hn r rfl hok, files, w, hfiles, hlogged, hreplaced⟩

theorem Settled.conveys (hsettled : h.Settled s reply)
    (hknown : ∀ n ∈ h.subject?, n < h.start.registrations.length) : h.Conveys s reply := by
  intro q hq hwhole d hd hrun ended hanswer hcode hstderr found hparse hpaths
  have houtcome : (RunResult.judge "run" ended).outcome =
      if Outcome.isNoted ended.stdout then .nothingToCheck else .success :=
    Outcome.classify_of_findings hcode hstderr
  have hsuccess : (RunResult.judge "run" ended).outcome.isSuccess = true := by
    rw [houtcome]
    split <;> rfl
  have hsubset : ended.heeded found ⊆ found := by
    unfold Ended.heeded
    split
    · exact List.nil_subset found
    · exact List.Subset.refl found
  obtain ⟨r, hr, hok, hskipped, hr', hcount, hfiled⟩ := hsettled.filed_of_success hknown hq hwhole
    hd hrun hanswer hsuccess (parse_judge hcode hstderr hparse) fun f hf => hpaths f (hsubset hf)
  exact ⟨r, hr, hok, hskipped, by rw [hr', houtcome], hcount, hfiled⟩

theorem grounded_opening {s₀ : State} (hs : s.Coherent) (hq : q.isKnown s = true) :
    (opening i q s₀ s).Grounded :=
  ⟨rfl, fun _ hn => Request.known_of_subject hs hq hn⟩

/-- Going on at a wait leaves a task grounded, since registrations are never given up. -/
theorem Grounded.resumed (hh : h.Grounded) {s' : State} (hon : h.start.Onward s') :
    Grounded (⟨i, .resumed, s'⟩ :: h) := by
  refine ⟨rfl, fun n hn => ?_⟩
  rw [subject?_resumed i s' hh.1] at hn
  exact Nat.lt_of_lt_of_le (hh.2 n hn) hon.1.length

end History

/-- A task that conducts itself well stays grounded. -/
theorem Op.Keeps.grounded {α : Type} {p : Op α} {Q : Except Fault α → History → State → Prop}
    {i : TaskId} {h : History} {s : State} (hp : p.Keeps (conduct i) Q h s)
    (hh : h.Grounded) :
    p.Keeps (conduct i) (fun r h' s' => h'.Grounded ∧ Q r h' s') h s := by
  rw [keeps_iff_run] at hp ⊢
  -- the two pasts are the same one; whoever waits is calm, so he has lost no registration
  refine Prog.Keeps.mono (Prog.Keeps.transfer (R := fun h₁ h₂ _ => h₁ = h₂ ∧ h₂.Grounded)
    ?_ ?_ ?_ ?_ ?_ ?_ hp ⟨rfl, hh⟩) ?_
  · exact fun _ _ _ _ hR hduty => ⟨hduty, hR⟩
  · rintro h₁ _ s' c ⟨rfl, hg⟩ hduty
    refine ⟨hduty, fun e s₁ s₂ hs₁ hs₂ => ⟨rfl, ?_⟩⟩
    exact Grounded.resumed (h := ⟨i, .returned e, s₁⟩ :: ⟨i, .spawned c, s'⟩ :: h₁) hg
      ((hduty.1.onward.trans hs₁).trans hs₂)
  · rintro h₁ _ s' ms ⟨rfl, hg⟩ hduty
    refine ⟨hduty, fun s₁ hs₁ => ⟨rfl, ?_⟩⟩
    exact Grounded.resumed (h := ⟨i, .slept ms, s'⟩ :: h₁) hg (hduty.onward.trans hs₁)
  · rintro h₁ _ s' l ⟨rfl, hg⟩ hduty
    refine ⟨hduty, fun s₁ s₂ _ hs₂ => ⟨rfl, ?_⟩⟩
    exact Grounded.resumed (h := ⟨i, .entered l, s₁⟩ :: ⟨i, .reached l, s'⟩ :: h₁) hg
      (hduty.1.onward.trans hs₂)
  · rintro h₁ _ s' l ⟨rfl, hg⟩ hduty
    exact ⟨hduty, rfl, hg⟩
  · rintro h₁ _ s' jobs ⟨rfl, hg⟩ hduty
    refine ⟨hduty, fun s₁ hs₁ => ⟨rfl, ?_⟩⟩
    exact Grounded.resumed (h := ⟨i, .gathered jobs, s'⟩ :: h₁) hg (hduty.1.onward.trans hs₁)
  · rintro r h' s' ⟨_, ⟨rfl, hg⟩, hQ⟩
    exact ⟨hg, hQ⟩

/-! ## All checks of a session -/

/-- What follows for whoever has settled what he was asked for holds at the end of every request of
a session: of one that is made next, whatever happens while it waits, and of all that have come to
an end. -/
theorem all_checks_of_settled {P : Except Fault Reply → History → State → Prop}
    (hP : ∀ {h : History} {s : State} {reply : Except Fault Reply}, h.Settled s reply →
      (∀ n ∈ h.subject?, n < h.start.registrations.length) → P reply h s)
    (setup : Setup) (moves : List Move) :
    (∀ (q : Request) (i : TaskId), q.isKnown (after setup moves).session.state = true →
      q.operation.Keeps (conduct i) P
        (opening i q (after setup moves).session.state (after setup moves).session.state)
        (after setup moves).session.state) ∧
    ∀ (m : Moment) (h : History), m :: h <:+ (after setup moves).history → ∀ reply,
      m.what = .ended reply → P reply (h.story m.who) m.state := by
  have h₀ := coherent_setup setup
  have hlawful := lawful_after setup moves
  refine ⟨fun q i hknown => ?_, fun m h hm reply hwhat => ?_⟩
  · have hs := hlawful.coherent h₀
    have hsettled := q.keeps_operation (i := i) hknown (State.Onward.refl hs)
    exact (hsettled.grounded (grounded_opening hs hknown)).mono fun _ _ _ hend =>
      hP hend.2 hend.1.2
  · -- an end is a pause, and who ends has settled what he was asked for
    obtain ⟨b, hsuffix⟩ := hlawful.suffix hm
    obtain ⟨-, hbefore, hduty⟩ := hsuffix.pause (by rw [hwhat]; rfl)
    rcases hduty with ⟨hend, -⟩ | ⟨reply', hwhat', hsettled⟩
    · rw [hwhat] at hend
      exact absurd hend (by simp [Happening.isEnd])
    · cases hwhat.symm.trans hwhat'
      exact hP hsettled fun n hn => (hbefore.known h₀ m.who).subject n hn

/-- In every session, a request that is made next comes to an end that conveys the findings of its
run, whatever happens while it waits, and all requests that have come to an end did so. So a check
of a whole workspace whose run ends with exit code one and an empty error stream counts and files
all findings, unless the report says that there was nothing to check. -/
theorem findings_conveyed (setup : Setup) (moves : List Move) :
    (∀ (q : Request) (i : TaskId), q.isKnown (after setup moves).session.state = true →
      q.operation.Keeps (conduct i) (fun reply h s => h.Conveys s reply)
        (opening i q (after setup moves).session.state (after setup moves).session.state)
        (after setup moves).session.state) ∧
    ∀ (m : Moment) (h : History), m :: h <:+ (after setup moves).history → ∀ reply,
      m.what = .ended reply → (h.story m.who).Conveys m.state reply :=
  all_checks_of_settled (fun hsettled hknown => hsettled.conveys hknown) setup moves

/-- A check whose run ends with a report and exit code one. -/
def Chronicle.reporting (report : String) : List Move :=
  [.respond [{ command := some "run", exitCode := 1, stdout := Text.encode report.toList }],
    .request (.add "/w" none), .take, .request (.job (.check 0)), .take]

/-- A report with one finding, whatever its message. -/
def Chronicle.oneFinding (message : String) : String :=
  "/w/a.py:1:1:1:2: error: " ++ message ++ "  [misc]\n"

/-- The report has one finding, which is heeded. -/
theorem exists_parse_oneFinding : ∃ f, Output.parse (oneFinding "Bad") = .ok [f] ∧
    f.file = "/w/a.py" ∧ Outcome.isNoted (oneFinding "Bad") = false := by
  have hreport : (Output.parse (oneFinding "Bad")).toOption.map (·.map (·.file)) =
      some ["/w/a.py"] ∧ Outcome.isNoted (oneFinding "Bad") = false := by
    decide +kernel
  obtain ⟨found, hfound, hfiles⟩ := Option.map_eq_some_iff.1 hreport.1
  obtain ⟨f, rfl, hfile⟩ := List.map_eq_singleton_iff.1 hfiles
  exact ⟨f, eq_ok_of_toOption hfound, hfile, hreport.2⟩

/-- The finding is counted: there is a run with exit code one, and the check says so. -/
theorem findings_conveyed_one :
    ∃ m h r, m :: h = (after .small (reporting (oneFinding "Bad"))).history ∧
      m.what = .ended (.ok (.checked r)) ∧ r.ok = true ∧ r.outcome = some .success ∧
      r.diagnostics = 1 := by
  have hrun : (after .small (reporting (oneFinding "Bad"))).atLast (fun m h =>
      m.what.result?.isSome && (History.story h m.who).request?.any Request.isWhole &&
      (History.story h m.who).dealings.any (fun d => d.call.command? == some "run" &&
        d.answer.toOption == some ⟨d.call.argv, some 1, oneFinding "Bad", ""⟩) &&
      (m.state.world.resolve (Path.ofString "/w/a.py")).toOption.isSome) = true := by
    decide +kernel
  obtain ⟨m, h, hpast, hlast⟩ := exists_of_atLast hrun
  simp only [Bool.and_eq_true, beq_iff_eq, Option.any_eq_true, List.any_eq_true, and_assoc,
    Option.isSome_iff_exists] at hlast
  obtain ⟨⟨r, hr⟩, ⟨q, hq, hwhole⟩, ⟨d, hd, hcommand, hanswer⟩, p, hp⟩ := hlast
  obtain ⟨f, hparse, hfile, hnoted⟩ := exists_parse_oneFinding
  have hended := Happening.ended_of_result? hr
  have hconveys := (findings_conveyed .small (reporting (oneFinding "Bad"))).2 m h ⟨[], hpast⟩
    (.ok (.checked r)) hended
  have hresolves : ∀ f' ∈ [f], ∃ p, m.state.world.resolve (Path.ofString f'.file) = .ok p := by
    intro f' hf'
    rw [List.mem_singleton.1 hf', hfile]
    exact ⟨p, eq_ok_of_toOption hp⟩
  obtain ⟨r', hr', hok, -, houtcome, hcount, -⟩ := hconveys q hq hwhole d hd hcommand
    ⟨d.call.argv, some 1, oneFinding "Bad", ""⟩ (eq_ok_of_toOption hanswer) rfl rfl [f] hparse
    hresolves
  cases hr'
  rw [hnoted] at houtcome
  rw [Ended.heeded, hnoted] at hcount
  exact ⟨m, h, r, hpast, hended, hok, houtcome, hcount⟩

/-- A message that has one of the phrases makes the finding disappear. -/
theorem finding_lost_by_message :
    (Output.parse (oneFinding "Nothing to do?!")).toOption.map (·.map (·.message)) =
        some ["Nothing to do?!"] ∧
      (after .small (reporting (oneFinding "Nothing to do?!"))).history.head?.bind
          (fun m => m.what.result?) =
        some { workspace := "/w", ok := true, outcome := some .nothingToCheck } ∧
      (after .small (reporting (oneFinding "Nothing to do?!"))).session.state.filed "/w" = [] := by
  decide +kernel

end Overseer
