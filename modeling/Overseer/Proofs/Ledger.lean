import Overseer.Proofs.Scheduling

set_option autoImplicit false

/-! # What is filed is what the last good checks found

A check of a workspace that ends well gives a verdict. The diagnostics of a workspace whose
registration is never removed are those of its last verdicts: the files show what the last check
of the whole workspace found, the fragments of a document what the last check of that document
found. Whatever else happens, checks that fail or raise included, leaves all diagnostics as they
are. -/

namespace Overseer

open Chronicle

/-! ## Verdicts -/

/-- A check that ended well: what was asked for, the result, how its last process came back, and
the world at its end. -/
structure Verdict where
  request : Request
  result : CheckResult
  answer : Option (Except Fault Ended)
  world : World

namespace History

/-- The verdict on a workspace that a moment gives. -/
def verdictAt? (k : String) (m : Moment) (h : History) : Option Verdict :=
  match m.what with
  | .ended reply => ((h.story m.who).verdict? reply k).map fun x =>
      ⟨x.1, x.2, (h.story m.who).answer?, m.state.world⟩
  | _ => none

/-- The verdicts on a workspace, latest first. -/
def verdicts (k : String) : History → List Verdict
  | [] => []
  | m :: h => (verdictAt? k m h).toList ++ verdicts k h

/-- The documents whose fragments somebody asked to check. -/
def documents (h : History) : List String :=
  h.filterMap fun m => match m.what with
    | .asked q => q.document?
    | _ => none

/-- The documents whose fragments somebody asked to check are at no moment files with
diagnostics. -/
def DocumentsApart (h : History) (k : String) : Prop :=
  ∀ document ∈ h.documents, ∀ m ∈ h, ∀ e ∈ m.state.filed k, e.1 ≠ .file document

end History

/-- The files show what the last check of the whole workspace found. -/
def FilesShown (verdicts : List Verdict) (shown : List (DocumentKey × List Diagnostic)) : Prop :=
  match verdicts.find? fun v => v.request.isWhole with
  | none => shown = []
  | some v => Request.WholeShown v.answer v.world v.result shown

/-- The fragments of a document show what the last check of the document found. -/
def FragmentsShown (verdicts : List Verdict) (document : String)
    (shown : List (DocumentKey × List Diagnostic)) : Prop :=
  match verdicts.find? fun v => v.request.document? = some document with
  | none => shown = []
  | some v => Request.FragmentsShown v.answer v.request document v.result shown

/-- What is filed is what the last verdicts stand for. -/
structure FiledBy (verdicts : List Verdict) (filed : List (DocumentKey × List Diagnostic)) :
    Prop where
  files : FilesShown verdicts (filed.filter fun e => e.1.isFile)
  fragments : ∀ document, FragmentsShown verdicts document
    (filed.filter fun e => e.1.isFragmentOf document)

/-! ## One more verdict -/

section Verdict

variable {vs : List Verdict} {v : Verdict} {before after new : List (DocumentKey × List Diagnostic)}

/-- What has not been replaced is still there. -/
theorem filter_of_replaced {p q : DocumentKey → Bool} (hr : Collection.Replaced p before after new)
    (hq : ∀ key, q key = true → p key = false) :
    (after.filter fun e => q e.1) = before.filter fun e => q e.1 := by
  have hsame : ∀ l : List (DocumentKey × List Diagnostic),
      ((l.filter fun e => !p e.1).filter fun e => q e.1) = l.filter fun e => q e.1 := by
    intro l
    rw [List.filter_filter]
    refine List.filter_congr fun e _ => ?_
    cases hqe : q e.1 with
    | false => rfl
    | true => simp [hq e.1 hqe]
  rw [← hsame after, hr.kept, hsame before]

theorem FiledBy.whole (hf : FiledBy vs before) (hv : v.request.isWhole = true)
    (hr : Collection.Replaced DocumentKey.isFile before after new)
    (hnew : Request.WholeShown v.answer v.world v.result new) : FiledBy (v :: vs) after := by
  refine ⟨?_, fun document => ?_⟩
  · rw [FilesShown, List.find?_cons_of_pos (by simpa using hv), hr.shown]
    exact hnew
  · rw [FragmentsShown, List.find?_cons_of_neg (by simp [History.document?_of_isWhole hv]),
      filter_of_replaced hr]
    · exact hf.fragments document
    · intro key hkey
      cases key with
      | file path => exact absurd hkey (by simp [DocumentKey.isFragmentOf])
      | fragment d index => rfl

theorem FiledBy.document (hf : FiledBy vs before) {document : String}
    (hv : v.request.document? = some document)
    (hr : Collection.Replaced (DocumentKey.isFragmentOf document) before after new)
    (hnew : Request.FragmentsShown v.answer v.request document v.result new) :
    FiledBy (v :: vs) after := by
  refine ⟨?_, fun document' => ?_⟩
  · rw [FilesShown, List.find?_cons_of_neg (by simp [Check.isWhole_of_document? hv]),
      filter_of_replaced hr]
    · exact hf.files
    · intro key hkey
      cases key with
      | file path => rfl
      | fragment d index => exact absurd hkey (by simp [DocumentKey.isFile])
  · by_cases hd : document' = document
    · subst hd
      rw [FragmentsShown, List.find?_cons_of_pos (by simp [hv]), hr.shown]
      exact hnew
    · rw [FragmentsShown, List.find?_cons_of_neg (by simp [hv, Ne.symm hd]), filter_of_replaced hr]
      · exact hf.fragments document'
      · intro key hkey
        cases key with
        | file path => rfl
        | fragment d index =>
          have hkey' : d = document' := by simpa [DocumentKey.isFragmentOf] using hkey
          simp [DocumentKey.isFragmentOf, hkey', hd]

end Verdict

namespace History

variable {s₀ b : State} {h : History} {k : String} {i : TaskId}

/-! ## Going through a history -/

theorem DocumentsApart.of_cons {m : Moment} (hapart : DocumentsApart (m :: h) k) :
    h.DocumentsApart k := by
  intro document hdocument m' hm'
  refine hapart document ?_ m' (List.mem_cons_of_mem _ hm')
  exact (List.sublist_cons_self m h).filterMap _ |>.subset hdocument

/-- What a task was asked for, it was asked for at some moment. -/
theorem exists_asked {q : Request} (hq : (h.story i).request? = some q) :
    ∃ m ∈ h, m.what = .asked q := by
  have hmem : ∀ g : History, g.request? = some q → ∃ m ∈ g, m.what = .asked q := by
    intro g
    induction g with
    | nil => exact fun hq => absurd hq (by simp [request?])
    | cons m g ih =>
      intro hq
      rw [request?] at hq
      split at hq
      · next r hr =>
        cases hq
        exact ⟨m, List.mem_cons_self, hr⟩
      · obtain ⟨m', hm', hwhat⟩ := ih hq
        exact ⟨m', List.mem_cons_of_mem _ hm', hwhat⟩
  obtain ⟨m, hm, hwhat⟩ := hmem _ hq
  exact ⟨m, (List.mem_filter.1 hm).1, hwhat⟩

theorem mem_documents {q : Request} (hq : (h.story i).request? = some q) {document : String}
    (hdocument : q.document? = some document) : document ∈ h.documents := by
  obtain ⟨m, hm, hwhat⟩ := exists_asked hq
  refine List.mem_filterMap.2 ⟨m, hm, ?_⟩
  rw [hwhat]
  exact hdocument

/-- Nothing but what is filed at some moment was there when a task went on. -/
theorem exists_start {e : DocumentKey × List Diagnostic} (he : e ∈ (h.story i).start.filed k) :
    ∃ m ∈ h, e ∈ m.state.filed k := by
  have hmem : ∀ g : History, e ∈ g.start.filed k → ∃ m ∈ g, e ∈ m.state.filed k := by
    intro g
    induction g with
    | nil => exact fun he => absurd he (by simp [start, State.filed, Store.find?])
    | cons m g ih =>
      intro he
      rw [start] at he
      split at he
      · exact ⟨m, List.mem_cons_self, he⟩
      · obtain ⟨m', hm', he'⟩ := ih he
        exact ⟨m', List.mem_cons_of_mem _ hm', he'⟩
  obtain ⟨m, hm, he'⟩ := hmem _ he
  exact ⟨m, (List.mem_filter.1 hm).1, he'⟩

/-- Only a check gives a verdict. -/
theorem request_of_verdict {reply : Except Fault Reply} {q : Request} {r : CheckResult}
    (hv : h.verdict? reply k = some (q, r)) : h.request? = some q ∧ q.isCheck = true := by
  unfold verdict? at hv
  split at hv
  · next r' q' hq =>
    split at hv
    · next hcheck =>
      cases hv
      simp only [Bool.and_eq_true] at hcheck
      exact ⟨hq, hcheck.2⟩
    · exact absurd hv (by simp)
  · exact absurd hv (by simp)

theorem verdictAt?_ended (s : State) (r : Except Fault Reply) :
    verdictAt? k ⟨i, .ended r, s⟩ h = ((h.story i).verdict? r k).map fun x =>
      ⟨x.1, x.2, (h.story i).answer?, s.world⟩ := rfl

/-- A task that is calm has left the diagnostics of a workspace as they were. -/
theorem Calm.filed_eq {s : State} (hcalm : (h.story i).Calm s) (hstart : (h.story i).start = b)
    (hkept : ¬ s.Dropped k) : ¬ b.Dropped k ∧ s.filed k = b.filed k := by
  rw [← hstart]
  exact ⟨fun hd => hkept (hcalm.onward.1.dropped hd), hcalm.filed k hkept⟩

theorem not_dropped_of_core {s : State} (hcore : s.core = b.core) (hkept : ¬ s.Dropped k) :
    ¬ b.Dropped k :=
  fun hd => hkept ((State.dropped_of_core hcore k).2 hd)

/-- What is filed for a workspace that has not been removed can only change when a task ends. -/
theorem Lawful.filed_induction {P : History → List (DocumentKey × List Diagnostic) → Prop}
    (hnil : P [] (s₀.filed k))
    (hother : ∀ m h filed, m.what.isEnd = false → P h filed → P (m :: h) filed)
    (hended : ∀ i r s h, P h ((h.story i).start.filed k) → (h.story i).Refiled s r k →
      P (⟨i, .ended r, s⟩ :: h) (s.filed k))
    (hlawful : Lawful s₀ b h) (hkept : ¬ b.Dropped k) : P h (b.filed k) := by
  induction hlawful with
  | nil => exact hnil
  | asked i r hb hnew hknown ih => exact hother _ _ _ rfl (ih hkept)
  | resumed i hb ih => exact hother _ _ _ rfl (ih hkept)
  | spawned i c hb hstart hduty ih =>
    obtain ⟨hkept', hfiled⟩ := hduty.1.filed_eq hstart hkept
    rw [hfiled]
    exact hother _ _ _ rfl (ih hkept')
  | slept i ms hb hstart hduty ih =>
    obtain ⟨hkept', hfiled⟩ := Calm.filed_eq hduty hstart hkept
    rw [hfiled]
    exact hother _ _ _ rfl (ih hkept')
  | outside hb hworld ih =>
    rw [State.filed_of_core hworld]
    exact ih (not_dropped_of_core hworld hkept)
  | returned i e hb hworld ih =>
    rw [State.filed_of_core hworld]
    exact hother _ _ _ rfl (ih (not_dropped_of_core hworld hkept))
  | reached i l hb hstart hduty ih =>
    obtain ⟨hkept', hfiled⟩ := hduty.1.filed_eq hstart hkept
    rw [hfiled]
    exact hother _ _ _ rfl (ih hkept')
  | entered i l hb hon hfree hfirst ih => exact hother _ _ _ rfl (ih hkept)
  | left i l hb hstart hduty ih => exact hother _ _ _ rfl (ih hkept)
  | gathered i jobs hb hstart hduty ih =>
    obtain ⟨hkept', hfiled⟩ := hduty.1.filed_eq hstart hkept
    rw [hfiled]
    exact hother _ _ _ rfl (ih hkept')
  | ended i r hb hstart hduty ih =>
    subst hstart
    have hkept' := fun hd => hkept (hduty.steady.1.1.dropped hd)
    exact hended i r _ _ (ih hkept') (hduty.refiled k (.inl hkept))

theorem verdictAt?_of_not_end {m : Moment} (hm : m.what.isEnd = false) :
    verdictAt? k m h = none := by
  obtain ⟨i, what, s⟩ := m
  cases what with
  | ended r => exact absurd hm (by simp [Happening.isEnd])
  | _ => rfl

/-- One more task has ended. -/
theorem filedBy_ended {r : Except Fault Reply} {s : State}
    (hold : FiledBy (h.verdicts k) ((h.story i).start.filed k))
    (hrefiled : (h.story i).Refiled s r k) (hapart : h.DocumentsApart k) :
    FiledBy (verdicts k (⟨i, .ended r, s⟩ :: h)) (s.filed k) := by
  rw [Refiled] at hrefiled
  rw [verdicts, verdictAt?_ended]
  cases hverdict : (h.story i).verdict? r k with
  | none =>
    rw [hverdict] at hrefiled
    rw [hrefiled]
    exact hold
  | some x =>
    obtain ⟨q, result⟩ := x
    rw [hverdict] at hrefiled
    obtain ⟨hq, hcheck⟩ := request_of_verdict hverdict
    rw [Request.isCheck, Bool.or_eq_true] at hcheck
    rcases hcheck with hwhole | hdocument
    · obtain ⟨new, hreplaced, hshown⟩ := hrefiled.1 hwhole
      exact hold.whole hwhole hreplaced hshown
    · obtain ⟨document, hdocument⟩ := Option.isSome_iff_exists.1 hdocument
      -- no file is called like the document, so its fragments alone are replaced
      obtain ⟨new, hreplaced, hshown⟩ := (hrefiled.2 document hdocument).2 fun hfile => by
        obtain ⟨-, e, he, hname⟩ := hfile
        obtain ⟨m, hm, he'⟩ := exists_start he
        exact hapart document (mem_documents hq hdocument) m hm e he' hname
      exact hold.document hdocument hreplaced hshown

/-- What is filed for a workspace that has not been removed is what the verdicts stand for. -/
theorem Lawful.filedBy (h₀ : s₀.filed k = []) (hlawful : Lawful s₀ b h) (hkept : ¬ b.Dropped k)
    (hapart : h.DocumentsApart k) : FiledBy (h.verdicts k) (b.filed k) := by
  refine hlawful.filed_induction
    (P := fun h filed => h.DocumentsApart k → FiledBy (h.verdicts k) filed) (fun _ => ?_)
    (fun m h filed hm ih hapart => ?_) (fun i r s h ih hrefiled hapart => ?_) hkept hapart
  · rw [h₀]
    exact ⟨rfl, fun _ => rfl⟩
  · rw [verdicts, verdictAt?_of_not_end hm]
    exact ih hapart.of_cons
  · exact filedBy_ended (ih hapart.of_cons) hrefiled hapart.of_cons

/-! ## What leaves everything as it is -/

/-- What is filed for a workspace when its last verdict is given. -/
def filing (k : String) : History → List (DocumentKey × List Diagnostic)
  | [] => []
  | m :: h => if (verdictAt? k m h).isSome then m.state.filed k else filing k h

/-- Nothing but a verdict changes what is filed for a workspace that has not been removed. -/
theorem Lawful.filed_eq (h₀ : s₀.filed k = []) (hlawful : Lawful s₀ b h) (hkept : ¬ b.Dropped k) :
    b.filed k = h.filing k := by
  refine hlawful.filed_induction (P := fun h filed => filed = h.filing k) h₀
    (fun m h filed hm ih => ?_) (fun i r s h ih hrefiled => ?_) hkept
  · rw [filing, verdictAt?_of_not_end hm]
    exact ih
  · rw [Refiled] at hrefiled
    rw [filing, verdictAt?_ended]
    cases hverdict : (h.story i).verdict? r k with
    | none =>
      rw [hverdict] at hrefiled
      exact hrefiled.trans ih
    | some x => rfl

theorem length_verdicts_append (h' h : History) :
    (h.verdicts k).length ≤ ((h' ++ h).verdicts k).length := by
  induction h' with
  | nil => exact Nat.le_refl _
  | cons m h' ih =>
    rw [List.cons_append, verdicts, List.length_append]
    exact Nat.le_trans ih (Nat.le_add_left _ _)

/-- A history that goes on without a verdict. -/
theorem filing_append {h' : History} (hsame : (h' ++ h).verdicts k = h.verdicts k) :
    (h' ++ h).filing k = h.filing k := by
  induction h' with
  | nil => rfl
  | cons m h' ih =>
    rw [List.cons_append, verdicts] at hsame
    have hlength := congrArg List.length hsame
    rw [List.length_append] at hlength
    have hmore := length_verdicts_append (k := k) h' h
    have hnone : (verdictAt? k m (h' ++ h)).toList = [] := List.length_eq_zero_iff.1 (by omega)
    rw [hnone, List.nil_append] at hsame
    rw [List.cons_append, filing, if_neg, ih hsame]
    rw [Option.toList_eq_nil_iff] at hnone
    simp [hnone]

end History

/-! ## The ledger -/

/-- At any time the diagnostics of a workspace of which no registration has been removed are
those of its last verdicts, and as long as there is no new verdict they stay as they are. -/
theorem filed_by_last_verdicts (setup : Setup) (moves : List Move) (k : String)
    (hkept : ¬ (after setup moves).session.state.Dropped k)
    (hapart : (after setup moves).history.DocumentsApart k) :
    FiledBy ((after setup moves).history.verdicts k) ((after setup moves).session.state.filed k) ∧
      ∀ more, ¬ (after setup (moves ++ more)).session.state.Dropped k →
        (after setup (moves ++ more)).history.verdicts k = (after setup moves).history.verdicts k →
        (after setup (moves ++ more)).session.state.filed k =
          (after setup moves).session.state.filed k := by
  have h₀ : setup.state.filed k = [] := by simp [Setup.state, State.filed, Store.find?]
  refine ⟨(lawful_after setup moves).filedBy h₀ hkept hapart, fun more hkept' hsame => ?_⟩
  obtain ⟨new, hnew⟩ := suffix_after setup moves more
  rw [← hnew] at hsame
  rw [(lawful_after setup (moves ++ more)).filed_eq h₀ hkept', ← hnew,
    History.filing_append hsame, (lawful_after setup moves).filed_eq h₀ hkept]

/-- A check of a workspace and a check of a notebook in it, each with one finding. -/
def Chronicle.twoChecks : List Move :=
  [.request (.add "/w" none), .take,
    .respond [
      { command := some "run", exitCode := 1,
        stdout := Text.encode "a.py:1:1:1:2: error: Bad  [misc]\n".toList },
      { command := some "direct", exitCode := 1,
        stdout := Text.encode "<string>:1:1:1:2: error: Bad  [misc]\n".toList }],
    .request (.check "/w"), .take,
    .request (.notebook "/w" "n.ipynb" [⟨0, .str "x = y", .str "python", .str "code"⟩] "python"),
    .take]

theorem filed_after_two_checks :
    ((after .small twoChecks).session.state.filed "/w").map (·.1) =
        [.file "/cwd/a.py", .fragment "n.ipynb" 0] ∧
      FiledBy ((after .small twoChecks).history.verdicts "/w")
        ((after .small twoChecks).session.state.filed "/w") := by
  have hrun : ((after .small twoChecks).session.state.filed "/w").map (·.1) =
        [.file "/cwd/a.py", .fragment "n.ipynb" 0] ∧
      ¬ (after .small twoChecks).session.state.Dropped "/w" ∧
      (after .small twoChecks).history.DocumentsApart "/w" := by
    unfold State.Dropped History.DocumentsApart
    decide +kernel
  exact ⟨hrun.1, (filed_by_last_verdicts .small twoChecks "/w" hrun.2.1 hrun.2.2).1⟩

end Overseer
