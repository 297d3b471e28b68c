import Overseer.Proofs.Scheduling

set_option autoImplicit false

/-! # What a check of fragments touches

A check of the fragments of a document is about these and about nothing else. Up to its end it
changes no diagnostics at all, and none if it fails; if it ends well the fragments of the document
show what it found, and all files and all other documents show what they showed (`Confined`).

There is one exception. With nothing to check the document is cleared by its name, and a file
with diagnostics goes before a document of the same name: then the diagnostics of the file are
lost and those of the fragments stay (`Obstructed`). -/

namespace Overseer

open Chronicle

/-! ## What a task is about -/

namespace History

variable {s₀ b s : State} {h : History} {m : Moment} {i : TaskId} {n : Nat} {q : Request}
  {document : String}

/-- What a task has been asked for can be done, and it is about a registration that exists. -/
structure Known (h : History) (b : State) (i : TaskId) : Prop where
  request : ∀ q, (h.story i).request? = some q → q.isKnown b = true
  subject : ∀ n, (h.story i).subject? = some n → n < b.registrations.length

theorem Known.later (hk : h.Known b i) (hs : b.Later s) : h.Known s i :=
  ⟨fun q hq => Request.isKnown_of_le (hk.request q hq) hs.length,
    fun n hn => Nat.lt_of_lt_of_le (hk.subject n hn) hs.length⟩

/-- Whatever happens, unless somebody asks for something or goes on. -/
theorem Known.cons (hk : h.Known b i) (hasked : ∀ q, m.what ≠ .asked q)
    (hresumed : m.what ≠ .resumed) (hs : b.Later s) : Known (m :: h) s i := by
  have hk' := hk.later hs
  obtain ⟨who, what, state⟩ := m
  have hsame : (story (⟨who, what, state⟩ :: h) i).request? = (h.story i).request? ∧
      (story (⟨who, what, state⟩ :: h) i).subject? = (h.story i).subject? := by
    rw [story_cons]
    split
    · cases what with
      | asked q => exact absurd rfl (hasked q)
      | resumed => exact absurd rfl hresumed
      | _ => exact ⟨rfl, rfl⟩
    · exact ⟨rfl, rfl⟩
  exact ⟨fun q hq => hk'.request q (hsame.1 ▸ hq), fun n hn => hk'.subject n (hsame.2 ▸ hn)⟩

/-- Who goes on for the first time finds what the task is about. -/
theorem Known.resumed (hk : h.Known b i) (hb : b.Coherent) (j : TaskId) :
    Known (⟨j, .resumed, b⟩ :: h) b i := by
  by_cases hj : j = i
  · subst hj
    have hrequest : (story (⟨j, .resumed, b⟩ :: h) j).request? = (h.story j).request? := by
      rw [story_cons_self]
      rfl
    refine ⟨fun q hq => hk.request q (hrequest ▸ hq), fun n hn => ?_⟩
    rw [subject?, hrequest, story_cons_self, began?] at hn
    cases hq : (h.story j).request? with
    | none =>
      rw [hq] at hn
      exact absurd hn (by simp)
    | some q =>
      rw [hq] at hn
      cases hbegan : (h.story j).began? with
      | none =>
        rw [hbegan] at hn
        exact Request.known_of_subject hb (hk.request q hq) hn
      | some s =>
        rw [hbegan] at hn
        refine hk.subject n ?_
        rw [subject?, hq, hbegan]
        exact hn
  · have hstory : story (⟨j, .resumed, b⟩ :: h) i = h.story i := story_cons_of_ne h hj
    exact ⟨fun q hq => hk.request q (hstory ▸ hq), fun n hn => hk.subject n (hstory ▸ hn)⟩

theorem Known.asked (hk : h.Known b i) {j : TaskId} {q : Request} (hnew : h.story j = [])
    (hq : q.isKnown b = true) : Known (⟨j, .asked q, b⟩ :: h) b i := by
  by_cases hj : j = i
  · subst hj
    have hstory : story (⟨j, .asked q, b⟩ :: h) j = [⟨j, .asked q, b⟩] := by
      rw [story_cons_self, hnew]
    refine ⟨fun q' hq' => ?_, fun n hn => ?_⟩
    · rw [hstory] at hq'
      cases hq'
      exact hq
    · rw [hstory] at hn
      exact absurd hn (by simp [subject?, began?])
  · have hstory : story (⟨j, .asked q, b⟩ :: h) i = h.story i := story_cons_of_ne h hj
    exact ⟨fun q hq => hk.request q (hstory ▸ hq), fun n hn => hk.subject n (hstory ▸ hn)⟩

theorem Lawful.known (h₀ : s₀.Coherent) (hlawful : Lawful s₀ b h) (i : TaskId) : h.Known b i := by
  induction hlawful with
  | nil => exact ⟨fun q hq => absurd hq (by simp [story, request?]),
      fun n hn => absurd hn (by simp [story, subject?, request?])⟩
  | asked j r hb hnew hknown ih => exact ih.asked hnew hknown
  | resumed j hb ih => exact ih.resumed (hb.coherent h₀) j
  | spawned j c hb hstart hduty ih => exact ih.cons (by simp) (by simp) (hstart ▸ hduty.1.onward.1)
  | slept j ms hb hstart hduty ih =>
    exact ih.cons (by simp) (by simp) (hstart ▸ (Calm.onward hduty).1)
  | outside hb hworld ih => exact ih.later (.of_core hworld)
  | returned j e hb hworld ih => exact ih.cons (by simp) (by simp) (.of_core hworld)
  | reached j l hb hstart hduty ih => exact ih.cons (by simp) (by simp) (hstart ▸ hduty.1.onward.1)
  | entered j l hb hon hfree hfirst ih => exact ih.cons (by simp) (by simp) (.refl _)
  | left j l hb hstart hduty ih => exact ih.cons (by simp) (by simp) (.refl _)
  | gathered j jobs hb hstart hduty ih =>
    exact ih.cons (by simp) (by simp) (hstart ▸ hduty.1.onward.1)
  | ended j r hb hstart hduty ih => exact ih.cons (by simp) (by simp) (hstart ▸ hduty.steady.1.1)

/-! ## One pause -/

/-- What is filed for a workspace before and after a part of a check of the fragments of a document
that leads to a pause. -/
structure Confined (q : Request) (document : String) (what : Happening)
    (answer : Option (Except Fault Ended)) (before after : List (DocumentKey × List Diagnostic)) :
    Prop where
  /-- Unless the check ends well nothing is changed. -/
  kept : (∀ r, what = .ended (.ok (.checked r)) → r.ok = false) → after = before
  /-- If it ends well the fragments of the document are replaced by what it stands for. -/
  replaced : ∀ r, what = .ended (.ok (.checked r)) → r.ok = true →
    ¬ q.Obstructed document r before → ∃ new,
      Collection.Replaced (DocumentKey.isFragmentOf document) before after new ∧
        Request.FragmentsShown answer q document r new
  /-- If it ends well and a file is in the way the diagnostics of the file are cleared. -/
  obstructed : ∀ r, what = .ended (.ok (.checked r)) → r.ok = true →
    q.Obstructed document r before → after = before.filter fun e => e.1 ≠ .file document

/-- The end of a check of fragments. -/
theorem Settled.confined {reply : Except Fault Reply} (hsettled : h.Settled s reply)
    (hq : h.request? = some q) (hdocument : q.document? = some document)
    (hn : h.subject? = some n) (htended : h.Tended s (s.key n)) :
    Confined q document (.ended reply) h.answer? (h.start.filed (s.key n)) (s.filed (s.key n)) := by
  have hcheck : q.isCheck = true := by simp [Request.isCheck, hdocument]
  have hrefiled := hsettled.refiled _ htended
  have hgood : ∀ r, Happening.ended reply = .ended (.ok (.checked r)) → r.ok = true →
      h.verdict? reply (s.key n) = some (q, r) := by
    intro r hreply hok
    cases hreply
    rw [← hsettled.named q hq hcheck n hn r rfl hok]
    exact verdict?_self hq hcheck hok
  rw [Refiled] at hrefiled
  refine ⟨fun hr => ?_, fun r hreply hok => ?_, fun r hreply hok => ?_⟩
  · rw [verdict?_eq_none fun r hreply => hr r (congrArg _ hreply)] at hrefiled
    exact hrefiled
  · rw [hgood r hreply hok] at hrefiled
    exact (hrefiled.2 document hdocument).2
  · rw [hgood r hreply hok] at hrefiled
    exact (hrefiled.2 document hdocument).1

theorem Calm.confined {what : Happening} (hcalm : h.Calm s) (hwhat : what.isEnd = false)
    (htended : h.Tended s (s.key n)) :
    Confined q document what h.answer? (h.start.filed (s.key n)) (s.filed (s.key n)) := by
  have hend : ∀ r, what ≠ .ended r := by
    rintro r rfl
    exact absurd hwhat (by simp [Happening.isEnd])
  exact ⟨fun _ => hcalm.filed_of_tended htended, fun r hr => absurd hr (hend _),
    fun r hr => absurd hr (hend _)⟩

end History

/-! ## All pauses -/

/-- Whenever a check of the fragments of a document pauses and its workspace is still registered,
it has changed no diagnostics since it went on, but at its end those of the fragments of the
document to what it has found; or those of a file, if there was nothing to check and the file has
the name of the document. -/
theorem fragments_confined (setup : Setup) (moves : List Move) {m : Moment} {h : History}
    (hm : m :: h <:+ (after setup moves).history) (hpause : m.what.isPause = true)
    {q : Request} {document : String} (hq : (h.story m.who).request? = some q)
    (hdocument : q.document? = some document) {n : Nat} (hn : (h.story m.who).subject? = some n)
    (hregistered : m.state.registry.get? (m.state.key n) = some n) :
    History.Confined q document m.what (h.story m.who).answer?
      ((h.story m.who).start.filed (m.state.key n)) (m.state.filed (m.state.key n)) := by
  have h₀ := coherent_setup setup
  obtain ⟨b, hsuffix⟩ := (lawful_after setup moves).suffix hm
  obtain ⟨hlawful, hbefore, hduty⟩ := hsuffix.pause hpause
  -- a registration that is still in the registry has not been removed, so the task is held to it
  have hremoved := ((hlawful.coherent h₀).registered _ n hregistered).2.2
  have htended : (h.story m.who).Tended m.state (m.state.key n) :=
    .inr ⟨n, hn, (hbefore.known h₀ m.who).subject n hn, hremoved, rfl⟩
  rcases hduty with ⟨hwhat, hcalm⟩ | ⟨reply, hwhat, hsettled⟩
  · exact hcalm.confined hwhat htended
  · rw [hwhat]
    exact hsettled.confined hq hdocument hn htended

/-- A check of a workspace finds something in a file, and a check of a document with the name of
that file finds something in its only cell. -/
def Chronicle.sameName : List Move :=
  [.respond [
      { command := some "run", exitCode := 1,
        stdout := Text.encode "a.py:1:1:1:2: error: Bad  [misc]\n".toList },
      { command := some "direct", exitCode := 1,
        stdout := Text.encode "<string>:1:1:1:2: error: Bad  [misc]\n".toList }],
    .request (.add "/w" none), .take, .request (.check "/w"), .take,
    .request (.notebook "/w" "/cwd/a.py" [⟨0, .str "x = y", .str "python", .str "code"⟩] "python"),
    .take]

/-- The file keeps its diagnostics next to those of the cell. -/
theorem fragments_confined_beside_file :
    ∃ m h q, m :: h = (after .small sameName).history ∧ Request.document? q = some "/cwd/a.py" ∧
      ((History.story h m.who).start.filed "/w").map (·.1) = [.file "/cwd/a.py"] ∧
      (m.state.filed "/w").map (·.1) = [.file "/cwd/a.py", .fragment "/cwd/a.py" 0] ∧
      History.Confined q "/cwd/a.py" m.what (History.story h m.who).answer?
        ((History.story h m.who).start.filed "/w") (m.state.filed "/w") := by
  have hrun : (after .small sameName).atLast (fun m h => m.what.isPause &&
      (History.story h m.who).request?.bind Request.document? == some "/cwd/a.py" &&
      (History.story h m.who).subject? == some 0 && m.state.key 0 == "/w" &&
      m.state.registry.get? "/w" == some 0 &&
      ((History.story h m.who).start.filed "/w").map (·.1) == [.file "/cwd/a.py"] &&
      (m.state.filed "/w").map (·.1) == [.file "/cwd/a.py", .fragment "/cwd/a.py" 0]) = true := by
    decide +kernel
  obtain ⟨m, h, hpast, hlast⟩ := exists_of_atLast hrun
  simp only [Bool.and_eq_true, beq_iff_eq, Option.bind_eq_some_iff, and_assoc] at hlast
  obtain ⟨hpause, ⟨q, hq, hdocument⟩, hsubject, hkey, hregistered, hbefore, hafter⟩ := hlast
  refine ⟨m, h, q, hpast, hdocument, hbefore, hafter, ?_⟩
  have hconfined := fragments_confined .small sameName ⟨[], hpast⟩ hpause hq hdocument hsubject
    (by rw [hkey]; exact hregistered)
  rwa [hkey] at hconfined

/-- Then the document is checked without any cells. -/
def Chronicle.emptied : List Move :=
  sameName ++ [.request (.notebook "/w" "/cwd/a.py" [] "python"), .take]

/-- The check ends well, the diagnostics of the file are lost, and those of the cell stay. -/
theorem file_cleared_by_fragments :
    ((after .small sameName).session.state.filed "/w").map (·.1) =
        [.file "/cwd/a.py", .fragment "/cwd/a.py" 0] ∧
      ((after .small emptied).session.state.filed "/w").map (·.1) = [.fragment "/cwd/a.py" 0] ∧
      (after .small emptied).history.head?.map (fun m => match m.what with
        | .ended (.ok (.checked r)) => r.ok
        | _ => false) = some true := by
  decide +kernel

end Overseer
