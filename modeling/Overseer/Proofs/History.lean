import Overseer.Session.Scheduler
import Overseer.Supervisor

set_option autoImplicit false

/-! # Requests and histories

A host asks for operations; a batch asks for jobs. What then happens is written down moment by
moment, latest first: who did what, and what the shared state was at that moment. The moments
of one task are its story. From a story one can read what the task was asked for, which
registration it is about, which lock it holds, which processes it has started since it got the
lock, and how the last of them came back. -/

namespace Overseer

/-! ## Requests -/

/-- The registration that a job is about. -/
def Job.number : Job → Nat
  | check n | restart n | stop n => n

/-- What a host can ask for. -/
inductive Request where
  | start
  | shutdown
  | add (root : String) (settings : Option Settings)
  | remove (root : String)
  | update (root : String) (settings : Settings)
  | check (root : String)
  | notebook (root document : String) (cells : List Cell) (language : String)
  | signal (root : String) (reason : Supervisor.Signal) (paths : List String)
  | recheckAll
  | restartAll
  | stopAll
  /-- A job on a registration that the host has been given, registered or not. -/
  | job (job : Job)
  | fragments (number : Nat) (document : String) (cells : List Cell) (language : String)
  | kill (number : Nat)

/-- What a host can be answered. -/
inductive Reply where
  | checked (r : CheckResult)
  | report (b : BatchReport)
  | registration (n : Nat)
  | flag (b : Bool)
  | nothing
  deriving DecidableEq

namespace Request

/-- The operation that a request asks for. -/
def operation : Request → Op Reply
  | start => do Supervisor.start; return .nothing
  | shutdown => do return .report (← Supervisor.shutdown)
  | add root settings => do return .registration (← Supervisor.add root settings)
  | remove root => do return .flag (← Supervisor.remove root)
  | update root settings => do return .registration (← Supervisor.update root settings)
  | check root => do return .checked (← Supervisor.check root)
  | notebook root document cells language => do
    return .checked (← Supervisor.notebook root document cells language)
  | signal root reason paths => do
    match ← Supervisor.signal root reason paths with
    | some r => return .checked r
    | none => return .nothing
  | recheckAll => do return .report (← Supervisor.recheckAll)
  | restartAll => do return .report (← Supervisor.restartAll)
  | stopAll => do return .report (← Supervisor.stopAll)
  | job j => do return .checked (← j.operation)
  | fragments n document cells language => do
    return .checked (← Check.fragments n document cells language)
  | kill n => do return .checked (← Check.killDaemon n)

/-- Whether the registration that a request names exists. -/
def isKnown (s : State) : Request → Bool
  | job j => j.number < s.registrations.length
  | fragments n _ _ _ => n < s.registrations.length
  | kill n => n < s.registrations.length
  | _ => true

/-- The registration at a root. -/
def registeredAt (s : State) (root : String) : Option Nat :=
  match s.world.resolve (Path.ofString root) with
  | .ok p => s.registry.get? p.text
  | .error _ => none

/-- The registration that a request is about, if it is about one. -/
def subject (s : State) : Request → Option Nat
  | remove root | check root => registeredAt s root
  | notebook root _ _ _ => registeredAt s root
  | signal root _ _ => registeredAt s root
  | job j => some j.number
  | fragments n _ _ _ => some n
  | kill n => some n
  | _ => none

/-- Whether a request removes a root. -/
def isRemoval : Request → Bool
  | remove _ => true
  | _ => false

/-- Whether a request checks a whole workspace. -/
def isWhole : Request → Bool
  | check _ | signal _ _ _ | job (.check _) | job (.restart _) => true
  | _ => false

/-- Whether a request stops the daemon before it checks. -/
def isRestart : Request → Bool
  | signal _ reason _ => reason.isRestart
  | job (.restart _) => true
  | _ => false

/-- Whether a request stops the daemon and does nothing else. -/
def isStop : Request → Bool
  | job (.stop _) => true
  | _ => false

/-- Whether a request kills the daemon. -/
def isKill : Request → Bool
  | kill _ => true
  | _ => false

/-- The registration that a request names by its number, and not by a root. -/
def number? : Request → Option Nat
  | job j => some j.number
  | fragments n _ _ _ | kill n => some n
  | _ => none

/-- The document whose fragments a request checks. -/
def document? : Request → Option String
  | notebook _ document _ _ | fragments _ document _ _ => some document
  | _ => none

/-- The cells that a request checks. -/
def cells : Request → List Cell
  | notebook _ _ cells _ | fragments _ _ cells _ => cells
  | _ => []

/-- The language in which a request checks cells. -/
def language : Request → String
  | notebook _ _ _ language | fragments _ _ _ language => language
  | _ => ""

/-- Whether a request is a check. -/
def isCheck (r : Request) : Bool := r.isWhole || r.document?.isSome

end Request

/-! ## Moments -/

/-- Who does something: an operation of the host, or a job of a batch. -/
inductive TaskId where
  | host (step : Nat)
  | job (batch index : Nat)
  deriving DecidableEq

/-- What happens. -/
inductive Happening where
  | asked (r : Request)
  /-- The task goes on, for the first time or after a wait. -/
  | resumed
  | spawned (c : Call)
  | returned (e : Except Fault Ended)
  /-- The task pauses for some milliseconds. -/
  | slept (ms : Int)
  /-- The task asks for a lock. -/
  | reached (l : Nat)
  /-- The task is given a lock. -/
  | entered (l : Nat)
  /-- The task gives a lock back. -/
  | left (l : Nat)
  | gathered (jobs : List Job)
  | ended (r : Except Fault Reply)

/-- Whether something has nothing to do with locks. -/
def Happening.isQuiet : Happening → Bool
  | reached _ | entered _ | left _ => false
  | _ => true

/-- The lock that is asked for. -/
def Happening.reached? : Happening → Option Nat
  | reached l => some l
  | _ => none

/-- Whether something is the end of a task. -/
def Happening.isEnd : Happening → Bool
  | ended _ => true
  | _ => false

/-- The fault that a task ends with. -/
def Happening.fault? : Happening → Option Fault
  | ended (.error e) => some e
  | _ => none

/-- The result of a check that a task ends with. -/
def Happening.result? : Happening → Option CheckResult
  | ended (.ok (.checked r)) => some r
  | _ => none

theorem Happening.ended_of_result? {what : Happening} {r : CheckResult}
    (hr : what.result? = some r) : what = .ended (.ok (.checked r)) := by
  unfold result? at hr
  split at hr
  · cases hr
    rfl
  · exact absurd hr (by simp)

/-- The process that is started. -/
def Happening.spawned? : Happening → Option Call
  | spawned c => some c
  | _ => none

theorem Happening.spawned_of_spawned? {what : Happening} {c : Call}
    (hc : what.spawned? = some c) : what = .spawned c := by
  unfold spawned? at hc
  split at hc
  · cases hc
    rfl
  · exact absurd hc (by simp)

/-- Whether something is a pause of a task: it waits for a process, for some time to pass, for a
lock or for its jobs, or it ends. -/
def Happening.isPause : Happening → Bool
  | spawned _ | slept _ | reached _ | gathered _ | ended _ => true
  | _ => false

/-- Something that happened. -/
structure Moment where
  who : TaskId
  what : Happening
  state : State

/-- What has happened, latest first. -/
abbrev History := List Moment

namespace History

/-- The moments of one task. -/
def story (h : History) (i : TaskId) : History := h.filter fun m => m.who = i

/-- The state in which the task went on last. -/
def start : History → State
  | [] => {}
  | m :: h => match m.what with
    | .resumed => m.state
    | _ => start h

/-- The state in which the task went on first. -/
def began? : History → Option State
  | [] => none
  | m :: h => match m.what with
    | .resumed => some ((began? h).getD m.state)
    | _ => began? h

/-- What the task was asked for. -/
def request? : History → Option Request
  | [] => none
  | m :: h => match m.what with
    | .asked r => some r
    | _ => request? h

/-- The registration that the task is about. -/
def subject? (h : History) : Option Nat :=
  match h.request?, h.began? with
  | some r, some s => r.subject s
  | _, _ => none

/-- The lock that the task holds. -/
def holding : History → Option Nat
  | [] => none
  | m :: h => match m.what with
    | .entered l => some l
    | .left _ => none
    | _ => holding h

/-- Whether the task has asked for a lock. -/
def hasReached (h : History) : Bool :=
  h.any fun m => match m.what with
    | .reached _ => true
    | _ => false

/-- Whether the task has been given a lock. -/
def hasEntered (h : History) : Bool :=
  h.any fun m => match m.what with
    | .entered _ => true
    | _ => false

/-- The processes that the task has started since it was given a lock, each with the state in
which it was started. -/
def calls : History → List (Call × State)
  | [] => []
  | m :: h => match m.what with
    | .entered _ => []
    | .spawned c => (c, m.state) :: calls h
    | _ => calls h

/-- How the last process of the task came back. -/
def answer? : History → Option (Except Fault Ended)
  | [] => none
  | m :: h => match m.what with
    | .returned e => some e
    | _ => answer? h

/-- Who has asked for a lock, latest first. -/
def arrivals (h : History) (l : Nat) : List TaskId :=
  h.filterMap fun m => match m.what with
    | .reached l' => if l' = l then some m.who else none
    | _ => none

/-- Who has been given a lock, latest first. -/
def entries (h : History) (l : Nat) : List TaskId :=
  h.filterMap fun m => match m.what with
    | .entered l' => if l' = l then some m.who else none
    | _ => none

/-! ## One more moment -/

section Cons

variable {i : TaskId} {h : History} {m : Moment} {l : Nat} {s : State}

theorem story_cons (m : Moment) (h : History) (i : TaskId) :
    story (m :: h) i = if m.who = i then m :: h.story i else h.story i := by
  simp [story, List.filter_cons]

theorem story_cons_self (h : History) (m : Moment) :
    story (m :: h) m.who = m :: h.story m.who := by
  simp [story_cons]

theorem story_cons_of_ne (h : History) (hi : m.who ≠ i) : story (m :: h) i = h.story i := by
  simp [story_cons, hi]

/-- Whoever has begun once has begun for good. -/
theorem story_ne_nil_of_suffix {h h' : History} (hsuffix : h <:+ h') (hi : h.story i ≠ []) :
    h'.story i ≠ [] := by
  intro hnil
  have hstory := hsuffix.filter fun m => decide (m.who = i)
  rw [← story, ← story, hnil] at hstory
  exact hi (List.suffix_nil.1 hstory)

theorem holding_cons_of_quiet (hquiet : m.what.isQuiet = true) : holding (m :: h) = h.holding := by
  obtain ⟨who, what, state⟩ := m
  cases what with
  | reached | entered | left => exact absurd hquiet (by simp [Happening.isQuiet])
  | _ => rfl

/-- Who holds what changes with locks only. -/
theorem holding_story_of_quiet (hquiet : m.what.isQuiet = true) (j : TaskId) :
    (story (m :: h) j).holding = (h.story j).holding := by
  rw [story_cons]
  split
  · exact holding_cons_of_quiet hquiet
  · rfl

theorem holding_story_reached (j : TaskId) :
    (story (⟨i, .reached l, s⟩ :: h) j).holding = (h.story j).holding := by
  rw [story_cons]
  split <;> rfl

theorem holding_story_entered (j : TaskId) :
    (story (⟨i, .entered l, s⟩ :: h) j).holding =
      if i = j then some l else (h.story j).holding := by
  rw [story_cons]
  split <;> rfl

theorem holding_story_left (j : TaskId) :
    (story (⟨i, .left l, s⟩ :: h) j).holding = if i = j then none else (h.story j).holding := by
  rw [story_cons]
  split <;> rfl

theorem arrivals_cons_of_quiet (hquiet : m.what.isQuiet = true) (l : Nat) :
    arrivals (m :: h) l = h.arrivals l := by
  obtain ⟨who, what, state⟩ := m
  cases what with
  | reached | entered | left => exact absurd hquiet (by simp [Happening.isQuiet])
  | _ => rfl

theorem entries_cons_of_quiet (hquiet : m.what.isQuiet = true) (l : Nat) :
    entries (m :: h) l = h.entries l := by
  obtain ⟨who, what, state⟩ := m
  cases what with
  | reached | entered | left => exact absurd hquiet (by simp [Happening.isQuiet])
  | _ => rfl

theorem arrivals_reached (l' : Nat) : arrivals (⟨i, .reached l, s⟩ :: h) l' =
    if l = l' then i :: h.arrivals l' else h.arrivals l' := by
  by_cases hl : l = l' <;> simp [arrivals, hl]

theorem entries_entered (l' : Nat) : entries (⟨i, .entered l, s⟩ :: h) l' =
    if l = l' then i :: h.entries l' else h.entries l' := by
  by_cases hl : l = l' <;> simp [entries, hl]

theorem arrivals_entered (l' : Nat) :
    arrivals (⟨i, .entered l, s⟩ :: h) l' = h.arrivals l' := rfl

theorem entries_reached (l' : Nat) : entries (⟨i, .reached l, s⟩ :: h) l' = h.entries l' := rfl

theorem arrivals_left (l' : Nat) : arrivals (⟨i, .left l, s⟩ :: h) l' = h.arrivals l' := rfl

theorem entries_left (l' : Nat) : entries (⟨i, .left l, s⟩ :: h) l' = h.entries l' := rfl

/-- What a task was asked for and what it is about does not change while its story goes on. -/
theorem request?_cons {q : Request} (hnew : ∀ q, m.what = .asked q → h = [])
    (hq : h.request? = some q) : request? (m :: h) = some q := by
  rw [request?]
  split
  · next r hr =>
    rw [hnew r hr] at hq
    exact absurd hq (by simp [request?])
  · exact hq

theorem subject?_cons {n : Nat} (hnew : ∀ q, m.what = .asked q → h = [])
    (hn : h.subject? = some n) : subject? (m :: h) = some n := by
  cases hq : h.request? with
  | none => exact absurd hn (by simp [subject?, hq])
  | some q =>
    cases hs : h.began? with
    | none => exact absurd hn (by simp [subject?, hq, hs])
    | some s =>
      have hbegan : began? (m :: h) = some s := by
        rw [began?]
        split
        · rw [hs]
          rfl
        · exact hs
      rw [subject?, request?_cons hnew hq, hbegan]
      rw [subject?, hq, hs] at hn
      exact hn

/-- What a task is about has been settled when it began. -/
theorem subject?_resumed (i : TaskId) (s : State)
    (hh : h.began?.isSome = true) : subject? (⟨i, .resumed, s⟩ :: h) = h.subject? := by
  obtain ⟨s₀, hs₀⟩ := Option.isSome_iff_exists.1 hh
  simp only [subject?, request?, began?, hs₀, Option.getD_some]

/-- A task that has been given the number of a registration is about that one. -/
theorem eq_of_number? {q : Request} {n n' : Nat} (hq : h.request? = some q)
    (hn : h.subject? = some n) (hn' : q.number? = some n') : n = n' := by
  rw [subject?, hq] at hn
  cases hs : h.began? with
  | none => exact absurd hn (by simp [hs])
  | some s =>
    rw [hs] at hn
    cases q with
    | job | fragments | kill => exact Option.some.inj (hn.symm.trans hn')
    | _ => exact absurd hn' (by simp [Request.number?])

theorem request?_story_cons {q : Request} (hnew : ∀ q, m.what = .asked q → h.story m.who = [])
    (hq : (h.story i).request? = some q) : (story (m :: h) i).request? = some q := by
  rw [story_cons]
  split
  · next hi => exact request?_cons (hi ▸ hnew) hq
  · exact hq

theorem subject?_story_cons {n : Nat} (hnew : ∀ q, m.what = .asked q → h.story m.who = [])
    (hn : (h.story i).subject? = some n) : (story (m :: h) i).subject? = some n := by
  rw [story_cons]
  split
  · next hi => exact subject?_cons (hi ▸ hnew) hn
  · exact hn

/-- Whoever has asked for some lock has it in the story. -/
theorem hasReached_of_mem_arrivals (hi : i ∈ h.arrivals l) : (h.story i).hasReached = true := by
  obtain ⟨m, hm, hwhat⟩ := List.mem_filterMap.1 hi
  split at hwhat
  · next l' hreached =>
    split at hwhat
    · cases hwhat
      refine List.any_eq_true.2 ⟨m, List.mem_filter.2 ⟨hm, by simp⟩, ?_⟩
      rw [hreached]
    · exact absurd hwhat (by simp)
  · exact absurd hwhat (by simp)

end Cons

end History

end Overseer
